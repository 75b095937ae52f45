import Liquid.Html.Entity.LowerAToL
import Liquid.Html.Entity.LowerMToZ
import Liquid.Html.Entity.Upper

/-!
# Named Characters

The table of the named characters of HTML. It is kept by first letter: no name
is looked up often enough to ask for more, and a look-up of a known name then
touches the names of one letter alone.

## Main definitions

* `named`: The names that start with a letter.
* `lookup`: What a name stands for.
-/

namespace Liquid

namespace Html

namespace Entity

/-- The names that start with the letter, and the code points that each stands for. -/
def named : Char → List (String × List Nat)
  | 'A' => upperA
  | 'B' => upperB
  | 'C' => upperC
  | 'D' => upperD
  | 'E' => upperE
  | 'F' => upperF
  | 'G' => upperG
  | 'H' => upperH
  | 'I' => upperI
  | 'J' => upperJ
  | 'K' => upperK
  | 'L' => upperL
  | 'M' => upperM
  | 'N' => upperN
  | 'O' => upperO
  | 'P' => upperP
  | 'Q' => upperQ
  | 'R' => upperR
  | 'S' => upperS
  | 'T' => upperT
  | 'U' => upperU
  | 'V' => upperV
  | 'W' => upperW
  | 'X' => upperX
  | 'Y' => upperY
  | 'Z' => upperZ
  | 'a' => lowerA
  | 'b' => lowerB
  | 'c' => lowerC
  | 'd' => lowerD
  | 'e' => lowerE
  | 'f' => lowerF
  | 'g' => lowerG
  | 'h' => lowerH
  | 'i' => lowerI
  | 'j' => lowerJ
  | 'k' => lowerK
  | 'l' => lowerL
  | 'm' => lowerM
  | 'n' => lowerN
  | 'o' => lowerO
  | 'p' => lowerP
  | 'q' => lowerQ
  | 'r' => lowerR
  | 's' => lowerS
  | 't' => lowerT
  | 'u' => lowerU
  | 'v' => lowerV
  | 'w' => lowerW
  | 'x' => lowerX
  | 'y' => lowerY
  | 'z' => lowerZ
  | _ => []

/-- The characters that a name stands for, its semicolon being part of the name. -/
def lookup : List Char → Option (List Char)
  | [] => none
  | c :: cs => ((named c).lookup (String.ofList (c :: cs))).map (·.map Char.ofNat)

end Entity

end Html

end Liquid
