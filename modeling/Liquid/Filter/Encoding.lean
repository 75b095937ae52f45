import Liquid.Filter
import Liquid.Filter.Text
import Liquid.Html.Escape
import Liquid.Html.Unescape
import Liquid.Text.Base64
import Liquid.Text.Percent

/-!
# Filters for Encodings

Texts made safe for HTML, for the query of an address, and for channels that
carry ASCII alone, and read back from there. Only the base64 readers reject
anything: a text that is not well formed, or whose bytes are no UTF-8. A text
outside ASCII is not even looked at by them; that crashes.

## Main definitions

* `Filter.decodeBase64`: The text that a base64 text encodes.
* `Filter.encodingFilters`: The filters.
-/

namespace Liquid

namespace Filter

/-- What is said of a text over the standard alphabet that is not read: of its signs, or of the
bytes that it encodes. -/
def complaintOf (standard : List Char) : String :=
  match Text.Base64.decode? standard with
  | none => Text.Base64.complaint standard
  | some bytes => Text.Utf8.complaint bytes

/-- The text whose bytes a base64 text encodes; its padding at the end may be missing. -/
def decodeBase64 (alphabet : Text.Base64.Alphabet) (cs : List Char) :
    Except FilterFailure (List Char) :=
  let padded := Text.Base64.padded cs
  let standard :=
    match alphabet with
    | .standard => padded
    | .urlSafe => Text.Base64.toStandard padded
  if cs.any fun c => 0x80 ≤ c.toNat then .error (.crashed .notAscii)
  else
    match (Text.Base64.decode? standard).bind Text.Utf8.decode? with
    | some text => .ok text
    | none => .error (.rejected (.invalidBase64 (complaintOf standard)))

/-- A filter that reads base64. -/
def ofDecoder (name : String) (alphabet : Text.Base64.Alphabet) : Filter :=
  ofUnary name fun v => do textResult (← decodeBase64 alphabet (charsOf v))

/-- The filters for encodings. -/
def encodingFilters : List Filter :=
  [ofChars "escape" Html.escape,
    ofChars "escape_once" Html.escapeOnce,
    ofChars "unescape" Html.unescape,
    ofChars "url_encode" Text.Percent.encode,
    ofChars "url_decode" Text.Percent.decode,
    ofChars "base64_encode" fun cs => Text.Base64.encode .standard (Text.Utf8.encode cs),
    ofDecoder "base64_decode" .standard,
    ofChars "base64_url_safe_encode" fun cs => Text.Base64.encode .urlSafe (Text.Utf8.encode cs),
    ofDecoder "base64_url_safe_decode" .urlSafe]

end Filter

end Liquid
