import Liquid.Proofs.Arrangement.Soundness
import Liquid.Proofs.Expr.Naming
import Liquid.Proofs.Render.Scope
import Liquid.Proofs.Scope.Lookup
import Liquid.Proofs.Tag.Variable

/-!
# Captured Output

A capture renders its body as if it stood there by itself. Whatever the body does
to the scope it does in the capture as well, and only its chunks are kept back:
they are put together and written into a variable. So an output of the variable
shows what the body shows. That the variable is found is due to the frames, of
which a tree leaves those that were there: where no loop is open, the global that
was written last is not hidden.

A body that does not end leaves no value, and none of its chunks is shown.

## Main definitions

* `Node.capturing`: A capture, and an output of what it captured.
* `Token.capturing`: The tokens of these.

## Theorems

* `Arrangement.ofTokens_capturing`: What the tokens become.
* `Render.renderAll_capture_of_done`, `Render.renderAll_capture_of_exit`: What a
  capture does with a body that ends, and with one that does not.
* `Render.capture_transparent`: A captured body does what it does alone.
-/

namespace Liquid

/-- A capture of the body, and an output of the variable that it writes. -/
def Node.capturing (name : String) (body : List Node) (place : Place) : List Node :=
  [.capture name body, .output (.path name []) place]

/-- The tokens of a capture around others, which may be followed by more, and of an output of the
variable. Only the output has a place that its node keeps. -/
def Token.capturing (name args : String) (opening closing shown : Nat × Place)
    (inner : List Token) : List Token :=
  ⟨.tag "capture" name, opening.1, opening.2⟩ ::
    (inner ++ [⟨.tag "endcapture" args, closing.1, closing.2⟩]) ++
      [⟨.output name, shown.1, shown.2⟩]

namespace Arrangement

/-- Around the tokens of a body a capture holds what these become by themselves. -/
theorem ofTokens_capturing {name : String} (hname : Tag.isName name.toList = true)
    (hkeyword : name ∉ Lexeme.keywords) (args : String) (opening closing shown : Nat × Place)
    {inner : List Token} {body : List Node} {remarks : List Remark}
    (h : Node.ofTokens Environment.standard.tags inner = .ok (body, remarks)) :
    ∃ remarks', Node.ofTokens Environment.standard.tags
        (Token.capturing name args opening closing shown inner) =
      .ok (Node.capturing name body shown.2, remarks') := by
  -- The block is compiled to its one node, and so is the output behind it.
  have hcompile : Tag.captureTag.compile false
      ⟨"capture", name, opening.1, opening.2, [⟨"capture", name, opening.1, opening.2, body⟩],
        inner⟩ =
        .ok (.capture name body) :=
    map_eq_ok_iff.mpr ⟨name, Tag.nameOf_of_isName hname, rfl⟩
  have hcapture : Item Environment.standard.tags false
      (⟨.tag "capture" name, opening.1, opening.2⟩ ::
        (inner ++ [⟨.tag "endcapture" args, closing.1, closing.2⟩])) (.capture name body) :=
    .block rfl rfl (.last (body_of_ofTokens h)) hcompile
  have houtput : Item Environment.standard.tags false [⟨.output name, shown.1, shown.2⟩]
      (.output (.path name []) shown.2) :=
    .output (Expr.parse_of_isName hname hkeyword)
  exact ⟨_, ofTokens_of_body standard_unambiguous (.cons hcapture (body_of_item houtput))⟩

end Arrangement

namespace Render

open Scope (Keeps)

section Capture

variable {env : Environment} {body : List Node} {scope : Scope}

/-- A capture of a body that ends is an assignment of what the body shows. -/
theorem renderAll_capture_of_done (h : (renderAll env body scope).exit = .done ())
    (name : String) (rest : List Node) :
    let alone := renderAll env body scope
    let behind := renderAll env rest (alone.scope.assign name (.string (String.join alone.chunks)))
    renderAll env (.capture name body :: rest) scope =
      { behind with remarks := alone.remarks ++ behind.remarks } := by
  intro alone behind
  change Render.bind (Render.bind (captured (renderAll env body)) _) _ scope = _
  simp only [Render.bind, captured, h, update, List.nil_append, List.append_nil]
  rfl

/-- A capture of a body that does not end does what the body does, but shows nothing. -/
theorem renderAll_capture_of_exit (h : (renderAll env body scope).exit ≠ .done ())
    (name : String) (rest : List Node) :
    renderAll env (.capture name body :: rest) scope =
      { renderAll env body scope with chunks := [] } := by
  change Render.bind (Render.bind (captured (renderAll env body)) _) _ scope = _
  unfold Render.bind captured
  cases hexit : (renderAll env body scope).exit with
  | done result => exact absurd hexit h
  | broken => simp only [hexit]
  | continued => simp only [hexit]
  | failed fault => simp only [hexit]

/-- An output shows the value of its expression. -/
theorem renderAll_output_of_ok {expr : Expr} {place : Place} {value : Value}
    (h : (expr.eval env scope (some place)).result = .ok value) :
    renderAll env [.output expr place] scope =
      ⟨[value.display], (expr.eval env scope (some place)).remarks, scope, .done ()⟩ := by
  have houtput : renderAll env [.output expr place] scope =
      Render.bind (Render.bind (evaluated fun scope => expr.eval env scope (some place))
        fun value => emit value.display) (fun _ => done ()) scope :=
    rfl
  rw [houtput]
  simp [Render.bind, evaluated, h, emit, done]

/-- Where no loop is open, a variable that was just written shows what was written. -/
theorem renderAll_assigned (h : scope.locals = []) (name : String) (value : Value)
    (place : Place) :
    renderAll env [.output (.path name []) place] (scope.assign name value) =
      ⟨[value.display], [], scope.assign name value, .done ()⟩ := by
  have heval : (Expr.path name []).eval env (scope.assign name value) (some place) = .ok value :=
    Expr.eval_variable (Scope.lookup_assign_self h name value)
  rw [renderAll_output_of_ok (congrArg (·.result) heval), heval]
  rfl

end Capture

/-- Capturing a body and showing what was captured is as good as rendering the body, whatever names
the body itself reads and writes. Where no loop is open, and the body ends, the same text is shown
and the scope is the one that the body leaves, save that the variable holds the text. If the body
does not end, the capture ends as the body does, and it neither shows what the body has shown so far
nor writes the variable. -/
theorem capture_transparent (env : Environment) (name : String) (body : List Node)
    (hname : Tag.isName name.toList = true) (hkeyword : name ∉ Lexeme.keywords)
    (hbuiltIn : Node.BuiltIn body) :
    (∀ inner remarks, Node.ofTokens Environment.standard.tags inner = .ok (body, remarks) →
      ∀ args opening closing shown, ∃ remarks', Node.ofTokens Environment.standard.tags
          (Token.capturing name args opening closing shown inner) =
        .ok (Node.capturing name body shown.2, remarks')) ∧
      ∀ scope : Scope, scope.locals = [] → ∀ place : Place,
        let alone := renderAll env body scope
        let both := renderAll env (Node.capturing name body place) scope
        both.remarks = alone.remarks ∧
          (alone.exit = .done () → both.exit = .done () ∧
            String.join both.chunks = String.join alone.chunks ∧
            both.scope = alone.scope.assign name (.string (String.join alone.chunks))) ∧
          (alone.exit ≠ .done () → both.exit = alone.exit ∧ both.chunks = [] ∧
            both.scope = alone.scope) := by
  refine ⟨fun inner remarks h args opening closing shown =>
    Arrangement.ofTokens_capturing hname hkeyword args opening closing shown h, ?_⟩
  intro scope hlocals place alone both
  -- The frames are as before, so the variable is written globally and found there.
  by_cases hexit : alone.exit = .done ()
  · have hframes : alone.scope.locals = [] :=
      (moves_renderAll body hbuiltIn scope).locals.trans hlocals
    have hboth : both = ⟨[String.join alone.chunks], alone.remarks,
        alone.scope.assign name (.string (String.join alone.chunks)), .done ()⟩ := by
      refine (renderAll_capture_of_done hexit name [.output (.path name []) place]).trans ?_
      rw [renderAll_assigned hframes]
      simp only [List.append_nil]
      rfl
    rw [hboth]
    refine ⟨rfl, fun _ => ⟨rfl, ?_, rfl⟩, fun hnot => absurd hexit hnot⟩
    simp
  · have hboth : both = { alone with chunks := [] } :=
      renderAll_capture_of_exit hexit name [.output (.path name []) place]
    rw [hboth]
    exact ⟨rfl, fun hdone => absurd hdone hexit, fun _ => ⟨rfl, rfl, rfl⟩⟩

/-- A body that writes the variable that it is captured into, from within a loop, and then shows it;
and the same body with an output behind it that fails, since there are no filters. -/
theorem capture_transparent_nested :
    let place : Place := ⟨1, 1⟩
    let shown (name : String) : Node := .output (.path name []) place
    let items : Selection := ⟨.literal (.range 1 2), none, none, false⟩
    let body : List Node := [.assign "n" (.literal (.string "x")) place,
      .loop "i" items [.capture "n" [shown "n", shown "i"]] none place, shown "n"]
    let failing : List Node := body ++ [.output (.filtered (.path "n" []) [.call "no" [] []]) place]
    let env : Environment := { Environment.standard with filters := [] }
    let captured (body : List Node) :=
      renderAll env (Node.capturing "n" body place) (.ofData [])
    Tag.isName "n".toList = true ∧ "n" ∉ Lexeme.keywords ∧ Node.BuiltIn body ∧
      Node.BuiltIn failing ∧ (captured body).exit = .done () ∧
      String.join (captured body).chunks = "x12" ∧
      (captured failing).exit = .failed (.render ⟨.unknownFilter "no", some place⟩) ∧
      (captured failing).chunks = [] ∧
      (captured failing).scope.lookup "n" = .string "x12" := by
  intro place shown items body failing env captured
  have hname : Tag.isName "n".toList = true := rfl
  have hkeyword : "n" ∉ Lexeme.keywords := by decide
  have hbuiltIn : Node.BuiltIn body := by
    simp [Node.BuiltIn, Node.allOf, Node.all_eq, Node.bodies, body, shown, Node.isCustom]
  have hfailing : Node.BuiltIn failing := by
    simp [Node.BuiltIn, Node.allOf, Node.all_eq, Node.bodies, failing, body, shown, Node.isCustom]
  -- One render is done and the other fails, so each half of the theorem is used.
  have hends := ((capture_transparent env "n" body hname hkeyword hbuiltIn).2
    (.ofData []) rfl place).2.1 rfl
  have hexit : (renderAll env failing (.ofData [])).exit =
      .failed (.render ⟨.unknownFilter "no", some place⟩) := rfl
  have hfails := ((capture_transparent env "n" failing hname hkeyword hfailing).2
    (.ofData []) rfl place).2.2 (by simp [hexit])
  refine ⟨hname, hkeyword, hbuiltIn, hfailing, hends.1, hends.2.1.trans rfl, hfails.1.trans hexit,
    hfails.2.1, ?_⟩
  exact (congrArg (·.lookup "n") hfails.2.2).trans rfl

end Render

end Liquid
