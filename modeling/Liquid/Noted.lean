import Liquid.Remark

/-!
# Computations with Remarks

A computation that may fail and that notes remarks as it goes. The remarks
noted before a failure are kept, for the log is written whether the
computation succeeds or not.

## Main definitions

* `Noted`: The remarks of a computation, and its result.
* `Noted.ok`, `Noted.error`: Results without a remark.
* `Noted.note`: A remark.
* `Noted.mapFault`: The same computation with its faults renamed.
-/

namespace Liquid

/-- The remarks of a computation in order, and its result. -/
structure Noted (ε α : Type) where
  remarks : List Remark
  result : Except ε α

namespace Noted

variable {ε δ α β : Type}

/-- A result. -/
def ok (a : α) : Noted ε α :=
  ⟨[], .ok a⟩

/-- A fault. -/
def error (e : ε) : Noted ε α :=
  ⟨[], .error e⟩

/-- A remark. -/
def note (remark : Remark) : Noted ε Unit :=
  ⟨[remark], .ok ()⟩

/-- A result or fault without remarks. -/
def ofExcept (result : Except ε α) : Noted ε α :=
  ⟨[], result⟩

/-- One computation, and another that goes on from its result. -/
def bind (x : Noted ε α) (f : α → Noted ε β) : Noted ε β :=
  match x.result with
  | .ok a =>
    let next := f a
    ⟨x.remarks ++ next.remarks, next.result⟩
  | .error e => ⟨x.remarks, .error e⟩

instance : Monad (Noted ε) where
  pure := ok
  bind := bind

/-- The same computation with its faults renamed. -/
def mapFault (f : ε → δ) (x : Noted ε α) : Noted δ α :=
  ⟨x.remarks, x.result.mapError f⟩

end Noted

end Liquid
