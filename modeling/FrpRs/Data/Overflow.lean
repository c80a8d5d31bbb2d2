import FrpRs.Data.Fallible
import Mathlib.Algebra.Order.Ring.Nat

/-!
# Checked arithmetic

A build with overflow checks stops the program at an operation whose exact
result does not fit its type.  A computation over such operations is an `Option`,
`none` being the stop.
-/

namespace FrpRs
namespace Overflow

variable {α : Type}

/-- The computation returns the value when the condition holds, and stops
otherwise. -/
structure Guarded (x : Option α) (value : α) (cond : Prop) : Prop where
  returns : cond -> x = some value
  stops : ¬ cond -> x = none

theorem Guarded.guard (cond : Prop) [Decidable cond] (a : α) :
    Guarded (if cond then Option.some a else none) a cond :=
  ⟨fun h => if_pos h, fun h => if_neg h⟩

/-!
## Operations

Each operation is the wrapping one behind a test of its exact result.
-/

def addU32 (a b : UInt32) : Option UInt32 :=
  if a.toNat + b.toNat < 4294967296 then some (a + b) else none

def mulU32 (a b : UInt32) : Option UInt32 :=
  if a.toNat * b.toNat < 4294967296 then some (a * b) else none

end Overflow
end FrpRs
