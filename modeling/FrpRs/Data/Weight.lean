import Mathlib.Algebra.Order.Ring.Nat

/-!
# Weighted lists

The weight of a list is the sum of the weights of its elements.  Replacing one
element moves the weight by the difference of the two.
-/

namespace FrpRs
namespace Weight

variable {T : Type}

def weight (w : T -> Nat) (l : List T) : Nat :=
  (l.map w).sum

@[simp] theorem weight_nil (w : T -> Nat) : weight w [] = 0 := rfl

@[simp] theorem weight_cons (w : T -> Nat) (t : T) (l : List T) :
    weight w (t :: l) = w t + weight w l := rfl

@[simp] theorem weight_append (w : T -> Nat) (l m : List T) :
    weight w (l ++ m) = weight w l + weight w m := by
  simp [weight]

@[simp] theorem weight_replicate (w : T -> Nat) (n : Nat) (t : T) :
    weight w (List.replicate n t) = n * w t := by
  simp [weight]

theorem weight_set (w : T -> Nat) {l : List T} {i : Nat} {t : T} (u : T)
    (h : l[i]? = some t) : weight w (l.set i u) + w t = weight w l + w u := by
  induction l generalizing i with
  | nil =>
    cases h
  | cons a l ih =>
    cases i with
    | zero =>
      cases h
      simp only [List.set_cons_zero, weight_cons]
      omega
    | succ i =>
      have hrest := ih h
      simp only [List.set_cons_succ, weight_cons]
      omega

theorem weight_get_le (w : T -> Nat) {l : List T} {i : Nat} {t : T}
    (h : l[i]? = some t) : w t ≤ weight w l := by
  induction l generalizing i with
  | nil =>
    cases h
  | cons a l ih =>
    cases i with
    | zero =>
      cases h
      exact Nat.le_add_right _ _
    | succ i =>
      exact le_trans (ih h) (Nat.le_add_left _ _)

end Weight
end FrpRs
