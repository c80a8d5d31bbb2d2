import Mathlib.Data.List.DropRight

/-!
# Texts

Texts as lists of characters, and the white space that `str::trim` takes off their ends.
-/

namespace FrpRs

abbrev Text := List Char

namespace Text

open List

/-- `char::is_whitespace`, the Unicode class `White_Space`. -/
def isWhitespace (c : Char) : Bool :=
  let n := c.toNat
  (9 ≤ n && n ≤ 13) || n == 32 || n == 0x85 || n == 0xA0 || n == 0x1680 ||
    (0x2000 ≤ n && n ≤ 0x200A) || n == 0x2028 || n == 0x2029 || n == 0x202F || n == 0x205F ||
    n == 0x3000

def trim (s : Text) : Text :=
  (s.dropWhile isWhitespace).rdropWhile isWhitespace

theorem trim_eq_self {s : Text} (hhead : forall c, s.head? = some c -> isWhitespace c = false)
    (hlast : forall c, s.getLast? = some c -> isWhitespace c = false) : trim s = s := by
  have hfirst : s.dropWhile isWhitespace = s := by
    cases s with
    | nil => rfl
    | cons c s => rw [dropWhile_cons, hhead c rfl, if_neg Bool.false_ne_true]
  rw [trim, hfirst, rdropWhile_eq_self_iff]
  intro hne hspace
  rw [hlast _ (getLast?_eq_some_getLast hne)] at hspace
  cases hspace

theorem not_isWhitespace_of_isDigit {c : Char} (h : c.isDigit = true) : isWhitespace c = false := by
  have hrange : 48 ≤ c.toNat ∧ c.toNat ≤ 57 := by
    rw [Char.isDigit, Bool.and_eq_true, decide_eq_true_eq, decide_eq_true_eq] at h
    exact h
  simp only [isWhitespace, Bool.or_eq_false_iff, Bool.and_eq_false_iff, decide_eq_false_iff_not,
    beq_eq_false_iff_ne]
  omega

end Text
end FrpRs
