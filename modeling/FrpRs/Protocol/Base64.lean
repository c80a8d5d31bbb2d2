import FrpRs.Data.Bytes
import Mathlib.Tactic.IntervalCases

/-!
# Base64

`frp-core/src/base64.rs`: the standard alphabet with padding.  Texts are their bytes.

The decoder goes on after a padded group, so that padding may stand inside of a text.
-/

namespace FrpRs
namespace Base64

open List Bytes

def alphabet : List Byte :=
  utf8 "ABCDEFGHIJKLMNOPQRSTUVWXYZabcdefghijklmnopqrstuvwxyz0123456789+/"

def letter (v : Byte) : Byte :=
  alphabet.getD v.toNat 0

/-- The padding character. -/
def pad : Byte := 61

inductive Base64Error where
  | invalidLength (len : Nat)
  | invalidChar (pos : Nat)
  | invalidPadding (pos : Nat)
deriving DecidableEq, Repr

def encode : List Byte -> List Byte
  | b0 :: b1 :: b2 :: rest =>
    letter (b0 >>> 2) :: letter ((b0 &&& 0x03) <<< 4 ||| b1 >>> 4) ::
      letter ((b1 &&& 0x0F) <<< 2 ||| b2 >>> 6) :: letter (b2 &&& 0x3F) :: encode rest
  | [b0, b1] =>
    [letter (b0 >>> 2), letter ((b0 &&& 0x03) <<< 4 ||| b1 >>> 4), letter ((b1 &&& 0x0F) <<< 2),
      pad]
  | [b0] => [letter (b0 >>> 2), letter ((b0 &&& 0x03) <<< 4), pad, pad]
  | [] => []

def letterValue (c : Byte) : Option Byte :=
  if 65 ≤ c ∧ c ≤ 90 then some (c - 65)
  else if 97 ≤ c ∧ c ≤ 122 then some (c - 97 + 26)
  else if 48 ≤ c ∧ c ≤ 57 then some (c - 48 + 52)
  else if c = 43 then some 62
  else if c = 47 then some 63
  else none

def decodeChar (c : Byte) (pos : Nat) : Except Base64Error Byte :=
  match letterValue c with
  | some v => .ok v
  | none => .error (.invalidChar pos)

/-- The bytes of a group whose first two characters have the values `c0` and `c1`. -/
def decodeGroup (i : Nat) (c0 c1 x2 x3 : Byte) : Except Base64Error (List Byte) :=
  if x2 = pad then
    if x3 = pad then .ok [(c0 <<< 2) ||| (c1 >>> 4)] else .error (.invalidPadding (i + 2))
  else if x3 = pad then do
    let c2 <- decodeChar x2 (i + 2)
    .ok [(c0 <<< 2) ||| (c1 >>> 4), ((c1 &&& 0x0F) <<< 4) ||| (c2 >>> 2)]
  else do
    let c2 <- decodeChar x2 (i + 2)
    let c3 <- decodeChar x3 (i + 3)
    .ok [(c0 <<< 2) ||| (c1 >>> 4), ((c1 &&& 0x0F) <<< 4) ||| (c2 >>> 2),
      ((c2 &&& 0x03) <<< 6) ||| c3]

def decodeFrom : Nat -> List Byte -> Except Base64Error (List Byte)
  | i, x0 :: x1 :: x2 :: x3 :: rest => do
    let c0 <- decodeChar x0 i
    let c1 <- decodeChar x1 (i + 1)
    let group <- decodeGroup i c0 c1 x2 x3
    let out <- decodeFrom (i + 4) rest
    .ok (group ++ out)
  | _, _ => .ok []

def decode (input : List Byte) : Except Base64Error (List Byte) :=
  if input.length % 4 ≠ 0 then .error (.invalidLength input.length) else decodeFrom 0 input

/-!
## Round trip
-/

/-- The value of six bits. -/
def Sextet (v : Byte) : Prop :=
  v &&& 0xC0 = 0

theorem letter_value {v : Byte} (h : Sextet v) : letterValue (letter v) = some v ∧ letter v ≠ pad := by
  have hall : forall b : BitVec 8, UInt8.ofBitVec b &&& 0xC0 = 0 ->
      letterValue (letter (UInt8.ofBitVec b)) = some (UInt8.ofBitVec b) ∧
        letter (UInt8.ofBitVec b) ≠ pad := by
    decide +kernel
  exact hall v.toBitVec h

theorem decodeChar_letter {v : Byte} (h : Sextet v) (pos : Nat) :
    decodeChar (letter v) pos = .ok v := by
  rw [decodeChar, (letter_value h).1]

theorem sextet_first (b0 : Byte) : Sextet (b0 >>> 2) := by
  apply UInt8.toBitVec_inj.mp
  change (UInt8.toBitVec b0 >>> 2) &&& 0xC0#8 = 0#8
  apply BitVec.eq_of_getLsbD_eq
  intro i hi
  interval_cases i <;> simp

theorem sextet_second (b0 b1 : Byte) : Sextet ((b0 &&& 0x03) <<< 4 ||| b1 >>> 4) := by
  apply UInt8.toBitVec_inj.mp
  change ((UInt8.toBitVec b0 &&& 3#8) <<< 4 ||| UInt8.toBitVec b1 >>> 4) &&& 0xC0#8 = 0#8
  apply BitVec.eq_of_getLsbD_eq
  intro i hi
  interval_cases i <;> simp

theorem sextet_third (b1 b2 : Byte) : Sextet ((b1 &&& 0x0F) <<< 2 ||| b2 >>> 6) := by
  apply UInt8.toBitVec_inj.mp
  change ((UInt8.toBitVec b1 &&& 0xF#8) <<< 2 ||| UInt8.toBitVec b2 >>> 6) &&& 0xC0#8 = 0#8
  apply BitVec.eq_of_getLsbD_eq
  intro i hi
  interval_cases i <;> simp

theorem sextet_fourth (b2 : Byte) : Sextet (b2 &&& 0x3F) := by
  apply UInt8.toBitVec_inj.mp
  change (UInt8.toBitVec b2 &&& 0x3F#8) &&& 0xC0#8 = 0#8
  apply BitVec.eq_of_getLsbD_eq
  intro i hi
  interval_cases i <;> simp

theorem first_byte (b0 b1 : Byte) :
    (b0 >>> 2) <<< 2 ||| ((b0 &&& 0x03) <<< 4 ||| b1 >>> 4) >>> 4 = b0 := by
  apply UInt8.toBitVec_inj.mp
  change (UInt8.toBitVec b0 >>> 2) <<< 2 |||
    ((UInt8.toBitVec b0 &&& 3#8) <<< 4 ||| UInt8.toBitVec b1 >>> 4) >>> 4 = UInt8.toBitVec b0
  apply BitVec.eq_of_getLsbD_eq
  intro i hi
  interval_cases i <;> simp

theorem second_byte (b0 b1 b2 : Byte) :
    (((b0 &&& 0x03) <<< 4 ||| b1 >>> 4) &&& 0x0F) <<< 4 |||
      ((b1 &&& 0x0F) <<< 2 ||| b2 >>> 6) >>> 2 = b1 := by
  apply UInt8.toBitVec_inj.mp
  change (((UInt8.toBitVec b0 &&& 3#8) <<< 4 ||| UInt8.toBitVec b1 >>> 4) &&& 0xF#8) <<< 4 |||
    ((UInt8.toBitVec b1 &&& 0xF#8) <<< 2 ||| UInt8.toBitVec b2 >>> 6) >>> 2 = UInt8.toBitVec b1
  apply BitVec.eq_of_getLsbD_eq
  intro i hi
  interval_cases i <;> simp

theorem third_byte (b1 b2 : Byte) :
    (((b1 &&& 0x0F) <<< 2 ||| b2 >>> 6) &&& 0x03) <<< 6 ||| (b2 &&& 0x3F) = b2 := by
  apply UInt8.toBitVec_inj.mp
  change (((UInt8.toBitVec b1 &&& 0xF#8) <<< 2 ||| UInt8.toBitVec b2 >>> 6) &&& 3#8) <<< 6 |||
    (UInt8.toBitVec b2 &&& 0x3F#8) = UInt8.toBitVec b2
  apply BitVec.eq_of_getLsbD_eq
  intro i hi
  interval_cases i <;> simp

theorem decodeFrom_encode (i : Nat) (data : List Byte) : decodeFrom i (encode data) = .ok data := by
  induction data using encode.induct generalizing i with
  | case1 b0 b1 b2 rest ih =>
    have h2 := (letter_value (sextet_third b1 b2)).2
    have h3 := (letter_value (sextet_fourth b2)).2
    simp only [encode, decodeFrom, decodeChar_letter (sextet_first b0),
      decodeChar_letter (sextet_second b0 b1), ih, decodeGroup, if_neg h2, if_neg h3,
      decodeChar_letter (sextet_third b1 b2), decodeChar_letter (sextet_fourth b2), bind,
      Except.bind, first_byte, second_byte, third_byte]
    rfl
  | case2 b0 b1 =>
    have hlast : (b1 &&& 0x0F) <<< 2 = (b1 &&& 0x0F) <<< 2 ||| (0 : Byte) >>> 6 := by simp
    have h2 := (letter_value (sextet_third b1 0)).2
    rw [encode, hlast]
    simp only [decodeFrom, decodeChar_letter (sextet_first b0),
      decodeChar_letter (sextet_second b0 b1), decodeGroup, if_neg h2, if_true,
      decodeChar_letter (sextet_third b1 0), bind, Except.bind, first_byte, second_byte]
    rfl
  | case3 b0 =>
    have hlast : (b0 &&& 0x03) <<< 4 = (b0 &&& 0x03) <<< 4 ||| (0 : Byte) >>> 4 := by simp
    rw [encode, hlast]
    simp only [decodeFrom, decodeChar_letter (sextet_first b0),
      decodeChar_letter (sextet_second b0 0), decodeGroup, if_true, bind, Except.bind, first_byte]
    rfl
  | case4 => rfl

theorem length_encode (data : List Byte) : (encode data).length % 4 = 0 := by
  induction data using encode.induct with
  | case1 b0 b1 b2 rest ih =>
    simp only [encode, length_cons]
    omega
  | case2 b0 b1 => simp [encode]
  | case3 b0 => simp [encode]
  | case4 => simp [encode]

/-!
## Padding
-/

def IsLetter (c : Byte) : Prop :=
  letterValue c ≠ none

/-- Every group has two letters, and then two letters, a letter and a pad, or two pads. -/
def Grouped : List Byte -> Prop
  | [] => True
  | x0 :: x1 :: x2 :: x3 :: rest =>
    (IsLetter x0 ∧ IsLetter x1 ∧
      (x2 = pad ∧ x3 = pad ∨ IsLetter x2 ∧ (x3 = pad ∨ IsLetter x3))) ∧ Grouped rest
  | _ => False

/-- A group before the last one ends in a pad. -/
def PaddedInside : List Byte -> Prop
  | _ :: _ :: _ :: x3 :: rest => rest ≠ [] ∧ (x3 = pad ∨ PaddedInside rest)
  | _ => False

/-- Pads are the last one or two characters, if there are any. -/
def PaddedAtEnd (s : List Byte) : Prop :=
  exists text n, s = text ++ replicate n pad ∧ n ≤ 2 ∧ pad ∉ text

theorem not_isLetter_pad : ¬ IsLetter pad := by
  unfold IsLetter
  decide

theorem IsLetter.ne_pad {c : Byte} (h : IsLetter c) : c ≠ pad := by
  rintro rfl
  exact not_isLetter_pad h

theorem decodeChar_ok_iff (c : Byte) (pos : Nat) :
    (exists v, decodeChar c pos = .ok v) <-> IsLetter c := by
  rw [decodeChar, IsLetter]
  cases letterValue c with
  | none => simp
  | some v => simp

theorem except_bind_ok_iff {ε α β : Type} (x : Except ε α) (f : α -> Except ε β) :
    (exists b, x >>= f = .ok b) <-> exists a, x = .ok a ∧ exists b, f a = .ok b := by
  cases x with
  | error e => simp [bind, Except.bind]
  | ok a => simp [bind, Except.bind]

theorem decodeGroup_ok_iff (i : Nat) (c0 c1 x2 x3 : Byte) :
    (exists group, decodeGroup i c0 c1 x2 x3 = .ok group) <->
      x2 = pad ∧ x3 = pad ∨ IsLetter x2 ∧ (x3 = pad ∨ IsLetter x3) := by
  rw [decodeGroup]
  split_ifs with h2 h3 h3
  · simp [h2, h3]
  · simp [h2, h3, not_isLetter_pad]
  · simp [except_bind_ok_iff, ← decodeChar_ok_iff x2 (i + 2), h2, h3]
  · simp [except_bind_ok_iff, ← decodeChar_ok_iff x2 (i + 2), ← decodeChar_ok_iff x3 (i + 3), h2,
      h3]

theorem decodeFrom_ok_iff (i : Nat) (s : List Byte) (hs : s.length % 4 = 0) :
    (exists out, decodeFrom i s = .ok out) <-> Grouped s := by
  induction s using Grouped.induct generalizing i with
  | case1 => simp [decodeFrom, Grouped]
  | case2 x0 x1 x2 x3 rest ih =>
    have hrest : rest.length % 4 = 0 := by
      simp only [length_cons] at hs
      omega
    rw [Grouped, ← ih (i + 4) hrest]
    simp only [decodeFrom, except_bind_ok_iff, ← decodeChar_ok_iff x0 i,
      ← decodeChar_ok_iff x1 (i + 1)]
    constructor
    · rintro ⟨c0, h0, c1, h1, group, hgroup, out, hout, -⟩
      exact ⟨⟨⟨c0, h0⟩, ⟨c1, h1⟩, (decodeGroup_ok_iff i c0 c1 x2 x3).mp ⟨group, hgroup⟩⟩, out, hout⟩
    · rintro ⟨⟨⟨c0, h0⟩, ⟨c1, h1⟩, hpads⟩, out, hout⟩
      obtain ⟨group, hgroup⟩ := (decodeGroup_ok_iff i c0 c1 x2 x3).mpr hpads
      exact ⟨c0, h0, c1, h1, group, hgroup, out, hout, _, rfl⟩
  | case3 s hnil hcons =>
    rcases s with _ | ⟨x0, _ | ⟨x1, _ | ⟨x2, _ | ⟨x3, rest⟩⟩⟩⟩
    · exact absurd rfl hnil
    · exact absurd hs (by simp)
    · exact absurd hs (by simp)
    · exact absurd hs (by simp)
    · exact absurd rfl (hcons x0 x1 x2 x3 rest)

/-- A group in front of others is to have no pad. -/
theorem paddedAtEnd_cons_iff {x0 x1 x2 x3 : Byte} {rest : List Byte} (hrest : 4 ≤ rest.length) :
    PaddedAtEnd (x0 :: x1 :: x2 :: x3 :: rest) <->
      pad ∉ [x0, x1, x2, x3] ∧ PaddedAtEnd rest := by
  constructor
  · rintro ⟨text, n, hs, hn, hfree⟩
    have hlength := congrArg length hs
    simp only [length_cons, length_append, length_replicate] at hlength
    rcases text with _ | ⟨y0, _ | ⟨y1, _ | ⟨y2, _ | ⟨y3, text⟩⟩⟩⟩
    iterate 4 (simp only [length_cons, length_nil] at hlength; omega)
    simp only [cons_append, cons.injEq] at hs
    obtain ⟨rfl, rfl, rfl, rfl, hs⟩ := hs
    refine ⟨fun hmem => hfree ?_, text, n, hs, hn, fun hmem => hfree ?_⟩
    · exact mem_append_left text hmem
    · exact mem_append_right [x0, x1, x2, x3] hmem
  · rintro ⟨hgroup, text, n, rfl, hn, hfree⟩
    refine ⟨[x0, x1, x2, x3] ++ text, n, rfl, hn, fun hmem => ?_⟩
    exact (mem_append.mp hmem).elim hgroup hfree

theorem Grouped.length {s : List Byte} (h : Grouped s) : s.length % 4 = 0 := by
  induction s using Grouped.induct with
  | case1 => rfl
  | case2 x0 x1 x2 x3 rest ih =>
    have hrest := ih h.2
    simp only [length_cons]
    omega
  | case3 s hnil hcons =>
    rcases s with _ | ⟨x0, _ | ⟨x1, _ | ⟨x2, _ | ⟨x3, rest⟩⟩⟩⟩
    · exact absurd rfl hnil
    iterate 3 exact h.elim
    exact absurd rfl (hcons x0 x1 x2 x3 rest)

theorem Grouped.paddedAtEnd_iff {s : List Byte} (h : Grouped s) :
    PaddedAtEnd s <-> ¬ PaddedInside s := by
  induction s using Grouped.induct with
  | case1 => exact iff_of_true ⟨[], 0, rfl, by decide, not_mem_nil⟩ id
  | case2 x0 x1 x2 x3 rest ih =>
    obtain ⟨⟨h0, h1, hpads⟩, hgrouped⟩ := h
    have h0 := h0.ne_pad.symm
    have h1 := h1.ne_pad.symm
    by_cases hrest : rest = []
    · subst hrest
      refine iff_of_true ?_ (fun h => h.1 rfl)
      rcases hpads with ⟨rfl, rfl⟩ | ⟨h2, rfl | h3⟩
      · exact ⟨[x0, x1], 2, rfl, by decide, by simp [h0, h1]⟩
      · exact ⟨[x0, x1, x2], 1, rfl, by decide, by simp [h0, h1, h2.ne_pad.symm]⟩
      · exact ⟨[x0, x1, x2, x3], 0, rfl, by decide,
          by simp [h0, h1, h2.ne_pad.symm, h3.ne_pad.symm]⟩
    · have hgroup : pad ∉ [x0, x1, x2, x3] <-> x3 ≠ pad := by
        rcases hpads with ⟨rfl, rfl⟩ | ⟨h2, -⟩
        · simp
        · simp [h0, h1, h2.ne_pad.symm, eq_comm]
      have hlength := hgrouped.length
      have hpos := length_pos_iff.mpr hrest
      rw [paddedAtEnd_cons_iff (by omega), ih hgrouped, hgroup, PaddedInside]
      simp [hrest]
  | case3 s hnil hcons =>
    rcases s with _ | ⟨x0, _ | ⟨x1, _ | ⟨x2, _ | ⟨x3, rest⟩⟩⟩⟩
    · exact absurd rfl hnil
    iterate 3 exact h.elim
    exact absurd rfl (hcons x0 x1 x2 x3 rest)

theorem decode_ok_iff (s : List Byte) : (exists out, decode s = .ok out) <-> Grouped s := by
  rw [decode]
  split_ifs with hs
  · exact iff_of_false (by simp) fun h => hs h.length
  · exact decodeFrom_ok_iff 0 s (not_not.mp hs)

/-- What is encoded is decoded, and a text with padding inside is decoded exactly if all of its
groups are well formed. -/
theorem decode_spec (data s : List Byte) :
    decode (encode data) = .ok data ∧
      (((exists out, decode s = .ok out) -> PaddedAtEnd s) <-> ¬ (Grouped s ∧ PaddedInside s)) := by
  constructor
  · rw [decode, if_neg (not_not.mpr (length_encode data)), decodeFrom_encode]
  · rw [decode_ok_iff, not_and]
    exact forall_congr' fun h => h.paddedAtEnd_iff

/-- Two padded groups. -/
theorem padding_inside_decoded :
    decode (utf8 "Zg==Zg==") = .ok (utf8 "ff") ∧ ¬ PaddedAtEnd (utf8 "Zg==Zg==") := by
  have htext : utf8 "Zg==Zg==" = [90, 103, pad, pad, 90, 103, pad, pad] := by decide +kernel
  refine ⟨by decide +kernel, fun h => ?_⟩
  rw [htext] at h
  exact ((paddedAtEnd_cons_iff (by decide)).mp h).1 (by decide)

end Base64
end FrpRs
