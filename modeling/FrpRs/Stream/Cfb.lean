import FrpRs.Data.Bytes
import Mathlib.Data.List.GetD
import Mathlib.Data.List.TakeDrop

/-!
# Cipher feedback

`CfbState` in `frp-core/src/cipher_stream.rs`: cipher feedback with the full block of sixteen
bytes.  The block cipher under the stream's key is a parameter.

The mode is defined block by block.  The source keeps a feedback register and a position in
the current keystream block, so that a text may be encrypted in pieces of any length; what the
pieces give is the encryption of the whole.
-/

namespace FrpRs
namespace Stream

open Bytes

abbrev Block := Vector Byte 16

def blockOf (text : List Byte) : Block :=
  Vector.ofFn fun i => text.getD i 0

open List

def xorBytes (xs ys : List Byte) : List Byte :=
  zipWith (fun x y => x ^^^ y) xs ys

/-- Every block is masked with the encryption of the ciphertext block before it; the last one
may be short. -/
def cfbFrom (encryptBlock : Block -> Block) : Nat -> Block -> List Byte -> List Byte
  | 0, _, _ => []
  | fuel + 1, previous, text =>
    let block := xorBytes (text.take 16) (encryptBlock previous).toList
    if text.length ≤ 16 then block
    else block ++ cfbFrom encryptBlock fuel (blockOf block) (text.drop 16)

def cfb128 (encryptBlock : Block -> Block) (iv : Block) (text : List Byte) : List Byte :=
  cfbFrom encryptBlock (text.length + 1) iv text

structure CfbState where
  feedback : Block
  keystream : Block
  used : Nat
deriving DecidableEq, Repr

namespace CfbState

def new (encryptBlock : Block -> Block) (iv : Block) : CfbState where
  feedback := iv
  keystream := encryptBlock iv
  used := 0

def refill (encryptBlock : Block -> Block) (s : CfbState) : CfbState where
  feedback := s.feedback
  keystream := encryptBlock s.feedback
  used := 0

def encryptBytes : CfbState -> List Byte -> List Byte × CfbState
  | s, [] => ([], s)
  | s, b :: bs =>
    let c := b ^^^ s.keystream.toList.getD s.used 0
    let r := encryptBytes
      { s with feedback := s.feedback.setIfInBounds s.used c, used := s.used + 1 } bs
    (c :: r.1, r.2)

def encryptFrom (encryptBlock : Block -> Block) :
    Nat -> CfbState -> List Byte -> List Byte × CfbState
  | 0, s, _ => ([], s)
  | fuel + 1, s, data =>
    if data = [] then ([], s)
    else
      let s := if 16 ≤ s.used then s.refill encryptBlock else s
      if s.used = 0 ∧ 16 ≤ data.length then
        let block := xorBytes s.keystream.toList (data.take 16)
        let r := encryptFrom encryptBlock fuel
          { s with feedback := blockOf block, used := 16 } (data.drop 16)
        (block ++ r.1, r.2)
      else
        let take := min (16 - s.used) data.length
        let r := s.encryptBytes (data.take take)
        let r' := encryptFrom encryptBlock fuel r.2 (data.drop take)
        (r.1 ++ r'.1, r'.2)

def encrypt (encryptBlock : Block -> Block) (s : CfbState) (data : List Byte) :
    List Byte × CfbState :=
  encryptFrom encryptBlock data.length s data

end CfbState

/-!
## Byte by byte
-/

theorem xorBytes_comm (xs ys : List Byte) : xorBytes xs ys = xorBytes ys xs :=
  zipWith_comm_of_comm fun x y => UInt8.xor_comm x y

variable {text : List Byte}

theorem toList_blockOf (h : text.length = 16) :
    (blockOf text).toList = text := by
  apply ext_getElem
  · rw [Vector.length_toList, h]
  · intro i hi hi'
    rw [Vector.getElem_toList]
    unfold blockOf
    rw [Vector.getElem_ofFn, getD_eq_getElem text 0 hi']

/-- The ciphertext block before the current one, and the ciphertext of the current one. -/
structure Chain where
  previous : Block
  current : List Byte

namespace Chain

def next (c : Chain) : Chain :=
  if 16 ≤ c.current.length then ⟨blockOf c.current, []⟩ else c

def run (encryptBlock : Block -> Block) : Chain -> List Byte -> List Byte × Chain
  | c, [] => ([], c)
  | c, b :: bs =>
    let x := b ^^^ (encryptBlock c.next.previous).toList.getD c.next.current.length 0
    let r := run encryptBlock ⟨c.next.previous, c.next.current ++ [x]⟩ bs
    (x :: r.1, r.2)

variable {encryptBlock : Block -> Block}

theorem run_append (c : Chain) (text text' : List Byte) :
    run encryptBlock c (text ++ text') =
      ((run encryptBlock c text).1 ++ (run encryptBlock (run encryptBlock c text).2 text').1,
        (run encryptBlock (run encryptBlock c text).2 text').2) := by
  induction text generalizing c with
  | nil =>
    rfl
  | cons b text ih =>
    rw [cons_append, run, run, ih]
    rfl

theorem next_of_lt {c : Chain} (h : c.current.length < 16) : c.next = c := by
  rw [next, if_neg (by omega)]

theorem next_of_full {c : Chain} (h : 16 ≤ c.current.length) :
    c.next = ⟨blockOf c.current, []⟩ := by
  rw [next, if_pos h]

theorem next_next (c : Chain) : c.next.next = c.next := by
  by_cases h : 16 ≤ c.current.length
  · rw [next_of_full h]
    exact next_of_lt (by simp)
  · have hlt : c.current.length < 16 := by omega
    rw [next_of_lt hlt, next_of_lt hlt]

theorem run_next (c : Chain) (h : text ≠ []) :
    run encryptBlock c.next text = run encryptBlock c text := by
  cases text with
  | nil => exact absurd rfl h
  | cons b text => rw [run, run, next_next]

theorem run_short {c : Chain} (h : c.current.length + text.length ≤ 16) :
    run encryptBlock c text =
      (xorBytes text ((encryptBlock c.previous).toList.drop c.current.length),
        ⟨c.previous,
          c.current ++ xorBytes text ((encryptBlock c.previous).toList.drop c.current.length)⟩) := by
  induction text generalizing c with
  | nil =>
    rw [run, xorBytes, zipWith_nil_left, append_nil]
  | cons b text ih =>
    rw [length_cons] at h
    have hlt : c.current.length < 16 := by omega
    have hkey : c.current.length < (encryptBlock c.previous).toList.length := by
      rw [Vector.length_toList]
      exact hlt
    have hlength : (c.current ++
        [b ^^^ (encryptBlock c.previous).toList.getD c.current.length 0]).length =
        c.current.length + 1 := by
      rw [length_append, length_singleton]
    rw [run, next_of_lt hlt, ih (by rw [hlength]; omega)]
    rw [hlength, drop_eq_getElem_cons hkey, xorBytes, xorBytes, zipWith_cons_cons,
      getD_eq_getElem _ _ hkey]
    simp

theorem cfbFrom_eq_run {fuel : Nat} {previous : Block} (h : text.length < fuel) :
    cfbFrom encryptBlock fuel previous text = (run encryptBlock ⟨previous, []⟩ text).1 := by
  induction fuel generalizing previous text with
  | zero => omega
  | succ fuel ih =>
    have hfirst : run encryptBlock ⟨previous, []⟩ (text.take 16) =
        (xorBytes (text.take 16) (encryptBlock previous).toList,
          ⟨previous, xorBytes (text.take 16) (encryptBlock previous).toList⟩) := by
      rw [run_short (by simp)]
      rfl
    rw [cfbFrom]
    by_cases hshort : text.length ≤ 16
    · rw [if_pos hshort]
      rw [take_of_length_le hshort] at hfirst ⊢
      rw [hfirst]
    · rw [if_neg hshort]
      have hblock : (xorBytes (text.take 16) (encryptBlock previous).toList).length = 16 := by
        rw [xorBytes, length_zipWith, Vector.length_toList, length_take]
        omega
      have hrest : text.drop 16 ≠ [] := by
        intro hnil
        have hlength := congrArg length hnil
        rw [length_drop, length_nil] at hlength
        omega
      conv_rhs => rw [← take_append_drop 16 text]
      rw [run_append, hfirst, ← run_next _ hrest,
        next_of_full (by simp only [hblock]; exact Nat.le_refl 16), ih (by rw [length_drop]; omega)]

theorem cfb128_eq_run (iv : Block) (text : List Byte) :
    cfb128 encryptBlock iv text = (run encryptBlock ⟨iv, []⟩ text).1 :=
  cfbFrom_eq_run (Nat.lt_succ_self _)

end Chain

/-!
## The register
-/

namespace CfbState

variable {encryptBlock : Block -> Block}

/-- The register holds the ciphertext of the current block over the block before it. -/
structure Follows (encryptBlock : Block -> Block) (s : CfbState) (c : Chain) : Prop where
  keystream : s.keystream = encryptBlock c.previous
  used : s.used = c.current.length
  short : c.current.length ≤ 16
  feedback : s.feedback.toList = c.current ++ c.previous.toList.drop c.current.length

theorem Follows.new (iv : Block) : Follows encryptBlock (new encryptBlock iv) ⟨iv, []⟩ where
  keystream := rfl
  used := rfl
  short := Nat.zero_le 16
  feedback := rfl

theorem Follows.refill {s : CfbState} {c : Chain} (h : Follows encryptBlock s c) :
    Follows encryptBlock (if 16 ≤ s.used then s.refill encryptBlock else s) c.next := by
  by_cases hfull : 16 ≤ s.used
  · have hlength : c.current.length = 16 := Nat.le_antisymm h.short (h.used ▸ hfull)
    have hblock : s.feedback = blockOf c.current := by
      apply Vector.toList_inj.mp
      rw [h.feedback, toList_blockOf hlength, hlength, drop_of_length_le, append_nil]
      rw [Vector.length_toList]
    rw [if_pos hfull, Chain.next_of_full (h.used ▸ hfull)]
    constructor
    · exact congrArg encryptBlock hblock
    · rfl
    · exact Nat.zero_le 16
    · change s.feedback.toList = _
      rw [hblock, length_nil, drop_zero, nil_append]
  · rw [if_neg hfull, Chain.next_of_lt (by rw [← h.used]; omega)]
    exact h

theorem encryptBytes_run {s : CfbState} {c : Chain} (h : Follows encryptBlock s c)
    {data : List Byte} (hdata : c.current.length + data.length ≤ 16) :
    (s.encryptBytes data).1 = (c.run encryptBlock data).1 ∧
      Follows encryptBlock (s.encryptBytes data).2 (c.run encryptBlock data).2 := by
  induction data generalizing s c with
  | nil => exact ⟨rfl, h⟩
  | cons b data ih =>
    rw [length_cons] at hdata
    have hlt : c.current.length < 16 := by omega
    rw [encryptBytes, Chain.run, Chain.next_of_lt hlt, h.keystream, h.used]
    generalize b ^^^ (encryptBlock c.previous).toList.getD c.current.length 0 = x
    have hlength : (c.current ++ [x]).length = c.current.length + 1 := by
      rw [length_append, length_singleton]
    have hnext : Follows encryptBlock
        { s with
          keystream := encryptBlock c.previous
          feedback := s.feedback.setIfInBounds c.current.length x
          used := c.current.length + 1 } ⟨c.previous, c.current ++ [x]⟩ := by
      refine ⟨rfl, hlength.symm, ?_, ?_⟩
      · rw [hlength]
        omega
      · have hdrop : c.previous.toList.drop c.current.length =
            c.previous.toList.get ⟨c.current.length, by rw [Vector.length_toList]; exact hlt⟩ ::
              c.previous.toList.drop (c.current.length + 1) :=
          drop_eq_getElem_cons _
        rw [Vector.toList_setIfInBounds, h.feedback, hlength, hdrop,
          set_append_right _ _ (Nat.le_refl _), Nat.sub_self, set_cons_zero]
        simp
    obtain ⟨hout, hfollows⟩ := ih hnext (by dsimp only; rw [hlength]; omega)
    exact ⟨by rw [hout], hfollows⟩

theorem encryptFrom_run {fuel : Nat} {s : CfbState} {c : Chain} (h : Follows encryptBlock s c)
    {data : List Byte} (hfuel : data.length ≤ fuel) :
    (encryptFrom encryptBlock fuel s data).1 = (c.run encryptBlock data).1 ∧
      Follows encryptBlock (encryptFrom encryptBlock fuel s data).2
        (c.run encryptBlock data).2 := by
  induction fuel generalizing s c data with
  | zero =>
    rw [eq_nil_of_length_eq_zero (Nat.le_zero.mp hfuel)]
    exact ⟨rfl, h⟩
  | succ fuel ih =>
    rw [encryptFrom]
    by_cases hnil : data = []
    · rw [if_pos hnil, hnil]
      exact ⟨rfl, h⟩
    · rw [if_neg hnil, ← Chain.run_next c hnil]
      have hready := h.refill
      generalize (if 16 ≤ s.used then s.refill encryptBlock else s) = s at hready ⊢
      have hroom : c.next.current.length < 16 := by
        by_cases hfull : 16 ≤ c.current.length
        · rw [Chain.next_of_full hfull]
          exact Nat.zero_lt_succ 15
        · rw [Chain.next_of_lt (by omega)]
          omega
      generalize c.next = c at hready hroom ⊢
      dsimp only
      by_cases hfast : s.used = 0 ∧ 16 ≤ data.length
      · obtain ⟨hzero, hlong⟩ := hfast
        have hcurrent : c.current = [] :=
          eq_nil_of_length_eq_zero (by rw [← hready.used, hzero])
        have hlength : (xorBytes s.keystream.toList (data.take 16)).length = 16 := by
          rw [xorBytes, length_zipWith, Vector.length_toList, length_take]
          omega
        have hfirst : c.run encryptBlock (data.take 16) =
            (xorBytes s.keystream.toList (data.take 16),
              ⟨c.previous, xorBytes s.keystream.toList (data.take 16)⟩) := by
          rw [Chain.run_short (by rw [hcurrent]; simp), hcurrent, hready.keystream, xorBytes_comm]
          rfl
        have hblock : Follows encryptBlock
            { s with feedback := blockOf (xorBytes s.keystream.toList (data.take 16))
                     used := 16 }
            ⟨c.previous, xorBytes s.keystream.toList (data.take 16)⟩ := by
          refine ⟨hready.keystream, hlength.symm, Nat.le_of_eq hlength, ?_⟩
          rw [toList_blockOf hlength, hlength, drop_of_length_le, append_nil]
          rw [Vector.length_toList]
        rw [if_pos ⟨hzero, hlong⟩]
        obtain ⟨hout, hfollows⟩ := @ih _ _ hblock (data.drop 16) (by rw [length_drop]; omega)
        conv =>
          congr
          · rhs
            rw [← take_append_drop 16 data]
          · rhs
            rw [← take_append_drop 16 data]
        rw [Chain.run_append, hfirst]
        exact ⟨by rw [hout], hfollows⟩
      · rw [if_neg hfast]
        generalize htake : min (16 - s.used) data.length = take
        have hused := hready.used
        have htaken : c.current.length + (data.take take).length ≤ 16 := by
          rw [length_take]
          omega
        obtain ⟨hout, hfollows⟩ := encryptBytes_run hready htaken
        obtain ⟨hout', hfollows'⟩ :=
          @ih _ _ hfollows (data.drop take) (by rw [length_drop]; omega)
        conv =>
          congr
          · rhs
            rw [← take_append_drop take data]
          · rhs
            rw [← take_append_drop take data]
        rw [Chain.run_append]
        exact ⟨by rw [hout, hout'], hfollows'⟩

end CfbState

theorem cfb128_initial (encryptBlock : Block -> Block) (iv : Block) (text text' : List Byte) :
    cfb128 encryptBlock iv text <+: cfb128 encryptBlock iv (text ++ text') := by
  rw [Chain.cfb128_eq_run, Chain.cfb128_eq_run, Chain.run_append]
  exact prefix_append _ _

theorem length_run (encryptBlock : Block -> Block) (c : Chain) (text : List Byte) :
    (c.run encryptBlock text).1.length = text.length := by
  induction text generalizing c with
  | nil =>
    rfl
  | cons b text ih =>
    rw [Chain.run, length_cons, length_cons, ih]

def CfbState.After (encryptBlock : Block -> Block) (iv : Block) (text : List Byte)
    (s : CfbState) : Prop :=
  CfbState.Follows encryptBlock s (Chain.run encryptBlock ⟨iv, []⟩ text).2

theorem CfbState.after_new (encryptBlock : Block -> Block) (iv : Block) :
    CfbState.After encryptBlock iv [] (CfbState.new encryptBlock iv) :=
  CfbState.Follows.new iv

theorem CfbState.encrypt_after {encryptBlock : Block -> Block} {iv : Block} {s : CfbState}
    (h : CfbState.After encryptBlock iv text s) (data : List Byte) :
    cfb128 encryptBlock iv (text ++ data) =
        cfb128 encryptBlock iv text ++ (s.encrypt encryptBlock data).1 ∧
      (s.encrypt encryptBlock data).1.length = data.length ∧
      CfbState.After encryptBlock iv (text ++ data) (s.encrypt encryptBlock data).2 := by
  obtain ⟨hout, hfollows⟩ := CfbState.encryptFrom_run h (Nat.le_refl data.length)
  rw [Chain.cfb128_eq_run, Chain.cfb128_eq_run, CfbState.After, Chain.run_append,
    CfbState.encrypt]
  exact ⟨by rw [hout], by rw [hout, length_run], hfollows⟩

end Stream
end FrpRs
