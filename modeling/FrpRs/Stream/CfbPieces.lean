import FrpRs.Stream.Cfb

/-!
# Cipher feedback in pieces

Decryption by `CfbState` in `frp-core/src/cipher_stream.rs`.  A text is encrypted in pieces cut
anywhere, and the ciphertext decrypted in pieces cut anywhere else.
-/

namespace FrpRs
namespace Stream

open List Bytes

/-- The mode byte by byte: every byte is masked with the byte of the keystream at its place, and
the ciphertext of a full block makes the next keystream. -/
def cfbBytewise (encryptBlock : Block -> Block) (iv : Block) (text : List Byte) : List Byte :=
  (Chain.run encryptBlock ⟨iv, []⟩ text).1

namespace CfbState

def decryptBytes : CfbState -> List Byte -> List Byte × CfbState
  | s, [] => ([], s)
  | s, ct :: bs =>
    let r := decryptBytes
      { s with feedback := s.feedback.setIfInBounds s.used ct, used := s.used + 1 } bs
    ((ct ^^^ s.keystream.toList.getD s.used 0) :: r.1, r.2)

def decryptFrom (encryptBlock : Block -> Block) :
    Nat -> CfbState -> List Byte -> List Byte × CfbState
  | 0, s, _ => ([], s)
  | fuel + 1, s, data =>
    if data = [] then ([], s)
    else
      let s := if 16 ≤ s.used then s.refill encryptBlock else s
      if s.used = 0 ∧ 16 ≤ data.length then
        let block := xorBytes s.keystream.toList (data.take 16)
        let r := decryptFrom encryptBlock fuel
          { s with feedback := blockOf (data.take 16), used := 16 } (data.drop 16)
        (block ++ r.1, r.2)
      else
        let take := min (16 - s.used) data.length
        let r := s.decryptBytes (data.take take)
        let r' := decryptFrom encryptBlock fuel r.2 (data.drop take)
        (r.1 ++ r'.1, r'.2)

def decrypt (encryptBlock : Block -> Block) (s : CfbState) (data : List Byte) :
    List Byte × CfbState :=
  decryptFrom encryptBlock data.length s data

def inPieces (call : CfbState -> List Byte -> List Byte × CfbState) :
    CfbState -> List (List Byte) -> List Byte × CfbState
  | s, [] => ([], s)
  | s, piece :: pieces =>
    let r := call s piece
    let r' := inPieces call r.2 pieces
    (r.1 ++ r'.1, r'.2)

/-!
## What was decrypted encrypts to what was given
-/

theorem xor_xor (a k : Byte) : a ^^^ k ^^^ k = a := by
  rw [UInt8.xor_assoc, UInt8.xor_self, UInt8.xor_zero]

theorem length_decryptBytes (s : CfbState) (data : List Byte) :
    (s.decryptBytes data).1.length = data.length := by
  induction data generalizing s with
  | nil => rfl
  | cons b data ih => rw [decryptBytes, length_cons, length_cons, ih]

theorem encryptBytes_decryptBytes (s : CfbState) (data : List Byte) :
    s.encryptBytes (s.decryptBytes data).1 = (data, (s.decryptBytes data).2) := by
  induction data generalizing s with
  | nil => rfl
  | cons b data ih =>
    rw [decryptBytes, encryptBytes]
    rw [xor_xor, ih]

theorem xorBytes_xorBytes {xs ys : List Byte} (h : xs.length = ys.length) :
    xorBytes xs (xorBytes xs ys) = ys := by
  induction xs generalizing ys with
  | nil => exact (eq_nil_of_length_eq_zero h.symm).symm
  | cons x xs ih =>
    cases ys with
    | nil => cases h
    | cons y ys =>
      have hrest := ih (Nat.succ.inj h)
      rw [xorBytes, xorBytes] at hrest ⊢
      rw [zipWith_cons_cons, zipWith_cons_cons, hrest, UInt8.xor_comm x,
        UInt8.xor_comm x, xor_xor]

variable {encryptBlock : Block -> Block}

theorem refilled_used (s : CfbState) :
    (if 16 ≤ s.used then s.refill encryptBlock else s).used < 16 := by
  split
  · exact Nat.zero_lt_succ 15
  · rename_i hroom
    exact Nat.lt_of_not_le hroom

/-- Both loops go the same way: they cut by lengths, and the register gets the same bytes. -/
theorem encryptFrom_decryptFrom {fuel : Nat} (s : CfbState) {data : List Byte}
    (h : data.length ≤ fuel) :
    (decryptFrom encryptBlock fuel s data).1.length = data.length ∧
      encryptFrom encryptBlock fuel s (decryptFrom encryptBlock fuel s data).1 =
        (data, (decryptFrom encryptBlock fuel s data).2) := by
  induction fuel generalizing s data with
  | zero =>
    rw [eq_nil_of_length_eq_zero (Nat.le_zero.mp h)]
    exact ⟨rfl, rfl⟩
  | succ fuel ih =>
    rw [decryptFrom, encryptFrom]
    by_cases hnil : data = []
    · rw [if_pos hnil, hnil]
      exact ⟨rfl, rfl⟩
    · have hpos := length_pos_iff.mpr hnil
      rw [if_neg hnil]
      have hused := @refilled_used encryptBlock s
      generalize (if 16 ≤ s.used then s.refill encryptBlock else s) = s at hused
      dsimp only
      by_cases hfast : s.used = 0 ∧ 16 ≤ data.length
      · rw [if_pos hfast]
        have htake : (data.take 16).length = 16 := by
          rw [length_take]
          omega
        have hblock : (xorBytes s.keystream.toList (data.take 16)).length = 16 := by
          rw [xorBytes, length_zipWith, Vector.length_toList, htake]
          rfl
        have hback : xorBytes s.keystream.toList
            (xorBytes s.keystream.toList (data.take 16)) = data.take 16 :=
          xorBytes_xorBytes (by rw [Vector.length_toList, htake])
        rcases ih { s with feedback := blockOf (data.take 16), used := 16 }
          (by rw [length_drop]; omega : (data.drop 16).length ≤ fuel) with ⟨hlength, hrest⟩
        generalize decryptFrom encryptBlock fuel
          { s with feedback := blockOf (data.take 16), used := 16 } (data.drop 16) = r
          at hlength hrest ⊢
        have hall : (xorBytes s.keystream.toList (data.take 16) ++ r.1).length =
            data.length := by
          rw [length_append, hblock, hlength, length_drop]
          omega
        refine ⟨hall, ?_⟩
        rw [if_neg (length_pos_iff.mp (hall ▸ hpos)),
          if_pos ⟨hfast.1, by rw [hall]; exact hfast.2⟩, take_left' hblock,
          drop_left' hblock, hback, hrest, take_append_drop]
      · rw [if_neg hfast]
        generalize htake : min (16 - s.used) data.length = take
        have htaken : (data.take take).length = take := by
          rw [length_take]
          omega
        have hfirst := length_decryptBytes s (data.take take)
        rw [htaken] at hfirst
        have hback := encryptBytes_decryptBytes s (data.take take)
        generalize s.decryptBytes (data.take take) = r at hfirst hback ⊢
        rcases ih r.2 (by rw [length_drop]; omega : (data.drop take).length ≤ fuel) with
          ⟨hlength, hrest⟩
        generalize decryptFrom encryptBlock fuel r.2 (data.drop take) = r' at hlength hrest ⊢
        have hall : (r.1 ++ r'.1).length = data.length := by
          rw [length_append, hfirst, hlength, length_drop]
          omega
        refine ⟨hall, ?_⟩
        rw [if_neg (length_pos_iff.mp (hall ▸ hpos)),
          if_neg (fun habs => hfast ⟨habs.1, by rw [<- hall]; exact habs.2⟩), hall, htake,
          take_left' hfirst, drop_left' hfirst, hback]
        rw [hrest, take_append_drop]

/-!
## Pieces
-/

theorem encryptPieces_run {s : CfbState} {c : Chain} (h : Follows encryptBlock s c)
    (pieces : List (List Byte)) :
    (inPieces (encrypt encryptBlock) s pieces).1 = (c.run encryptBlock pieces.flatten).1 := by
  induction pieces generalizing s c with
  | nil => rfl
  | cons piece pieces ih =>
    rcases encryptFrom_run h (Nat.le_refl piece.length) with ⟨hout, hfollows⟩
    change (encrypt encryptBlock s piece).1 = _ at hout
    change Follows encryptBlock (encrypt encryptBlock s piece).2 _ at hfollows
    rw [inPieces, flatten_cons, Chain.run_append]
    rw [ih hfollows, hout]

theorem decryptPieces_run {s : CfbState} {c : Chain} (h : Follows encryptBlock s c)
    (pieces : List (List Byte)) :
    (c.run encryptBlock (inPieces (decrypt encryptBlock) s pieces).1).1 = pieces.flatten := by
  induction pieces generalizing s c with
  | nil => rfl
  | cons piece pieces ih =>
    rcases @encryptFrom_decryptFrom encryptBlock _ s _ (Nat.le_refl piece.length) with
      ⟨hlength, hback⟩
    rcases @encryptFrom_run encryptBlock piece.length s c h (decrypt encryptBlock s piece).1
      (Nat.le_of_eq hlength) with ⟨hout, hfollows⟩
    change encryptFrom encryptBlock piece.length s (decrypt encryptBlock s piece).1 =
      (piece, (decrypt encryptBlock s piece).2) at hback
    rw [hback] at hout hfollows
    rw [inPieces, flatten_cons, Chain.run_append]
    rw [<- hout, ih hfollows]

end CfbState

theorem Chain.run_inj {encryptBlock : Block -> Block} {c : Chain} {text text' : List Byte}
    (h : (c.run encryptBlock text).1 = (c.run encryptBlock text').1) : text = text' := by
  induction text generalizing c text' with
  | nil =>
    cases text' with
    | nil => rfl
    | cons b text' => cases h
  | cons b text ih =>
    cases text' with
    | nil => cases h
    | cons b' text' =>
      rw [Chain.run, Chain.run] at h
      rw [cons.injEq] at h
      rcases h with ⟨hhead, hrest⟩
      have hsame : b = b' := by
        have hxor := congrArg
          (· ^^^ (encryptBlock c.next.previous).toList.getD c.next.current.length 0) hhead
        rw [CfbState.xor_xor, CfbState.xor_xor] at hxor
        exact hxor
      rw [hsame] at hrest ⊢
      rw [ih hrest]

/-- Wherever the text and the ciphertext are cut, the pieces encrypt to the mode byte by byte and
decrypt to the text. -/
theorem cfb_pieces (encryptBlock : Block -> Block) (iv : Block) (pieces : List (List Byte)) :
    (CfbState.inPieces (CfbState.encrypt encryptBlock) (CfbState.new encryptBlock iv) pieces).1 =
        cfbBytewise encryptBlock iv pieces.flatten ∧
      forall pieces' : List (List Byte),
        pieces'.flatten = (CfbState.inPieces (CfbState.encrypt encryptBlock)
          (CfbState.new encryptBlock iv) pieces).1 ->
        (CfbState.inPieces (CfbState.decrypt encryptBlock) (CfbState.new encryptBlock iv)
          pieces').1 = pieces.flatten := by
  have hnew := @CfbState.Follows.new encryptBlock iv
  refine ⟨CfbState.encryptPieces_run hnew pieces, ?_⟩
  intro pieces' hcut
  apply @Chain.run_inj encryptBlock ⟨iv, []⟩
  rw [CfbState.decryptPieces_run hnew, hcut, CfbState.encryptPieces_run hnew]

end Stream
end FrpRs
