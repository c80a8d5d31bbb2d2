import FrpRs.Data.Bytes
import Mathlib.Data.List.Induction
import Mathlib.Tactic.Ring

/-!
# CONNECT-UDP capsules

The receive side of `udp_connect` in `frp-client/src/plugin/http2connect.rs`: capsules of RFC 9297
arrive in DATA chunks, and the payloads of DATAGRAM capsules with Context ID 0 go to the socket.
-/

namespace FrpRs
namespace Client
namespace Capsules

open List Bytes

/-!
## Variable-length integers
-/

def encodeVarint (value : Nat) : List Byte :=
  if value < 64 then [UInt8.ofNat value]
  else if value < 16384 then [(0x40 : Byte) ||| UInt8.ofNat (value >>> 8), UInt8.ofNat value]
  else if value < 1 <<< 30 then
    [(0x80 : Byte) ||| UInt8.ofNat (value >>> 24), UInt8.ofNat (value >>> 16), UInt8.ofNat (value >>> 8),
      UInt8.ofNat value]
  else
    ((0xC0 : Byte) ||| (UInt8.ofNat (value >>> 56) &&& 0x3f)) ::
      [48, 40, 32, 24, 16, 8, 0].map fun shift => UInt8.ofNat (value >>> shift)

def decodeVarint (buf : List Byte) : Option (Nat × Nat) :=
  match buf with
  | [] => none
  | first :: rest =>
    let len := 1 <<< (first >>> 6).toNat
    if buf.length < len then none
    else
      some ((rest.take (len - 1)).foldl (fun value byte => (value <<< 8) ||| byte.toNat)
        (first &&& 0x3f).toNat, len)

/-- The largest value, plus one, that `2 ^ form` bytes hold beside the two bits of the form. -/
def varintLimit (form : Nat) : Nat :=
  64 * 256 ^ (2 ^ form - 1)

/-- RFC 9000, section 16: a value in `2 ^ form` bytes, the form in the two upper bits. -/
def varint (form value : Nat) : List Byte :=
  UInt8.ofNat (64 * form + value / 256 ^ (2 ^ form - 1)) :: beBytes (2 ^ form - 1) value

theorem length_varint (form value : Nat) : (varint form value).length = 2 ^ form := by
  have hpos := Nat.two_pow_pos form
  rw [varint, length_cons, beBytes_length]
  omega

theorem foldl_bytes (init : Nat) (bs : List Byte) :
    bs.foldl (fun value byte => (value <<< 8) ||| byte.toNat) init =
      init * 256 ^ bs.length + ofBeBytes bs := by
  induction bs using reverseRecOn with
  | nil => simp [ofBeBytes, ofLeBytes]
  | append_singleton bs b ih =>
    have hb : b.toNat < 2 ^ 8 := b.toNat_lt
    rw [foldl_append, foldl_cons, foldl_nil, ih,
      ← Nat.shiftLeft_add_eq_or_of_lt hb, Nat.shiftLeft_eq, length_append, length_singleton,
      Nat.pow_succ]
    simp only [ofBeBytes, reverse_append, reverse_cons, reverse_nil, nil_append,
      cons_append, ofLeBytes]
    ring

theorem first_byte {form x : Nat} (hform : form < 4) (hx : x < 64) :
    (UInt8.ofNat (64 * form + x) >>> 6).toNat = form ∧
      (UInt8.ofNat (64 * form + x) &&& 0x3f).toNat = x := by
  have hall : forall f : Fin 4, forall x : Fin 64,
      (UInt8.ofNat (64 * f.val + x.val) >>> 6).toNat = f.val ∧
        (UInt8.ofNat (64 * f.val + x.val) &&& 0x3f).toNat = x.val := by decide +kernel
  exact hall ⟨form, hform⟩ ⟨x, hx⟩

/-- Only the bytes of the integer are read; with fewer of them the answer waits. -/
theorem decodeVarint_eq {form value : Nat} (hform : form < 4) (hvalue : value < varintLimit form)
    {data rest more : List Byte} (h : data ++ rest = varint form value ++ more) :
    decodeVarint data = if data.length < 2 ^ form then none else some (value, 2 ^ form) := by
  have hpos := Nat.two_pow_pos form
  cases data with
  | nil =>
    rw [if_pos (show [].length < 2 ^ form from hpos)]
    rfl
  | cons first tail =>
    rw [varint, cons_append, cons_append, cons.injEq] at h
    obtain ⟨rfl, htail⟩ := h
    have hx : value / 256 ^ (2 ^ form - 1) < 64 := by
      rw [Nat.div_lt_iff_lt_mul (Nat.pow_pos (by decide))]
      exact hvalue
    obtain ⟨hshift, hmask⟩ := first_byte hform hx
    rw [decodeVarint]
    simp only [hshift, hmask, Nat.one_shiftLeft]
    split_ifs with hshort
    · rfl
    · have htake : tail.take (2 ^ form - 1) = beBytes (2 ^ form - 1) value := by
        rw [← take_append_drop (2 ^ form - 1) tail, append_assoc] at htail
        refine (append_inj htail ?_).1
        rw [length_take, beBytes_length]
        rw [length_cons] at hshort
        omega
      rw [htake, foldl_bytes, beBytes_length, ofBeBytes_beBytes, Nat.mul_comm, Nat.div_add_mod]

theorem encodeVarint_eq_varint {value : Nat} (h : value < 2 ^ 62) :
    exists form, form < 4 ∧ value < varintLimit form ∧ encodeVarint value = varint form value := by
  have hor {form x : Nat} (hform : form < 4) (hx : x < 64) :
      UInt8.ofNat (64 * form) ||| UInt8.ofNat x = UInt8.ofNat (64 * form + x) := by
    have hall : forall f : Fin 4, forall x : Fin 64, UInt8.ofNat (64 * f.val) ||| UInt8.ofNat x.val =
        UInt8.ofNat (64 * f.val + x.val) := by decide +kernel
    exact hall ⟨form, hform⟩ ⟨x, hx⟩
  rw [encodeVarint]
  split_ifs with h6 h14 h30
  · exact ⟨0, by decide, h6, by simp [varint, beBytes, leBytes]⟩
  · refine ⟨1, by decide, h14, ?_⟩
    rw [show (0x40 : Byte) = UInt8.ofNat (64 * 1) from rfl,
      hor (by decide) (by rw [Nat.shiftRight_eq_div_pow]; omega)]
    simp [varint, beBytes, leBytes, Nat.shiftRight_eq_div_pow]
  · refine ⟨2, by decide, h30, ?_⟩
    rw [show (0x80 : Byte) = UInt8.ofNat (64 * 2) from rfl,
      hor (by decide) (by rw [Nat.shiftRight_eq_div_pow]; omega)]
    simp [varint, beBytes, leBytes, Nat.shiftRight_eq_div_pow, Nat.div_div_eq_div_mul]
  · refine ⟨3, by decide, h, ?_⟩
    have hsmall : value >>> 56 < 64 := by
      rw [Nat.shiftRight_eq_div_pow]
      omega
    have hmask : UInt8.ofNat (value >>> 56) &&& (0x3f : Byte) = UInt8.ofNat (value >>> 56) := by
      have hall : forall x : Fin 64, UInt8.ofNat x.val &&& (0x3f : Byte) = UInt8.ofNat x.val := by
        decide +kernel
      exact hall ⟨_, hsmall⟩
    rw [hmask, show (0xC0 : Byte) = UInt8.ofNat (64 * 3) from rfl, hor (by decide) hsmall]
    simp [varint, beBytes, leBytes, Nat.shiftRight_eq_div_pow, Nat.div_div_eq_div_mul]

theorem decodeVarint_encodeVarint {value : Nat} (h : value < 2 ^ 62) (rest : List Byte) :
    decodeVarint (encodeVarint value ++ rest) = some (value, (encodeVarint value).length) := by
  obtain ⟨form, hform, hlimit, heq⟩ := encodeVarint_eq_varint h
  have hdata : encodeVarint value ++ rest ++ [] = varint form value ++ rest := by
    rw [heq, append_nil]
  rw [decodeVarint_eq hform hlimit hdata, if_neg, heq, length_varint]
  rw [heq, length_append, length_varint]
  omega

/-!
## The receive loop
-/

def maxCapsule : Nat := 64 * 1024
def maxCapsuleBuffer : Nat := maxCapsule + 16
def capsuleDatagram : Nat := 0

inductive CapsuleError where
  | typeExceedsBufferCap
  | lengthExceedsBufferCap
  | lengthExceedsCap (len : Nat)
deriving DecidableEq

/-- The value of the next DATAGRAM capsule and the cursor behind it; `fuel` bounds the capsules of
other types that are skipped on the way. -/
def takeCapsuleAt (buf : List Byte) :
    Nat -> Nat -> Except CapsuleError (Option (List Byte)) × Nat
  | 0, pos => (.ok none, pos)
  | fuel + 1, pos =>
    let data := buf.drop pos
    match decodeVarint data with
    | none =>
      if maxCapsuleBuffer < data.length then (.error .typeExceedsBufferCap, pos) else (.ok none, pos)
    | some (kind, typeLen) =>
      match decodeVarint (data.drop typeLen) with
      | none =>
        if maxCapsuleBuffer < data.length then (.error .lengthExceedsBufferCap, pos)
        else (.ok none, pos)
      | some (len, lenLen) =>
        if maxCapsule < len then (.error (.lengthExceedsCap len), pos)
        else
          let total := typeLen + lenLen + len
          if data.length < total then (.ok none, pos)
          else if kind = capsuleDatagram then
            (.ok (some ((data.drop (typeLen + lenLen)).take len)), pos + total)
          else takeCapsuleAt buf fuel (pos + total)

structure Receiver where
  pending : List Byte
  handed : List (List Byte)
  alive : Bool
deriving DecidableEq

section Loop

-- whether the socket takes the datagram after so many others
variable (sendOk : Nat -> Bool)

/-- The inner loop over the buffer: the cursor, what the socket was handed, and whether the stream
goes on. -/
def drain (buf : List Byte) : Nat -> Nat -> List (List Byte) -> Nat × List (List Byte) × Bool
  | 0, pos, handed => (pos, handed, true)
  | fuel + 1, pos, handed =>
    match takeCapsuleAt buf (buf.length + 1) pos with
    | (.ok none, pos) => (pos, handed, true)
    | (.error _, pos) => (pos, handed, false)
    | (.ok (some value), pos) =>
      match decodeVarint value with
      | none => (pos, handed, false)
      | some (context, ctxLen) =>
        if context ≠ 0 then drain buf fuel pos handed
        else if sendOk handed.length then drain buf fuel pos (handed ++ [value.drop ctxLen])
        else (pos, handed ++ [value.drop ctxLen], false)

def Receiver.receive (s : Receiver) (chunk : List Byte) : Receiver :=
  if s.alive then
    let buf := s.pending ++ chunk
    let (pos, handed, alive) := drain sendOk buf (buf.length + 1) 0 s.handed
    ⟨buf.drop pos, handed, alive⟩
  else s

def receiveAll (chunks : List (List Byte)) : Receiver :=
  chunks.foldl (Receiver.receive sendOk) ⟨[], [], true⟩

end Loop

/-!
## Capsules
-/

structure Capsule where
  typeForm : Nat
  kind : Nat
  lenForm : Nat
  value : List Byte

namespace Capsule

def header (c : Capsule) : List Byte :=
  varint c.typeForm c.kind ++ varint c.lenForm c.value.length

def bytes (c : Capsule) : List Byte :=
  c.header ++ c.value

/-- Both integers fit their forms, and the value is not longer than the client takes. -/
structure Valid (c : Capsule) : Prop where
  typeForm_lt : c.typeForm < 4
  kind_lt : c.kind < varintLimit c.typeForm
  lenForm_lt : c.lenForm < 4
  length_lt : c.value.length < varintLimit c.lenForm
  length_le : c.value.length ≤ maxCapsule

/-- The payload of a DATAGRAM capsule with Context ID 0. -/
def payload (c : Capsule) : Option (List Byte) :=
  if c.kind = capsuleDatagram then
    match decodeVarint c.value with
    | some (0, ctxLen) => some (c.value.drop ctxLen)
    | _ => none
  else none

/-- A DATAGRAM capsule holds a Context ID. -/
def HasContext (c : Capsule) : Prop :=
  c.kind = capsuleDatagram -> decodeVarint c.value ≠ none

end Capsule

section Deliveries

variable (sendOk : Nat -> Bool)

/-- What a stream of whole capsules hands to the socket, and whether the stream goes on. -/
def deliveries (handed : List (List Byte)) : List Capsule -> List (List Byte) × Bool
  | [] => (handed, true)
  | c :: cs =>
    if c.kind = capsuleDatagram ∧ decodeVarint c.value = none then (handed, false)
    else
      match c.payload with
      | none => deliveries handed cs
      | some payload =>
        if sendOk handed.length then deliveries (handed ++ [payload]) cs
        else (handed ++ [payload], false)

end Deliveries

variable {sendOk : Nat -> Bool}

theorem deliveries_append (handed : List (List Byte)) (cs cs' : List Capsule) :
    deliveries sendOk handed (cs ++ cs') =
      if (deliveries sendOk handed cs).2 = true then
        deliveries sendOk (deliveries sendOk handed cs).1 cs'
      else deliveries sendOk handed cs := by
  induction cs generalizing handed with
  | nil => rfl
  | cons c cs ih =>
    rw [cons_append, deliveries, deliveries]
    by_cases hbroken : c.kind = capsuleDatagram ∧ decodeVarint c.value = none
    · simp only [if_pos hbroken, Bool.false_eq_true, if_false]
    · simp only [if_neg hbroken]
      cases c.payload with
      | none => exact ih handed
      | some payload =>
        cases hsend : sendOk handed.length with
        | true => simpa using ih (handed ++ [payload])
        | false => simp

variable {cs : List Capsule}

/-- As long as every datagram has a Context ID and is taken by the socket, every payload is handed
over. -/
theorem deliveries_eq (hcontext : forall c, c ∈ cs -> c.HasContext)
    (hsend : forall n, sendOk n = true) (handed : List (List Byte)) :
    deliveries sendOk handed cs = (handed ++ cs.filterMap Capsule.payload, true) := by
  induction cs generalizing handed with
  | nil => simp [deliveries]
  | cons c cs ih =>
    rw [forall_mem_cons] at hcontext
    rw [deliveries, if_neg fun hbroken => hcontext.1 hbroken.1 hbroken.2, filterMap_cons]
    cases c.payload with
    | none => exact ih hcontext.2 handed
    | some payload => simp [hsend, ih hcontext.2]

/-!
## One capsule
-/

theorem length_capsule (c : Capsule) :
    c.bytes.length = 2 ^ c.typeForm + 2 ^ c.lenForm + c.value.length := by
  rw [Capsule.bytes, Capsule.header, length_append, length_append, length_varint,
    length_varint]

theorem drop_append_eq {data rest a b : List Byte} (h : data ++ rest = a ++ b)
    (hle : a.length ≤ data.length) : data.drop a.length ++ rest = b := by
  have hdrop := congrArg (drop a.length) h
  rwa [drop_append_of_le_length hle, drop_left] at hdrop

theorem two_pow_form_le {form : Nat} (h : form < 4) : 2 ^ form ≤ 8 :=
  Nat.pow_le_pow_right (by decide) (show form ≤ 3 by omega)

/-- The next capsule is taken or skipped once all of its bytes are there. -/
theorem takeCapsuleAt_eq {c : Capsule} (hc : c.Valid) {buf rest more : List Byte} {pos : Nat}
    (h : buf.drop pos ++ rest = c.bytes ++ more) (fuel : Nat) :
    takeCapsuleAt buf (fuel + 1) pos =
      if (buf.drop pos).length < c.bytes.length then (.ok none, pos)
      else if c.kind = capsuleDatagram then (.ok (some c.value), pos + c.bytes.length)
      else takeCapsuleAt buf fuel (pos + c.bytes.length) := by
  obtain ⟨data, hdata⟩ : exists data, data = buf.drop pos := ⟨_, rfl⟩
  have htype := two_pow_form_le hc.typeForm_lt
  have hlen := two_pow_form_le hc.lenForm_lt
  have hpos := Nat.two_pow_pos c.lenForm
  have hcap : maxCapsuleBuffer = 65552 := rfl
  rw [← hdata] at h
  rw [length_capsule, takeCapsuleAt, ← hdata]
  simp only [Capsule.bytes, Capsule.header, append_assoc] at h
  rw [decodeVarint_eq hc.typeForm_lt hc.kind_lt h]
  by_cases hshort : data.length < 2 ^ c.typeForm
  · simp only [if_pos hshort]
    rw [if_neg (by omega), if_pos (by omega)]
  · have h' := drop_append_eq h (by rw [length_varint]; omega)
    rw [length_varint] at h'
    simp only [if_neg hshort]
    rw [decodeVarint_eq hc.lenForm_lt hc.length_lt h', length_drop]
    by_cases hshort' : data.length - 2 ^ c.typeForm < 2 ^ c.lenForm
    · simp only [if_pos hshort']
      rw [if_neg (by omega), if_pos (by omega)]
    · have h'' := drop_append_eq h' (by rw [length_varint, length_drop]; omega)
      rw [length_varint, drop_drop] at h''
      simp only [if_neg hshort', if_neg (Nat.not_lt.mpr hc.length_le)]
      split_ifs with hpart hkind
      · rfl
      · have hvalue : (data.drop (2 ^ c.typeForm + 2 ^ c.lenForm)).take c.value.length = c.value := by
          have htake := congrArg (take c.value.length) h''
          rwa [take_left, take_append_of_le_length
            (by rw [length_drop]; omega)] at htake
        rw [hvalue]
      · rfl

theorem takeCapsuleAt_nil {buf : List Byte} {pos : Nat} (h : buf.drop pos = []) (fuel : Nat) :
    takeCapsuleAt buf (fuel + 1) pos = (.ok none, pos) := by
  rw [takeCapsuleAt, h]
  rfl

theorem decodeVarint_pos {data : List Byte} {v n : Nat} (h : decodeVarint data = some (v, n)) :
    0 < n ∧ n ≤ data.length := by
  cases data with
  | nil => cases h
  | cons first rest =>
    rw [decodeVarint] at h
    split_ifs at h with hshort
    cases h
    rw [Nat.one_shiftLeft] at hshort ⊢
    exact ⟨Nat.two_pow_pos _, Nat.not_lt.mp hshort⟩

/-- Fuel beyond the bytes that are left changes nothing. -/
theorem takeCapsuleAt_fuel (buf : List Byte) (fuel : Nat) {pos : Nat} (h : buf.length - pos < fuel) :
    takeCapsuleAt buf (fuel + 1) pos = takeCapsuleAt buf fuel pos := by
  induction fuel generalizing pos with
  | zero => exact absurd h (Nat.not_lt_zero _)
  | succ fuel ih =>
    rw [takeCapsuleAt, takeCapsuleAt]
    cases htype : decodeVarint (buf.drop pos) with
    | none => rfl
    | some kind =>
      obtain ⟨kind, typeLen⟩ := kind
      have hpos := decodeVarint_pos htype
      rw [length_drop] at hpos
      simp only
      cases hlen : decodeVarint ((buf.drop pos).drop typeLen) with
      | none => rfl
      | some len =>
        obtain ⟨len, lenLen⟩ := len
        simp only
        split_ifs
        · rfl
        · rfl
        · rfl
        · exact ih (by omega)

/-!
## Chunks
-/

/-- The first `n` capsules are complete and `part` is the beginning of the next one. -/
structure Cut (cs : List Capsule) (data : List Byte) (n : Nat) (part : List Byte) : Prop where
  data_eq : data = (cs.take n).flatMap Capsule.bytes ++ part
  part_of : forall c, cs[n]? = some c -> part <+: c.bytes ∧ part.length < c.bytes.length
  done : cs[n]? = none -> part = []

theorem Cut.cons {c : Capsule} {data part : List Byte} {n : Nat} (h : Cut cs data n part) :
    Cut (c :: cs) (c.bytes ++ data) (n + 1) part := by
  obtain ⟨hdata, hpart, hdone⟩ := h
  refine ⟨?_, ?_, ?_⟩
  · rw [take_succ_cons, flatMap_cons, append_assoc, ← hdata]
  · intro c' hc'
    rw [getElem?_cons_succ] at hc'
    exact hpart c' hc'
  · intro hnone
    rw [getElem?_cons_succ] at hnone
    exact hdone hnone

variable (sendOk)

theorem drain_spec (hcs : forall c, c ∈ cs -> c.Valid) {buf rest : List Byte} {pos fuel : Nat}
    (h : buf.drop pos ++ rest = cs.flatMap Capsule.bytes) (hpos : pos ≤ buf.length)
    (hfuel : buf.length - pos < fuel) (handed : List (List Byte)) :
    exists n part, Cut cs (buf.drop pos) n part ∧
      (drain sendOk buf fuel pos handed).2 = deliveries sendOk handed (cs.take n) ∧
      ((deliveries sendOk handed (cs.take n)).2 = true ->
        buf.drop (drain sendOk buf fuel pos handed).1 = part) := by
  induction cs generalizing pos fuel handed with
  | nil =>
    obtain ⟨fuel, rfl⟩ : exists k, fuel = k + 1 := ⟨fuel - 1, by omega⟩
    have hnil : buf.drop pos = [] := (append_eq_nil_iff.mp h).1
    refine ⟨0, [], ⟨hnil, by simp, fun _ => rfl⟩, ?_, ?_⟩
    · rw [drain, takeCapsuleAt_nil hnil]
      rfl
    · intro _
      rw [drain, takeCapsuleAt_nil hnil]
      exact hnil
  | cons c cs ih =>
    obtain ⟨fuel, rfl⟩ : exists k, fuel = k + 1 := ⟨fuel - 1, by omega⟩
    rw [forall_mem_cons] at hcs
    rw [flatMap_cons] at h
    have htake := takeCapsuleAt_eq hcs.1 h
    have hbytes : 0 < c.bytes.length := by
      rw [length_capsule, Nat.add_assoc]
      exact Nat.lt_of_lt_of_le (Nat.two_pow_pos c.typeForm) (Nat.le_add_right _ _)
    by_cases hshort : (buf.drop pos).length < c.bytes.length
    · have hnone : drain sendOk buf (fuel + 1) pos handed = (pos, handed, true) := by
        rw [drain, htake, if_pos hshort]
      refine ⟨0, buf.drop pos, ⟨rfl, ?_, by simp⟩, by rw [hnone]; rfl, fun _ => by rw [hnone]⟩
      intro c' hc'
      rw [getElem?_cons_zero, Option.some_inj] at hc'
      subst hc'
      refine ⟨?_, hshort⟩
      exact prefix_of_prefix_length_le ⟨rest, h⟩ (prefix_append _ _) (Nat.le_of_lt hshort)
    · rw [length_drop] at hshort
      have hnext : buf.drop (pos + c.bytes.length) ++ rest = cs.flatMap Capsule.bytes := by
        rw [← drop_drop]
        exact drop_append_eq h (by rw [length_drop]; omega)
      have hhere : buf.drop pos = c.bytes ++ buf.drop (pos + c.bytes.length) := by
        have hboth : buf.drop pos ++ rest = c.bytes ++ buf.drop (pos + c.bytes.length) ++ rest := by
          rw [h, append_assoc, hnext]
        exact append_cancel_right hboth
      have hshort' : ¬ (buf.drop pos).length < c.bytes.length := by
        rw [length_drop]
        exact hshort
      -- what the loop does with the rest, whichever way it comes to it
      have hgo {fuel' : Nat} (handed' : List (List Byte))
          (hfuel' : buf.length - (pos + c.bytes.length) < fuel')
          (hrun : drain sendOk buf (fuel + 1) pos handed =
            drain sendOk buf fuel' (pos + c.bytes.length) handed')
          (hall : forall cs, deliveries sendOk handed (c :: cs) = deliveries sendOk handed' cs) :
          exists n part, Cut (c :: cs) (buf.drop pos) n part ∧
            (drain sendOk buf (fuel + 1) pos handed).2 =
              deliveries sendOk handed ((c :: cs).take n) ∧
            ((deliveries sendOk handed ((c :: cs).take n)).2 = true ->
              buf.drop (drain sendOk buf (fuel + 1) pos handed).1 = part) := by
        obtain ⟨n, part, hcut, hsame, hrest⟩ := ih hcs.2 hnext (by omega) hfuel' handed'
        refine ⟨n + 1, part, hhere ▸ hcut.cons, ?_, ?_⟩
        · rw [hrun, hsame, take_succ_cons, hall]
        · rw [hrun, take_succ_cons, hall]
          exact hrest
      -- what is left of the stream when it is given up here
      have hstop (handed' : List (List Byte))
          (hrun : (drain sendOk buf (fuel + 1) pos handed).2 = (handed', false))
          (hall : forall cs, deliveries sendOk handed (c :: cs) = (handed', false)) :
          exists n part, Cut (c :: cs) (buf.drop pos) n part ∧
            (drain sendOk buf (fuel + 1) pos handed).2 =
              deliveries sendOk handed ((c :: cs).take n) ∧
            ((deliveries sendOk handed ((c :: cs).take n)).2 = true ->
              buf.drop (drain sendOk buf (fuel + 1) pos handed).1 = part) := by
        obtain ⟨n, part, hcut, -, -⟩ := ih hcs.2 hnext (by omega) (Nat.lt_succ_self _) handed
        refine ⟨n + 1, part, hhere ▸ hcut.cons, ?_, ?_⟩
        · rw [hrun, take_succ_cons, hall]
        · rw [take_succ_cons, hall]
          intro hfalse
          cases hfalse
      by_cases hkind : c.kind = capsuleDatagram
      · cases hvalue : decodeVarint c.value with
        | none =>
          refine hstop handed ?_ ?_
          · rw [drain, htake, if_neg hshort', if_pos hkind]
            simp only [hvalue]
          · intro cs
            rw [deliveries, if_pos ⟨hkind, hvalue⟩]
        | some context =>
          obtain ⟨context, ctxLen⟩ := context
          have hcontext : ¬ (c.kind = capsuleDatagram ∧ decodeVarint c.value = none) := by
            simp [hvalue]
          cases context with
          | succ context =>
            refine hgo handed (show _ < fuel by omega) ?_ ?_
            · rw [drain, htake, if_neg hshort', if_pos hkind]
              simp [hvalue]
            · intro cs
              rw [deliveries, if_neg hcontext, Capsule.payload, if_pos hkind]
              simp [hvalue]
          | zero =>
            have hpayload : c.payload = some (c.value.drop ctxLen) := by
              rw [Capsule.payload, if_pos hkind]
              simp [hvalue]
            cases hsend : sendOk handed.length with
            | true =>
              refine hgo (handed ++ [c.value.drop ctxLen]) (show _ < fuel by omega) ?_ ?_
              · rw [drain, htake, if_neg hshort', if_pos hkind]
                simp [hvalue, hsend]
              · intro cs
                rw [deliveries, if_neg hcontext]
                simp [hpayload, hsend]
            | false =>
              refine hstop (handed ++ [c.value.drop ctxLen]) ?_ ?_
              · rw [drain, htake, if_neg hshort', if_pos hkind]
                simp [hvalue, hsend]
              · intro cs
                rw [deliveries, if_neg hcontext]
                simp [hpayload, hsend]
      · refine hgo handed (show _ < fuel + 1 by omega) ?_ ?_
        · rw [drain, drain, htake, if_neg hshort', if_neg hkind,
            takeCapsuleAt_fuel buf buf.length (by omega)]
        · intro cs
          rw [deliveries, if_neg fun hbroken => hkind hbroken.1, Capsule.payload, if_neg hkind]

theorem Cut.append {cs : List Capsule} {data part more part' : List Byte} {n n' : Nat}
    (h : Cut cs data n part) (h' : Cut (cs.drop n) (part ++ more) n' part') :
    Cut cs (data ++ more) (n + n') part' := by
  refine ⟨?_, ?_, ?_⟩
  · rw [h.data_eq, append_assoc, h'.data_eq, take_add, flatMap_append,
      append_assoc]
  · intro c hc
    exact h'.part_of c (by rw [getElem?_drop]; exact hc)
  · intro hnone
    exact h'.done (by rw [getElem?_drop]; exact hnone)

theorem receiveAll_spec (hcs : forall c, c ∈ cs -> c.Valid) {chunks : List (List Byte)}
    {rest : List Byte} (h : chunks.flatten ++ rest = cs.flatMap Capsule.bytes) :
    exists n part, Cut cs chunks.flatten n part ∧
      ((receiveAll sendOk chunks).handed, (receiveAll sendOk chunks).alive) =
        deliveries sendOk [] (cs.take n) ∧
      ((receiveAll sendOk chunks).alive = true -> (receiveAll sendOk chunks).pending = part) := by
  induction chunks using reverseRecOn generalizing rest with
  | nil =>
    refine ⟨0, [], ⟨rfl, ?_, fun _ => rfl⟩, rfl, fun _ => rfl⟩
    intro c _
    refine ⟨ nil_prefix, ?_⟩
    rw [length_capsule, Nat.add_assoc]
    exact Nat.lt_of_lt_of_le (Nat.two_pow_pos c.typeForm) (Nat.le_add_right _ _)
  | append_singleton chunks chunk ih =>
    rw [flatten_append, flatten_singleton] at h ⊢
    rw [append_assoc] at h
    obtain ⟨n, part, hcut, hdeliveries, hpending⟩ := ih h
    have hleft : (part ++ chunk).drop 0 ++ rest = (cs.drop n).flatMap Capsule.bytes := by
      have hall : (cs.take n).flatMap Capsule.bytes ++ (part ++ chunk ++ rest) =
          (cs.take n).flatMap Capsule.bytes ++ (cs.drop n).flatMap Capsule.bytes := by
        rw [← flatMap_append, take_append_drop, ← h, hcut.data_eq]
        simp
      exact append_cancel_left hall
    obtain ⟨n', part', hcut', hdrain, hrest⟩ :=
      drain_spec sendOk (fun c hc => hcs c (mem_of_mem_drop hc)) hleft
        (Nat.zero_le _) (Nat.lt_succ_self _) (receiveAll sendOk chunks).handed
    have hstep : receiveAll sendOk (chunks ++ [chunk]) =
        (receiveAll sendOk chunks).receive sendOk chunk := by
      simp [receiveAll]
    refine ⟨n + n', part', hcut.append hcut', ?_, ?_⟩
    · rw [take_add, deliveries_append, ← hdeliveries, hstep, Receiver.receive]
      cases halive : (receiveAll sendOk chunks).alive with
      | false => simp [halive]
      | true =>
        rw [hpending halive]
        exact hdrain
    · rw [hstep, Receiver.receive]
      cases halive : (receiveAll sendOk chunks).alive with
      | false =>
        intro hdead
        rw [if_neg Bool.false_ne_true, halive] at hdead
        cases hdead
      | true =>
        rw [if_pos rfl, hpending halive]
        intro hstill
        exact hrest (hdrain ▸ hstill)

theorem capsules_delivered {cs : List Capsule} (hcs : forall c, c ∈ cs -> c.Valid)
    {chunks : List (List Byte)} {rest : List Byte}
    (h : chunks.flatten ++ rest = cs.flatMap Capsule.bytes) :
    (exists n part, Cut cs chunks.flatten n part ∧
      ((receiveAll sendOk chunks).handed, (receiveAll sendOk chunks).alive) =
        deliveries sendOk [] (cs.take n) ∧
      ((receiveAll sendOk chunks).alive = true -> (receiveAll sendOk chunks).pending = part) ∧
      ((forall c, c ∈ cs -> c.HasContext) -> (forall n, sendOk n = true) ->
        (receiveAll sendOk chunks).alive = true ∧
          (receiveAll sendOk chunks).handed = (cs.take n).filterMap Capsule.payload)) ∧
    forall value, value < 2 ^ 62 -> forall more,
      decodeVarint (encodeVarint value ++ more) = some (value, (encodeVarint value).length) := by
  refine ⟨?_, fun value hvalue more => decodeVarint_encodeVarint hvalue more⟩
  obtain ⟨n, part, hcut, hdeliveries, hpending⟩ := receiveAll_spec sendOk hcs h
  refine ⟨n, part, hcut, hdeliveries, hpending, ?_⟩
  intro hcontext hsend
  rw [deliveries_eq (fun c hc => hcontext c (mem_of_mem_take hc)) hsend, nil_append,
    Prod.mk.injEq] at hdeliveries
  exact hdeliveries.symm

/-- A datagram capsule in three chunks. -/
theorem capsules_delivered_split :
    (receiveAll (fun _ => true) [[0], [2, 0], [9]]).alive = true ∧
      exists n, (receiveAll (fun _ => true) [[0], [2, 0], [9]]).handed =
        ([(⟨0, 0, 0, [0, 9]⟩ : Capsule)].take n).filterMap Capsule.payload := by
  have hvalid : forall c, c ∈ [(⟨0, 0, 0, [0, 9]⟩ : Capsule)] -> c.Valid := by
    intro c hc
    rw [mem_singleton.mp hc]
    exact ⟨by decide, by decide, by decide, by decide, by decide⟩
  have hbytes : [[0], [2, 0], [9]].flatten ++ [] =
      [(⟨0, 0, 0, [0, 9]⟩ : Capsule)].flatMap Capsule.bytes := by decide
  obtain ⟨n, -, -, -, -, hpayloads⟩ := (capsules_delivered (fun _ => true) hvalid hbytes).1
  have hboth := hpayloads (fun c hc _ => by rw [mem_singleton.mp hc]; decide) fun _ => rfl
  exact ⟨hboth.1, n, hboth.2⟩

/-- A DATAGRAM capsule without a Context ID ends the stream before the datagram after it. -/
theorem datagram_after_empty_capsule_lost :
    (receiveAll (fun _ => true) [[0, 0, 0, 2, 0, 5]]).handed = [] ∧
      [(⟨0, 0, 0, []⟩ : Capsule), ⟨0, 0, 0, [0, 5]⟩].flatMap Capsule.bytes = [0, 0, 0, 2, 0, 5] ∧
      [(⟨0, 0, 0, []⟩ : Capsule), ⟨0, 0, 0, [0, 5]⟩].filterMap Capsule.payload = [[5]] := by
  decide +kernel

end Capsules
end Client
end FrpRs
