import FrpRs.Stream.WsByteStream

/-!
# The frames of a WebSocket byte stream

Data frames in every form that `poll_read` of `WsByteStream` takes: binary or text, final or not,
empty or not, and with any of the three length fields.  The frame of a write is one of them.
-/

namespace FrpRs
namespace Stream

open List Bytes Poll

/-!
## Masks
-/

theorem xorMask_xorMask (mask : Mask) (payload : List Byte) :
    xorMask mask (xorMask mask payload) = payload := by
  have hbyte : forall a k : Byte, a ^^^ k ^^^ k = a := by
    intro a k
    rw [UInt8.xor_assoc, UInt8.xor_self, UInt8.xor_zero]
  fun_induction xorMask mask payload with
  | case1 a b c d rest ih => rw [xorMask, ih, hbyte, hbyte, hbyte, hbyte]
  | case2 a b c => rw [xorMask, hbyte, hbyte, hbyte]
  | case3 a b => rw [xorMask, hbyte, hbyte]
  | case4 a => rw [xorMask, hbyte]
  | case5 => rw [xorMask]

theorem length_xorMask (mask : Mask) (payload : List Byte) :
    (xorMask mask payload).length = payload.length := by
  fun_induction xorMask mask payload with
  | case1 a b c d rest ih => rw [length_cons, length_cons, length_cons, length_cons, ih]; rfl
  | case2 a b c => rfl
  | case3 a b => rfl
  | case4 a => rfl
  | case5 => rfl

theorem Mask.ofBytes_bytes (mask : Mask) : Mask.ofBytes mask.bytes = mask := rfl

theorem xorMask_take (mask : Mask) (bytes : List Byte) (n : Nat) :
    xorMask mask (bytes.take n) = (xorMask mask bytes).take n := by
  fun_induction xorMask mask bytes generalizing n with
  | case1 a b c d rest ih =>
    rcases n with _ | _ | _ | _ | n
    · rfl
    · rfl
    · rfl
    · rfl
    · rw [take_succ_cons, take_succ_cons, take_succ_cons, take_succ_cons,
        xorMask, ih]
      rfl
  | case2 a b c =>
    rcases n with _ | _ | _ | n
    · rfl
    · rfl
    · rfl
    · rw [take_of_length_le (Nat.le_add_left 3 n),
        take_of_length_le (Nat.le_add_left 3 n)]
      rfl
  | case3 a b =>
    rcases n with _ | _ | n
    · rfl
    · rfl
    · rw [take_of_length_le (Nat.le_add_left 2 n),
        take_of_length_le (Nat.le_add_left 2 n)]
      rfl
  | case4 a =>
    rcases n with _ | n
    · rfl
    · rw [take_of_length_le (Nat.le_add_left 1 n),
        take_of_length_le (Nat.le_add_left 1 n)]
      rfl
  | case5 => rw [take_nil, xorMask]

/-!
## Inbound frames
-/

/-- The payload of a write, and the mask its frame was given. -/
structure DataFrame where
  mask : Mask
  payload : List Byte
  nonempty : payload ≠ []
  short : payload.length ≤ maxWsFramePayload

namespace DataFrame

def encode (client : Bool) (f : DataFrame) : List Byte :=
  buildFrameInto f.mask f.payload client

def body (client : Bool) (f : DataFrame) : List Byte :=
  if client then f.mask.bytes ++ xorMask f.mask f.payload else f.payload

def flag (client : Bool) : Byte :=
  if client then 0x80 else 0

theorem encode_eq (client : Bool) (f : DataFrame) :
    f.encode client = 0x82 :: (lengthField (flag client) f.payload.length ++ f.body client) := by
  cases client with
  | true => rfl
  | false => rfl

end DataFrame

inductive LengthForm where
  | one
  | two
  | eight
deriving DecidableEq, Repr

namespace LengthForm

def Fits : LengthForm -> Nat -> Prop
  | .one, len => len < 126
  | .two, len => len ≤ 65535
  | .eight, _ => True

instance : (form : LengthForm) -> (len : Nat) -> Decidable (form.Fits len)
  | .one, len => inferInstanceAs (Decidable (len < 126))
  | .two, len => inferInstanceAs (Decidable (len ≤ 65535))
  | .eight, _ => isTrue trivial

def code : LengthForm -> Nat -> Nat
  | .one, len => len
  | .two, _ => 126
  | .eight, _ => 127

def extended : LengthForm -> Nat -> List Byte
  | .one, _ => []
  | .two, len => beBytes 2 len
  | .eight, len => beBytes 8 len

end LengthForm

structure InboundFrame where
  fin : Bool
  text : Bool
  mask : Mask
  form : LengthForm
  payload : List Byte
  fits : form.Fits payload.length
  short : payload.length ≤ maxWsFramePayload

namespace InboundFrame

def opcode (f : InboundFrame) : Byte :=
  if f.text then 0x01 else 0x02

def first (f : InboundFrame) : Byte :=
  if f.fin then 0x80 ||| f.opcode else f.opcode

def key (client : Bool) (f : InboundFrame) : List Byte :=
  if client then f.mask.bytes else []

def wirePayload (client : Bool) (f : InboundFrame) : List Byte :=
  if client then xorMask f.mask f.payload else f.payload

def body (client : Bool) (f : InboundFrame) : List Byte :=
  f.key client ++ f.wirePayload client

def encode (client : Bool) (f : InboundFrame) : List Byte :=
  [f.first, DataFrame.flag client ||| UInt8.ofNat (f.form.code f.payload.length)] ++
    (f.form.extended f.payload.length ++ f.body client)

def headLen (client : Bool) (f : InboundFrame) : Nat :=
  2 + (f.form.extended f.payload.length).length + (f.key client).length

end InboundFrame

namespace InboundFrame

theorem length_wirePayload (client : Bool) (f : InboundFrame) :
    (f.wirePayload client).length = f.payload.length := by
  cases client with
  | true => exact length_xorMask f.mask f.payload
  | false => rfl

theorem length_encode (client : Bool) (f : InboundFrame) :
    (f.encode client).length = f.headLen client + f.payload.length := by
  rw [encode, headLen, body, length_append, length_append, length_append,
    length_wirePayload, length_cons, length_singleton]
  omega

end InboundFrame

namespace DataFrame

def lengthForm (len : Nat) : LengthForm :=
  if len < 126 then .one else if len ≤ 65535 then .two else .eight

theorem lengthForm_fits (len : Nat) : (lengthForm len).Fits len := by
  unfold lengthForm
  split
  · assumption
  · split
    · assumption
    · trivial

def inbound (f : DataFrame) : InboundFrame where
  fin := true
  text := false
  mask := f.mask
  form := lengthForm f.payload.length
  payload := f.payload
  fits := lengthForm_fits f.payload.length
  short := f.short

theorem encode_inbound (client : Bool) (f : DataFrame) :
    f.inbound.encode client = f.encode client := by
  have hbody : f.inbound.body client = f.body client := by
    cases client with
    | true => rfl
    | false => rfl
  have hfirst : f.inbound.first = 0x82 := by
    change (0x80 ||| 0x02 : Byte) = 0x82
    decide
  rw [encode_eq, InboundFrame.encode, hbody, hfirst, lengthField]
  change [0x82, flag client ||| UInt8.ofNat ((lengthForm f.payload.length).code f.payload.length)] ++
    ((lengthForm f.payload.length).extended f.payload.length ++ f.body client) = _
  unfold lengthForm
  split
  · rfl
  · split
    · rfl
    · rfl

end DataFrame

/-!
## Parsing a frame
-/

namespace WsByteStream

theorem lengthByte_bits (client : Bool) (n : Fin 128) :
    (decide (((DataFrame.flag client ||| UInt8.ofNat n) &&& 0x80) ≠ 0) = client) ∧
      ((DataFrame.flag client ||| UInt8.ofNat n) &&& 0x7F).toNat = n := by
  revert client n
  decide

theorem headerKnown_inbound (client : Bool) (f : InboundFrame) (frame : RawFrame) {n : Nat}
    (hn : n < 128) :
    headerKnown (!client) frame f.first (DataFrame.flag client ||| UInt8.ofNat n) =
      if n = 126 then
        .next (.readingExtendedLen2 []) { frame with opcode := f.opcode, masked := client }
      else if n = 127 then
        .next (.readingExtendedLen8 []) { frame with opcode := f.opcode, masked := client }
      else lengthKnown { frame with opcode := f.opcode, masked := client } n := by
  rcases lengthByte_bits client ⟨n, hn⟩ with ⟨hmasked, hlen⟩
  have hdirection : ¬ client = !client := by
    cases client with
    | true => exact Bool.true_eq_false_eq_False
    | false => exact Bool.false_ne_true
  have hfirst : f.first &&& 0x70 = 0 ∧ f.first &&& 0x0F = f.opcode ∧ ¬ 0x08 ≤ f.opcode := by
    rw [InboundFrame.first, InboundFrame.opcode]
    cases f.fin with
    | true =>
      cases f.text with
      | true => decide
      | false => decide
    | false =>
      cases f.text with
      | true => decide
      | false => decide
  rcases hfirst with ⟨hreserved, hopcode, hdata⟩
  rw [headerKnown, hlen, hmasked, hopcode, if_neg (fun h => h hreserved), if_neg hdirection,
    if_neg (fun h => hdata h.1), if_neg (fun h => hdata h.1)]

def Known (client : Bool) (f : InboundFrame) (frame : RawFrame) : Prop :=
  frame.opcode = f.opcode ∧ frame.masked = client

/-- How far a parser is in a frame of which `post` is still to come. -/
inductive InboundAt (client : Bool) (f : InboundFrame) :
    RawReadState -> RawFrame -> List Byte -> Prop
  | header {head post : List Byte} {frame : RawFrame} (hshort : head.length < 2)
      (hbytes : head ++ post = f.encode client) :
      InboundAt client f (.readingHeader head) frame post
  | extendedLen2 {ext post : List Byte} {frame : RawFrame} (hshort : ext.length < 2)
      (hknown : Known client f frame) (hlen : f.payload.length ≤ 65535)
      (hbytes : ext ++ post = beBytes 2 f.payload.length ++ f.body client) :
      InboundAt client f (.readingExtendedLen2 ext) frame post
  | extendedLen8 {ext post : List Byte} {frame : RawFrame} (hshort : ext.length < 8)
      (hknown : Known client f frame)
      (hbytes : ext ++ post = beBytes 8 f.payload.length ++ f.body client) :
      InboundAt client f (.readingExtendedLen8 ext) frame post
  | maskKey {key post : List Byte} {frame : RawFrame} (hshort : key.length < 4)
      (hclient : client = true) (hknown : Known client f frame)
      (hlen : frame.payloadLen = f.payload.length)
      (hbytes : key ++ post = f.mask.bytes ++ f.wirePayload client) :
      InboundAt client f (.readingMaskKey key) frame post
  | payload {part post : List Byte} {frame : RawFrame} (hshort : part.length < f.payload.length)
      (hknown : Known client f frame) (hkey : client = true -> frame.maskKey = f.mask)
      (hlen : frame.payloadLen = f.payload.length) (hbytes : part ++ post = f.wirePayload client) :
      InboundAt client f (.readingPayload part) frame post

/-- What the next bytes of a frame lead to. -/
inductive InboundAdvanced (client : Bool) (f : InboundFrame) (post : List Byte) : Parsed -> Prop
  | wait {st : RawReadState} {frame : RawFrame} (hat : InboundAt client f st frame post) :
      InboundAdvanced client f post (.wait st frame)
  | next {st : RawReadState} {frame : RawFrame} (hat : InboundAt client f st frame post) :
      InboundAdvanced client f post (.next st frame)
  | complete {frame : RawFrame} (hopcode : frame.opcode = f.opcode) (hpost : post = []) :
      InboundAdvanced client f post (.complete f.payload frame)

theorem append_inj_of_full {α : Type} {have' got post field rest : List α}
    (h : have' ++ (got ++ post) = field ++ rest) (hfull : field.length ≤ (have' ++ got).length)
    (hroom : (have' ++ got).length ≤ field.length) : have' ++ got = field ∧ post = rest := by
  rw [← append_assoc] at h
  exact append_inj h (Nat.le_antisymm hroom hfull)

section Inbound

variable {client : Bool} {f : InboundFrame} {frame : RawFrame} {st : RawReadState}
  {got post : List Byte}

theorem lengthKnown_inbound (hknown : Known client f frame) (hpost : post = f.body client) :
    InboundAdvanced client f post (lengthKnown frame f.payload.length) := by
  rw [lengthKnown, if_neg (Nat.not_lt.mpr f.short)]
  cases client with
  | true =>
    rw [if_pos hknown.2]
    exact .next (.maskKey (by decide) rfl hknown rfl hpost)
  | false =>
    rw [if_neg (by rw [hknown.2]; exact Bool.false_ne_true)]
    by_cases hpayload : 0 < f.payload.length
    · rw [if_pos hpayload]
      exact .next (.payload hpayload hknown (fun h => absurd h Bool.false_ne_true) rfl hpost)
    · have hnil : f.payload = [] := eq_nil_of_length_eq_zero (by omega)
      have hdone : InboundAdvanced false f post
          (.complete f.payload { frame with payloadLen := f.payload.length }) :=
        .complete hknown.1 (hpost.trans hnil)
      rw [hnil] at hdone ⊢
      exact hdone

theorem header_inbound {head : List Byte} (hbytes : head ++ (got ++ post) = f.encode client)
    (hroom : head.length + got.length = 2) :
    InboundAdvanced client f post
      (headerKnown (!client) frame ((head ++ got).getD 0 0) ((head ++ got).getD 1 0)) := by
  rcases append_inj_of_full hbytes
      (by rw [length_append, hroom]; exact Nat.le_refl 2)
      (by rw [length_append, hroom]; exact Nat.le_refl 2) with ⟨hhead, hpost⟩
  have hfits := f.fits
  rw [hhead]
  change InboundAdvanced client f post (headerKnown (!client) frame f.first
    (DataFrame.flag client ||| UInt8.ofNat (f.form.code f.payload.length)))
  cases hform : f.form with
  | one =>
    rw [hform] at hpost hfits
    rw [LengthForm.Fits] at hfits
    rw [LengthForm.code, headerKnown_inbound client f frame (by omega), if_neg (by omega),
      if_neg (by omega)]
    exact lengthKnown_inbound ⟨rfl, rfl⟩ hpost
  | two =>
    rw [hform] at hpost hfits
    rw [LengthForm.code, headerKnown_inbound client f frame (by decide), if_pos rfl]
    exact .next (.extendedLen2 (by decide) ⟨rfl, rfl⟩ hfits hpost)
  | eight =>
    rw [hform] at hpost
    rw [LengthForm.code, headerKnown_inbound client f frame (by decide), if_neg (by decide),
      if_pos rfl]
    exact .next (.extendedLen8 (by decide) ⟨rfl, rfl⟩ hpost)

theorem InboundAt.room (h : InboundAt client f st frame post) :
    0 < want frame st ∧ want frame st ≤ post.length := by
  cases h with
  | header hshort hbytes =>
    have htotal := congrArg length hbytes
    rw [length_append, InboundFrame.encode, length_append, length_cons,
      length_singleton] at htotal
    rw [WsByteStream.want]
    omega
  | extendedLen2 hshort hknown hlen hbytes =>
    have htotal := congrArg length hbytes
    rw [length_append, length_append, beBytes_length] at htotal
    rw [WsByteStream.want]
    omega
  | extendedLen8 hshort hknown hbytes =>
    have htotal := congrArg length hbytes
    rw [length_append, length_append, beBytes_length] at htotal
    rw [WsByteStream.want]
    omega
  | maskKey hshort hclient hknown hlen hbytes =>
    have htotal := congrArg length hbytes
    rw [length_append, length_append] at htotal
    change _ = 4 + _ at htotal
    rw [WsByteStream.want]
    omega
  | payload hshort hknown hkey hlen hbytes =>
    have htotal := congrArg length hbytes
    rw [length_append, f.length_wirePayload] at htotal
    rw [WsByteStream.want, hlen]
    omega

theorem InboundAt.advance (h : InboundAt client f st frame (got ++ post))
    (hroom : got.length ≤ want frame st) :
    InboundAdvanced client f post (advance (!client) frame got st) := by
  have hlength := f.short
  have hmax : maxWsFramePayload < 256 ^ 8 := by decide
  cases h with
  | header hshort hbytes =>
    rename_i head
    rw [WsByteStream.want] at hroom
    rw [WsByteStream.advance]
    by_cases hmore : (head ++ got).length < 2
    · rw [if_pos hmore]
      exact .wait (.header hmore (by rw [append_assoc]; exact hbytes))
    · rw [if_neg hmore]
      rw [length_append] at hmore
      exact header_inbound hbytes (by omega)
  | extendedLen2 hshort hknown hlen hbytes =>
    rename_i ext
    rw [WsByteStream.want] at hroom
    rw [WsByteStream.advance]
    by_cases hmore : (ext ++ got).length < 2
    · rw [if_pos hmore]
      exact .wait (.extendedLen2 hmore hknown hlen (by rw [append_assoc]; exact hbytes))
    · have hroom' : (ext ++ got).length ≤ 2 := by
        rw [length_append]
        omega
      rcases append_inj_of_full hbytes (by rw [beBytes_length]; omega)
        (by rw [beBytes_length]; omega) with ⟨hext, hpost⟩
      rw [if_neg hmore, hext, ofBeBytes_beBytes, Nat.mod_eq_of_lt (by omega)]
      exact lengthKnown_inbound hknown hpost
  | extendedLen8 hshort hknown hbytes =>
    rename_i ext
    rw [WsByteStream.want] at hroom
    rw [WsByteStream.advance]
    by_cases hmore : (ext ++ got).length < 8
    · rw [if_pos hmore]
      exact .wait (.extendedLen8 hmore hknown (by rw [append_assoc]; exact hbytes))
    · have hroom' : (ext ++ got).length ≤ 8 := by
        rw [length_append]
        omega
      rcases append_inj_of_full hbytes (by rw [beBytes_length]; omega)
        (by rw [beBytes_length]; omega) with ⟨hext, hpost⟩
      rw [if_neg hmore, hext, ofBeBytes_beBytes, Nat.mod_eq_of_lt (by omega)]
      exact lengthKnown_inbound hknown hpost
  | maskKey hshort hclient hknown hlen hbytes =>
    rename_i key
    rw [WsByteStream.want] at hroom
    rw [WsByteStream.advance]
    by_cases hmore : (key ++ got).length < 4
    · rw [if_pos hmore]
      exact .wait (.maskKey hmore hclient hknown hlen (by rw [append_assoc]; exact hbytes))
    · have hroom' : (key ++ got).length ≤ 4 := by
        rw [length_append]
        omega
      rcases append_inj_of_full hbytes (Nat.not_lt.mp hmore) hroom' with ⟨hkey, hpost⟩
      rw [if_neg hmore, hkey, Mask.ofBytes_bytes, hlen]
      by_cases hpayload : 0 < f.payload.length
      · rw [if_pos hpayload]
        exact .next (.payload hpayload hknown (fun _ => rfl) rfl hpost)
      · have hnil : f.payload = [] := eq_nil_of_length_eq_zero (by omega)
        have hempty : f.wirePayload client = [] := by
          apply eq_nil_of_length_eq_zero
          rw [f.length_wirePayload, hnil]
          rfl
        have hdone : InboundAdvanced client f post
            (.complete f.payload
              { frame with maskKey := f.mask, payloadLen := f.payload.length }) :=
          .complete hknown.1 (hpost.trans hempty)
        rw [hnil] at hdone ⊢
        exact hdone
  | payload hshort hknown hkey hlen hbytes =>
    rename_i part
    rw [WsByteStream.want, hlen] at hroom
    rw [WsByteStream.advance]
    rw [hlen]
    by_cases hmore : (part ++ got).length < f.payload.length
    · rw [if_pos hmore]
      exact .wait (.payload hmore hknown hkey hlen (by rw [append_assoc]; exact hbytes))
    · have hroom' : (part ++ got).length ≤ f.payload.length := by
        rw [length_append]
        omega
      have hwire := f.length_wirePayload client
      have hwhole : part ++ (got ++ post) = f.wirePayload client ++ [] := by
        rw [hbytes, append_nil]
      rcases append_inj_of_full hwhole (by omega) (by omega) with ⟨hpart, hpost⟩
      have hpayload : (if frame.masked then xorMask frame.maskKey (part ++ got)
          else part ++ got) = f.payload := by
        rw [hpart]
        cases client with
        | true =>
          rw [if_pos hknown.2, hkey rfl]
          exact xorMask_xorMask f.mask f.payload
        | false =>
          rw [if_neg (by rw [hknown.2]; exact Bool.false_ne_true)]
          rfl
      rw [if_neg hmore, hpayload]
      exact .complete hknown.1 hpost

theorem InboundAt.not_idle (h : InboundAt client f st frame post) : st ≠ .idle := by
  intro hidle
  rw [hidle] at h
  cases h

end Inbound

end WsByteStream

end Stream
end FrpRs
