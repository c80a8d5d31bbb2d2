import FrpRs.Stream.WsSessions

/-!
# Frames on the wire of a WebSocket byte stream

The read side answers pings and closes on the inner stream that the write side uses, and neither
looks at what the other has kept.  As long as no bytes of one frame are accepted while another
is partly written, and no reply takes the place of a partly written control frame, the accepted
bytes are whole frames and at most the beginning of one more, whose rest is kept.
-/

namespace FrpRs
namespace Stream

open List Bytes Poll

namespace WsByteStream

/-!
## The last frame on the wire
-/

/-- The length of a frame, once its header is there. -/
def frameLen : List Byte -> Option Nat
  | _ :: b1 :: rest =>
    let raw := (b1 &&& 0x7F).toNat
    let key := if b1 &&& 0x80 ≠ 0 then 4 else 0
    if raw = 126 then
      if 2 ≤ rest.length then some (4 + key + ofBeBytes (rest.take 2)) else none
    else if raw = 127 then
      if 8 ≤ rest.length then some (10 + key + ofBeBytes (rest.take 8)) else none
    else some (2 + key + raw)
  | _ => none

def openPart : Nat -> List Byte -> List Byte
  | 0, bytes => bytes
  | fuel + 1, bytes =>
    match frameLen bytes with
    | some n => if n ≤ bytes.length then openPart fuel (bytes.drop n) else bytes
    | none => bytes

def cutFrame (sink : Sink) : List Byte :=
  openPart sink.accepted.length sink.accepted

def DataBytes (client : Bool) (bytes : List Byte) : Prop :=
  exists mask buf, buf ≠ [] ∧ buf.length < 2 ^ 64 ∧ bytes = buildFrameInto mask buf client

def ControlBytes (client : Bool) (bytes : List Byte) : Prop :=
  exists mask opcode payload, (opcode = 0x08 ∨ opcode = 0x0A) ∧ payload.length ≤ 125 ∧
    bytes = buildControlFrame mask opcode payload client

def FrameBytes (client : Bool) (bytes : List Byte) : Prop :=
  DataBytes client bytes ∨ ControlBytes client bytes

section Frames

variable {client : Bool} {bytes : List Byte}

def sealed (client : Bool) (mask : Mask) (payload : List Byte) : List Byte :=
  if client then mask.bytes ++ xorMask mask payload else payload

theorem length_sealed (client : Bool) (mask : Mask) (payload : List Byte) :
    (sealed client mask payload).length = (if client then 4 else 0) + payload.length := by
  cases client with
  | true =>
    rw [sealed, if_pos rfl, if_pos rfl, length_append, length_xorMask]
    rfl
  | false =>
    rw [sealed, if_neg Bool.false_ne_true, if_neg Bool.false_ne_true, Nat.zero_add]

theorem FrameBytes.form (h : FrameBytes client bytes) :
    exists b0 mask payload, payload.length < 2 ^ 64 ∧
      bytes = b0 :: (lengthField (DataFrame.flag client) payload.length ++
        sealed client mask payload) := by
  rcases h with ⟨mask, buf, _, hlen, heq⟩ | ⟨mask, opcode, payload, _, hlen, heq⟩
  · refine ⟨0x82, mask, buf, hlen, ?_⟩
    rw [heq]
    cases client with
    | true => rfl
    | false => rfl
  · have hfield : forall flag : Byte,
        lengthField flag payload.length = [flag ||| UInt8.ofNat payload.length] :=
      fun flag => if_pos (by omega)
    refine ⟨0x80 ||| opcode, mask, payload, by omega, ?_⟩
    rw [heq, hfield]
    cases client with
    | true => rfl
    | false =>
      have hzero : (0 : Byte) ||| UInt8.ofNat payload.length = UInt8.ofNat payload.length :=
        UInt8.zero_or
      rw [DataFrame.flag, if_neg Bool.false_ne_true, hzero]
      rfl

theorem frameLen_lengthByte (b0 : Byte) {n : Nat} (hn : n < 128) (rest : List Byte) :
    frameLen (b0 :: (DataFrame.flag client ||| UInt8.ofNat n) :: rest) =
      if n = 126 then
        if 2 ≤ rest.length then some (4 + (if client then 4 else 0) + ofBeBytes (rest.take 2))
        else none
      else if n = 127 then
        if 8 ≤ rest.length then some (10 + (if client then 4 else 0) + ofBeBytes (rest.take 8))
        else none
      else some (2 + (if client then 4 else 0) + n) := by
  obtain ⟨hmasked, hlen⟩ := lengthByte_bits client ⟨n, hn⟩
  have hkey : (if ((DataFrame.flag client ||| UInt8.ofNat n) &&& 0x80) ≠ 0 then 4 else 0) =
      if client then 4 else 0 := by
    by_cases hbit : ((DataFrame.flag client ||| UInt8.ofNat n) &&& 0x80) ≠ 0
    · rw [decide_eq_true hbit] at hmasked
      rw [if_pos hbit, if_pos hmasked.symm]
    · rw [decide_eq_false hbit] at hmasked
      rw [if_neg hbit, if_neg (by rw [← hmasked]; exact Bool.false_ne_true)]
  rw [frameLen, hlen, hkey]

theorem FrameBytes.frameLen (h : FrameBytes client bytes) (rest : List Byte) :
    frameLen (bytes ++ rest) = some bytes.length := by
  obtain ⟨b0, mask, payload, hlen, heq⟩ := h.form
  have hsealed := length_sealed client mask payload
  rw [heq, lengthField]
  by_cases hsmall : payload.length < 126
  · rw [if_pos hsmall, cons_append, cons_append, nil_append, cons_append,
      frameLen_lengthByte b0 (by omega), if_neg (by omega), if_neg (by omega), length_cons,
      length_cons, hsealed]
    congr 1
    omega
  · rw [if_neg hsmall]
    by_cases hmiddle : payload.length ≤ 65535
    · have htake : (beBytes 2 payload.length ++ sealed client mask payload ++ rest).take 2 =
          beBytes 2 payload.length := by
        rw [append_assoc, take_left' (beBytes_length 2 _)]
      rw [if_pos hmiddle, cons_append, cons_append, cons_append]
      change Stream.WsByteStream.frameLen
        (b0 :: (DataFrame.flag client ||| UInt8.ofNat 126) ::
          (beBytes 2 payload.length ++ sealed client mask payload ++ rest)) = _
      rw [frameLen_lengthByte b0 (by decide), if_pos rfl, htake, ofBeBytes_beBytes,
        Nat.mod_eq_of_lt (by omega), if_pos, length_cons, length_cons, length_append,
        hsealed, beBytes_length]
      · congr 1
        omega
      · rw [length_append, length_append, beBytes_length]
        omega
    · have htake : (beBytes 8 payload.length ++ sealed client mask payload ++ rest).take 8 =
          beBytes 8 payload.length := by
        rw [append_assoc, take_left' (beBytes_length 8 _)]
      have hrange : payload.length % 256 ^ 8 = payload.length :=
        Nat.mod_eq_of_lt (by omega)
      rw [if_neg hmiddle, cons_append, cons_append, cons_append]
      change Stream.WsByteStream.frameLen
        (b0 :: (DataFrame.flag client ||| UInt8.ofNat 127) ::
          (beBytes 8 payload.length ++ sealed client mask payload ++ rest)) = _
      rw [frameLen_lengthByte b0 (by decide), if_neg (by decide), if_pos rfl, htake,
        ofBeBytes_beBytes, hrange, if_pos, length_cons, length_cons, length_append,
        hsealed, beBytes_length]
      · congr 1
        omega
      · rw [length_append, length_append, beBytes_length]
        omega

theorem frameLen_append {part : List Byte} {n : Nat} (h : frameLen part = some n)
    (more : List Byte) : frameLen (part ++ more) = some n := by
  match part, h with
  | _ :: b1 :: rest, h =>
    rw [cons_append, cons_append]
    rw [frameLen] at h ⊢
    split at h
    · rename_i h126
      rw [if_pos h126]
      split at h
      · rename_i hlong
        rw [if_pos (by rw [length_append]; omega), take_append_of_le_length hlong]
        exact h
      · cases h
    · rename_i h126
      rw [if_neg h126]
      split at h
      · rename_i h127
        rw [if_pos h127]
        split at h
        · rename_i hlong
          rw [if_pos (by rw [length_append]; omega), take_append_of_le_length hlong]
          exact h
        · cases h
      · rename_i h127
        rw [if_neg h127]
        exact h

theorem FrameBytes.length_pos (h : FrameBytes client bytes) : 0 < bytes.length := by
  obtain ⟨_, _, _, _, heq⟩ := h.form
  rw [heq]
  exact Nat.zero_lt_succ _

theorem openPart_frames {frames : List (List Byte)}
    (hframes : forall frame, frame ∈ frames -> FrameBytes client frame) {part more : List Byte}
    (hpart : FrameBytes client (part ++ more)) (hmore : more ≠ []) {fuel : Nat}
    (hfuel : frames.length ≤ fuel) : openPart fuel (frames.flatten ++ part) = part := by
  induction frames generalizing fuel with
  | nil =>
    rw [flatten_nil, nil_append]
    cases fuel with
    | zero => rfl
    | succ fuel =>
      rw [openPart]
      split
      · rename_i n hlen
        have hwhole := hpart.frameLen []
        rw [append_nil, frameLen_append hlen, Option.some.injEq] at hwhole
        have hpos := length_pos_iff.mpr hmore
        rw [length_append] at hwhole
        rw [if_neg (by omega)]
      · rfl
  | cons frame frames ih =>
    have hframe := hframes frame mem_cons_self
    cases fuel with
    | zero => exact absurd hfuel (Nat.not_succ_le_zero _)
    | succ fuel =>
      rw [length_cons] at hfuel
      rw [flatten_cons, append_assoc, openPart, hframe.frameLen]
      dsimp only
      rw [if_pos (by rw [length_append]; omega), drop_left]
      exact ih (fun f hmem => hframes f (mem_cons_of_mem frame hmem)) (by omega)

theorem length_le_flatten {frames : List (List Byte)}
    (hframes : forall frame, frame ∈ frames -> FrameBytes client frame) :
    frames.length ≤ frames.flatten.length := by
  induction frames with
  | nil => exact Nat.le_refl 0
  | cons frame frames ih =>
    have hpos := (hframes frame mem_cons_self).length_pos
    have hless := ih fun f hmem => hframes f (mem_cons_of_mem frame hmem)
    rw [flatten_cons, length_append, length_cons]
    omega

end Frames

/-!
## Kept frames
-/

/-- What the two sides have kept. -/
structure Kept where
  needsFlush : Bool
  writeBuf : List Byte
  writePos : Nat
  control : List Byte
  controlPos : Nat

def kept (s : WsByteStream) : Kept where
  needsFlush := s.needsFlush
  writeBuf := s.writeBuf
  writePos := s.writePos
  control := s.pendingControlWrite
  controlPos := s.pendingControlPos

namespace Kept

def data (k : Kept) : List Byte :=
  k.writeBuf.drop k.writePos

def reply (k : Kept) : List Byte :=
  k.control.drop k.controlPos

def WholeData (client : Bool) (k : Kept) : Prop :=
  k.needsFlush = true -> k.writePos < k.writeBuf.length ∧ DataBytes client k.data

def WholeReply (client : Bool) (k : Kept) : Prop :=
  k.control ≠ [] -> k.controlPos < k.control.length ∧ ControlBytes client k.reply

end Kept

/-- The accepted bytes are whole frames, and the beginning of at most one more, whose rest is
kept. -/
inductive Intact (client : Bool) (k : Kept) (accepted : List Byte) : Prop
  | between {frames : List (List Byte)}
      (hframes : forall frame, frame ∈ frames -> FrameBytes client frame)
      (haccepted : accepted = frames.flatten) (hdata : k.WholeData client)
      (hreply : k.WholeReply client)
  | inData {frames : List (List Byte)} {part : List Byte}
      (hframes : forall frame, frame ∈ frames -> FrameBytes client frame) (hpart : part ≠ [])
      (haccepted : accepted = frames.flatten ++ part) (hopen : k.needsFlush = true)
      (hpos : k.writePos < k.writeBuf.length) (hdata : DataBytes client (part ++ k.data))
      (hreply : k.WholeReply client)
  | inControl {frames : List (List Byte)} {part : List Byte}
      (hframes : forall frame, frame ∈ frames -> FrameBytes client frame) (hpart : part ≠ [])
      (haccepted : accepted = frames.flatten ++ part) (hopen : k.control ≠ [])
      (hpos : k.controlPos < k.control.length) (hreply : ControlBytes client (part ++ k.reply))
      (hdata : k.WholeData client)

/-!
## What a write may meet
-/

def accepts (sink : Sink) : Bool :=
  match sink.script with
  | .accept _ :: _ => true
  | _ => false

def dataCut (sink : Sink) : Bool :=
  (cutFrame sink).head? = some 0x82

def controlCut (sink : Sink) : Bool :=
  cutFrame sink ≠ [] && !dataCut sink

def dataClear (sink : Sink) : Bool :=
  !accepts sink || !controlCut sink

def stashClear (sink : Sink) : Bool :=
  !accepts sink || !dataCut sink

def replyClear (sink : Sink) : Bool :=
  if accepts sink then cutFrame sink = [] else !controlCut sink

section Cuts

variable {client : Bool} {k : Kept} {sink : Sink}

theorem cutFrame_eq {frames : List (List Byte)} {part more : List Byte}
    (hframes : forall frame, frame ∈ frames -> FrameBytes client frame)
    (haccepted : sink.accepted = frames.flatten ++ part) (hmore : more ≠ [])
    (hpart : FrameBytes client (part ++ more)) : cutFrame sink = part := by
  rw [cutFrame, haccepted]
  apply openPart_frames hframes hpart hmore
  have hle := length_le_flatten hframes
  rw [length_append]
  omega

theorem DataBytes.head {part more : List Byte} (h : DataBytes client (part ++ more))
    (hpart : part ≠ []) : part.head? = some 0x82 := by
  obtain ⟨mask, buf, _, _, heq⟩ := h
  cases part with
  | nil => exact absurd rfl hpart
  | cons b part =>
    rw [cons_append, buildFrameInto] at heq
    split at heq
    · exact congrArg some (cons.inj heq).1
    · exact congrArg some (cons.inj heq).1

theorem ControlBytes.head {part more : List Byte} (h : ControlBytes client (part ++ more))
    (hpart : part ≠ []) : part.head? ≠ some 0x82 := by
  obtain ⟨mask, opcode, payload, hopcode, _, heq⟩ := h
  cases part with
  | nil => exact absurd rfl hpart
  | cons b part =>
    rw [head?_cons, (cons.inj heq).1]
    rcases hopcode with hopcode | hopcode
    · rw [hopcode]
      decide
    · rw [hopcode]
      decide

theorem drop_ne_nil {buf : List Byte} {pos : Nat} (h : pos < buf.length) : buf.drop pos ≠ [] := by
  intro hnil
  rw [drop_eq_nil_iff] at hnil
  omega

theorem cut_of_inData {frames : List (List Byte)} {part : List Byte}
    (hframes : forall frame, frame ∈ frames -> FrameBytes client frame) (hpart : part ≠ [])
    (haccepted : sink.accepted = frames.flatten ++ part)
    (hpos : k.writePos < k.writeBuf.length) (hdata : DataBytes client (part ++ k.data)) :
    cutFrame sink ≠ [] ∧ dataCut sink = true := by
  have hcut := cutFrame_eq hframes haccepted (drop_ne_nil hpos) (.inl hdata)
  refine ⟨by rw [hcut]; exact hpart, ?_⟩
  rw [dataCut, hcut, hdata.head hpart]
  rfl

theorem cut_of_inControl {frames : List (List Byte)} {part : List Byte}
    (hframes : forall frame, frame ∈ frames -> FrameBytes client frame) (hpart : part ≠ [])
    (haccepted : sink.accepted = frames.flatten ++ part)
    (hpos : k.controlPos < k.control.length) (hreply : ControlBytes client (part ++ k.reply)) :
    cutFrame sink ≠ [] ∧ controlCut sink = true := by
  have hcut := cutFrame_eq hframes haccepted (drop_ne_nil hpos) (.inr hreply)
  have hne : cutFrame sink ≠ [] := by
    rw [hcut]
    exact hpart
  refine ⟨hne, ?_⟩
  rw [controlCut, dataCut, decide_eq_true hne, Bool.true_and, Bool.not_eq_true', hcut,
    decide_eq_false_iff_not]
  exact hreply.head hpart

theorem pollWrite_of_not_accepts (hsound : sink.Sound) (h : accepts sink = false)
    (bytes : List Byte) :
    exists sink', sink.pollWrite bytes = (.pending, sink') ∧ sink'.accepted = sink.accepted := by
  obtain ⟨accepted, script⟩ := sink
  cases script with
  | nil => exact ⟨_, rfl, rfl⟩
  | cons event script =>
    cases event with
    | pending => exact ⟨_, rfl, rfl⟩
    | accept n => cases h
    | fail e => exact absurd (hsound _ mem_cons_self) id

end Cuts

/-!
## Steps
-/

/-- A stream in its mode, on a sink that makes progress, with its frames intact. -/
structure Good (client : Bool) (s : WsByteStream) (sink : Sink) : Prop where
  mode : s.clientMode = client
  sound : sink.Sound
  intact : Intact client s.kept sink.accepted

section Writes

variable {client : Bool} {masks : Nat -> Mask} {s : WsByteStream} {sink : Sink}

variable {frames : List (List Byte)}

theorem forall_mem_snoc {frame : List Byte}
    (h : forall frame, frame ∈ frames -> FrameBytes client frame) (hframe : FrameBytes client frame) :
    forall f, f ∈ frames ++ [frame] -> FrameBytes client f := by
  intro f hmem
  rcases mem_append.mp hmem with hmem | hmem
  · exact h f hmem
  · rw [mem_singleton.mp hmem]
    exact hframe

theorem flatten_snoc (frames : List (List Byte)) (frame : List Byte) :
    (frames ++ [frame]).flatten = frames.flatten ++ frame := by
  rw [flatten_append, flatten_singleton]

variable {s' : WsByteStream}

theorem SameSide.wholeReply (h : SameSide s s') (hreply : s.kept.WholeReply client) :
    s'.kept.WholeReply client := by
  unfold Kept.WholeReply Kept.reply kept at *
  rw [h.control, h.controlPos]
  exact hreply

theorem SameSide.inControl (h : SameSide s s') {part accepted : List Byte}
    (hframes : forall frame, frame ∈ frames -> FrameBytes client frame) (hpart : part ≠ [])
    (haccepted : accepted = frames.flatten ++ part) (hopen : s.kept.control ≠ [])
    (hpos : s.kept.controlPos < s.kept.control.length)
    (hreply : ControlBytes client (part ++ s.kept.reply)) (hdata : s'.kept.WholeData client) :
    Intact client s'.kept accepted := by
  have hcontrol : s'.kept.control = s.kept.control := h.control
  have hcontrolPos : s'.kept.controlPos = s.kept.controlPos := h.controlPos
  refine .inControl hframes hpart haccepted ?_ ?_ ?_ hdata
  · rw [hcontrol]
    exact hopen
  · rw [hcontrol, hcontrolPos]
    exact hpos
  · rw [Kept.reply, hcontrol, hcontrolPos]
    exact hreply

theorem writeFrame_quiet (hsound : sink.Sound) (h : accepts sink = false) (buf : List Byte) :
    (writeFrame masks s sink buf).2.2.accepted = sink.accepted := by
  rw [writeFrame]
  split
  · obtain ⟨sink', hwrite, haccepted⟩ := pollWrite_of_not_accepts hsound h
      (buildServerFrameHeader buf.length ++ buf)
    dsimp only
    rw [hwrite]
    exact haccepted
  · obtain ⟨sink', hwrite, haccepted⟩ := pollWrite_of_not_accepts hsound h
      (buildFrameInto (masks s.drawn) buf s.clientMode)
    dsimp only
    rw [hwrite]
    exact haccepted

theorem dataClear.quiet (h : dataClear sink = true) (hcut : controlCut sink = true) :
    accepts sink = false := by
  rw [dataClear, hcut, Bool.not_true, Bool.or_false, Bool.not_eq_true'] at h
  exact h

theorem stashClear.quiet (h : stashClear sink = true) (hcut : dataCut sink = true) :
    accepts sink = false := by
  rw [stashClear, hcut, Bool.not_true, Bool.or_false, Bool.not_eq_true'] at h
  exact h

theorem intact_kept {part : List Byte} {accepted : List Byte}
    (hframes : forall frame, frame ∈ frames -> FrameBytes client frame)
    (haccepted : accepted = frames.flatten ++ part) (hopen : s'.needsFlush = true)
    (hpos : s'.writePos < s'.writeBuf.length) (hdata : DataBytes client (part ++ s'.kept.data))
    (hreply : s'.kept.WholeReply client) : Intact client s'.kept accepted := by
  by_cases hpart : part = []
  · rw [hpart] at haccepted hdata
    rw [append_nil] at haccepted
    exact .between hframes haccepted (fun _ => ⟨hpos, hdata⟩) hreply
  · exact .inData hframes hpart haccepted hopen hpos hdata hreply

theorem writeFrame_good (h : Good client s sink) (hidle : s.needsFlush = false) {buf : List Byte}
    (hbuf : buf ≠ []) (hlen : buf.length < 2 ^ 64) (hclear : dataClear sink = true) :
    Good client (writeFrame masks s sink buf).2.1 (writeFrame masks s sink buf).2.2 := by
  have hsound := @writeFrame_sound masks s sink h.sound buf
  have hquiet := @writeFrame_quiet masks s sink h.sound
  obtain ⟨mask, hattempt⟩ := writeFrame_attempt masks s h.sound buf
  rw [h.mode] at hattempt
  have hframe : DataBytes client (buildFrameInto mask buf client) := ⟨mask, buf, hbuf, hlen, rfl⟩
  have hlong := FrameBytes.length_pos (.inl hframe)
  generalize buildFrameInto mask buf client = frame at hattempt hframe hlong
  have hquiet' : accepts sink = false -> _ := fun hnot => hquiet hnot buf
  generalize writeFrame masks s sink buf = answer at hattempt hsound hquiet'
  have hintact := h.intact
  cases hattempt with
  | untouched hsent =>
    refine ⟨h.mode, hsound, ?_⟩
    rw [hsent]
    exact hintact
  | sent hsame hflush hsent =>
    rename_i s' sink'
    have hwhole : s'.kept.WholeData client := by
      intro hopen
      rw [show s'.kept.needsFlush = s.needsFlush from hflush, hidle] at hopen
      cases hopen
    refine ⟨hsame.mode.trans h.mode, hsound, ?_⟩
    cases hintact with
    | inData hframes hpart haccepted hopen hpos hdata hreply =>
      rw [show s.kept.needsFlush = s.needsFlush from rfl, hidle] at hopen
      cases hopen
    | between hframes haccepted hdata hreply =>
      rename_i frames
      refine @Intact.between _ _ _ (frames ++ [frame])
        (forall_mem_snoc hframes (.inl hframe)) ?_ hwhole (hsame.wholeReply hreply)
      rw [hsent, haccepted, flatten_snoc]
    | inControl hframes hpart haccepted hopen hpos hreply hdata =>
      have hnot := dataClear.quiet hclear
        (cut_of_inControl hframes hpart haccepted hpos hreply).2
      have hsame' := hquiet' hnot
      rw [hsent, append_right_eq_self] at hsame'
      rw [hsame'] at hlong
      exact absurd hlong (Nat.lt_irrefl 0)
  | kept hsame hopen hlen' hpos hsent hrest =>
    rename_i s' sink' pre
    refine ⟨hsame.mode.trans h.mode, hsound, ?_⟩
    rw [← hrest] at hframe
    cases hintact with
    | inData hframes hpart haccepted hopen' hpos' hdata hreply =>
      rw [show s.kept.needsFlush = s.needsFlush from rfl, hidle] at hopen'
      cases hopen'
    | between hframes haccepted hdata hreply =>
      apply intact_kept hframes _ hopen hpos hframe (hsame.wholeReply hreply)
      rw [hsent, haccepted]
    | inControl hframes hpart haccepted hopen' hpos' hreply hdata =>
      have hnot := dataClear.quiet hclear
        (cut_of_inControl hframes hpart haccepted hpos' hreply).2
      have hnone := hquiet' hnot
      rw [hsent, append_right_eq_self] at hnone
      rw [hnone] at hframe hsent
      rw [append_nil] at hsent
      exact hsame.inControl hframes hpart (hsent.trans haccepted) hopen' hpos' hreply
        fun _ => ⟨hpos, hframe⟩

theorem drainFrame_good (h : Good client s sink) (hopen : s.needsFlush = true)
    (hclear : dataClear sink = true) :
    Good client (drainFrame s sink).2.1 (drainFrame s sink).2.2 := by
  have hsound := @drainFrame_sound s sink h.sound
  have hintact := h.intact
  have hpos : s.writePos < s.writeBuf.length := by
    cases hintact with
    | between hframes haccepted hdata hreply => exact (hdata hopen).1
    | inData hframes hpart haccepted hopen' hpos hdata hreply => exact hpos
    | inControl hframes hpart haccepted hopen' hpos hreply hdata => exact (hdata hopen).1
  have hquiet : accepts sink = false ->
      exists sink', drainFrame s sink = (.pending, s, sink') ∧ sink'.accepted = sink.accepted := by
    intro hnot
    obtain ⟨sink', hwrite, haccepted⟩ :=
      pollWrite_of_not_accepts h.sound hnot (s.writeBuf.drop s.writePos)
    refine ⟨sink', ?_, haccepted⟩
    rw [drainFrame, Sink.drain, hwrite]
  have hdrain := drainFrame_drained h.sound hpos
  generalize hanswer : drainFrame s sink = answer at hdrain hsound hquiet
  cases hintact with
  | inControl hframes hpart haccepted hopen' hpos' hreply hdata =>
    have hnot := dataClear.quiet hclear
      (cut_of_inControl hframes hpart haccepted hpos' hreply).2
    obtain ⟨sink', heq, hsame⟩ := hquiet hnot
    rw [heq] at hsound ⊢
    refine ⟨h.mode, hsound, ?_⟩
    rw [hsame]
    exact .inControl hframes hpart haccepted hopen' hpos' hreply hdata
  | between hframes haccepted hdata hreply =>
    rename_i frames
    have hframe := (hdata hopen).2
    change DataBytes client (s.writeBuf.drop s.writePos) at hframe
    cases hdrain with
    | done hsame hidle hlen hsent =>
      rename_i s' sink'
      refine ⟨hsame.mode.trans h.mode, hsound, ?_⟩
      refine @Intact.between _ _ _ (frames ++ [s.writeBuf.drop s.writePos])
        (forall_mem_snoc hframes (.inl hframe)) ?_ ?_ (hsame.wholeReply hreply)
      · rw [hsent, haccepted, flatten_snoc]
      · intro hopen'
        rw [show s'.kept.needsFlush = false from hidle] at hopen'
        cases hopen'
    | kept hsame hopen' hlen hpos' hsent hrest =>
      refine ⟨hsame.mode.trans h.mode, hsound, ?_⟩
      rw [← hrest] at hframe
      apply intact_kept hframes _ (hopen'.trans hopen) hpos' hframe (hsame.wholeReply hreply)
      rw [hsent, haccepted]
  | inData hframes hpart haccepted hopen' hpos' hdata hreply =>
    rename_i frames part
    change DataBytes client (part ++ s.writeBuf.drop s.writePos) at hdata
    cases hdrain with
    | done hsame hidle hlen hsent =>
      rename_i s' sink'
      refine ⟨hsame.mode.trans h.mode, hsound, ?_⟩
      refine @Intact.between _ _ _ (frames ++ [part ++ s.writeBuf.drop s.writePos])
        (forall_mem_snoc hframes (.inl hdata)) ?_ ?_ (hsame.wholeReply hreply)
      · rw [hsent, haccepted, flatten_snoc, append_assoc]
      · intro hopen'
        rw [show s'.kept.needsFlush = false from hidle] at hopen'
        cases hopen'
    | kept hsame hopen'' hlen hpos'' hsent hrest =>
      refine ⟨hsame.mode.trans h.mode, hsound, ?_⟩
      rw [← hrest, ← append_assoc] at hdata
      apply intact_kept hframes _ (hopen''.trans hopen) hpos'' hdata (hsame.wholeReply hreply)
      rw [hsent, haccepted, append_assoc]

end Writes

section Replies

variable {client : Bool} {masks : Nat -> Mask} {s : WsByteStream} {sink : Sink}

theorem intact_stashed {k : Kept} {frames : List (List Byte)} {part accepted : List Byte}
    (hframes : forall frame, frame ∈ frames -> FrameBytes client frame)
    (haccepted : accepted = frames.flatten ++ part) (hpos : k.controlPos < k.control.length)
    (hreply : ControlBytes client (part ++ k.reply)) (hdata : k.WholeData client) :
    Intact client k accepted := by
  by_cases hpart : part = []
  · rw [hpart] at haccepted hreply
    rw [append_nil] at haccepted
    exact .between hframes haccepted hdata fun _ => ⟨hpos, hreply⟩
  · have hopen : k.control ≠ [] := by
      intro hnil
      rw [hnil] at hpos
      exact absurd hpos (Nat.not_lt_zero _)
    exact .inControl hframes hpart haccepted hopen hpos hreply hdata

theorem drainControl_sound (h : sink.Sound) : (drainControl s sink).2.2.Sound := by
  have hsink := h.drain s.pendingControlWrite s.pendingControlPos
  unfold drainControl
  split
  all_goals
    rename_i heq
    rw [heq] at hsink
    exact hsink

theorem drainControl_cases (hsound : sink.Sound)
    (hpos : s.pendingControlPos < s.pendingControlWrite.length) :
    (exists sink', drainControl s sink =
        (.ready (), { s with pendingControlWrite := [], pendingControlPos := 0 }, sink') ∧
      sink'.accepted = sink.accepted ++ s.kept.reply) ∨
      exists pos' more sink', drainControl s sink =
          (.pending, { s with pendingControlPos := pos' }, sink') ∧
        pos' < s.pendingControlWrite.length ∧ sink'.accepted = sink.accepted ++ more ∧
        more ++ s.pendingControlWrite.drop pos' = s.kept.reply := by
  rw [drainControl]
  cases hdrain : sink.drain s.pendingControlWrite s.pendingControlPos with
  | mk p sink' =>
    rcases hsound.drain_cases hpos hdrain with
      ⟨hp, haccepted⟩ | ⟨pos', more, hp | ⟨hp, hsame⟩, hpos', haccepted, hrest⟩
    · rw [hp]
      exact .inl ⟨sink', rfl, haccepted⟩
    · rw [hp]
      exact .inr ⟨pos', more, sink', rfl, hpos', haccepted, hrest⟩
    · rw [hp]
      refine .inr ⟨pos', more, sink', ?_, hpos', haccepted, hrest⟩
      rw [hsame]

theorem drainControl_good (h : Good client s sink) (hopen : s.pendingControlWrite ≠ [])
    (hclear : stashClear sink = true) :
    Good client (drainControl s sink).2.1 (drainControl s sink).2.2 := by
  have hsound := @drainControl_sound s sink h.sound
  have hintact := h.intact
  have hpos : s.pendingControlPos < s.pendingControlWrite.length := by
    cases hintact with
    | between hframes haccepted hdata hreply => exact (hreply hopen).1
    | inData hframes hpart haccepted hopen' hpos hdata hreply => exact (hreply hopen).1
    | inControl hframes hpart haccepted hopen' hpos hreply hdata => exact hpos
  cases hintact with
  | inData hframes hpart haccepted hopen' hpos' hdata hreply =>
    have hnot := stashClear.quiet hclear
      (cut_of_inData hframes hpart haccepted hpos' hdata).2
    obtain ⟨sink', hwrite, hsame⟩ :=
      pollWrite_of_not_accepts h.sound hnot (s.pendingControlWrite.drop s.pendingControlPos)
    have heq : drainControl s sink = (.pending, s, sink') := by
      rw [drainControl, Sink.drain, hwrite]
    rw [heq] at hsound ⊢
    refine ⟨h.mode, hsound, ?_⟩
    rw [hsame]
    exact .inData hframes hpart haccepted hopen' hpos' hdata hreply
  | between hframes haccepted hdata hreply =>
    rename_i frames
    have hframe := (hreply hopen).2
    rcases drainControl_cases h.sound hpos with
      ⟨sink', heq, hsent⟩ | ⟨pos', more, sink', heq, hpos', hsent, hrest⟩
    · rw [heq] at hsound ⊢
      refine ⟨h.mode, hsound, @Intact.between _ _ _ (frames ++ [s.kept.reply])
        (forall_mem_snoc hframes (.inr hframe)) ?_ hdata fun hne => absurd rfl hne⟩
      rw [hsent, haccepted, flatten_snoc]
    · rw [heq] at hsound ⊢
      rw [← hrest] at hframe
      refine ⟨h.mode, hsound, intact_stashed hframes ?_ hpos' hframe hdata⟩
      rw [hsent, haccepted]
  | inControl hframes hpart haccepted hopen' hpos' hreply hdata =>
    rename_i frames part
    rcases drainControl_cases h.sound hpos with
      ⟨sink', heq, hsent⟩ | ⟨pos', more, sink', heq, hpos', hsent, hrest⟩
    · rw [heq] at hsound ⊢
      refine ⟨h.mode, hsound, @Intact.between _ _ _ (frames ++ [part ++ s.kept.reply])
        (forall_mem_snoc hframes (.inr hreply)) ?_ hdata fun hne => absurd rfl hne⟩
      rw [hsent, haccepted, flatten_snoc, append_assoc]
    · rw [heq] at hsound ⊢
      rw [← hrest, ← append_assoc] at hreply
      refine ⟨h.mode, hsound, intact_stashed hframes ?_ hpos' hreply hdata⟩
      rw [hsent, haccepted, append_assoc]

/-- A reply goes out between frames, or is stashed whole. -/
theorem pollWriteControl_good (h : Good client s sink) {frame : List Byte}
    (hframe : ControlBytes client frame) (hclear : replyClear sink = true) :
    Good client (pollWriteControl s sink frame).2.1 (pollWriteControl s sink frame).2.2 := by
  have hlong := FrameBytes.length_pos (.inr hframe)
  have hsound := h.sound.pollWrite frame
  have hintact := h.intact
  rw [replyClear] at hclear
  cases haccepts : accepts sink with
  | false =>
    rw [haccepts, if_neg Bool.false_ne_true, Bool.not_eq_true'] at hclear
    obtain ⟨sink', hwrite, hsame⟩ := pollWrite_of_not_accepts h.sound haccepts frame
    rw [hwrite] at hsound
    rw [pollWriteControl, hwrite]
    refine ⟨h.mode, hsound, ?_⟩
    rw [hsame]
    cases hintact with
    | between hframes haccepted hdata hreply =>
      exact .between hframes haccepted hdata fun _ => ⟨hlong, hframe⟩
    | inData hframes hpart haccepted hopen hpos hdata hreply =>
      exact .inData hframes hpart haccepted hopen hpos hdata fun _ => ⟨hlong, hframe⟩
    | inControl hframes hpart haccepted hopen hpos hreply hdata =>
      rw [(cut_of_inControl hframes hpart haccepted hpos hreply).2] at hclear
      cases hclear
  | true =>
    rw [haccepts, if_pos rfl, decide_eq_true_iff] at hclear
    cases hintact with
    | inData hframes hpart haccepted hopen hpos hdata hreply =>
      exact absurd hclear (cut_of_inData hframes hpart haccepted hpos hdata).1
    | inControl hframes hpart haccepted hopen hpos hreply hdata =>
      exact absurd hclear (cut_of_inControl hframes hpart haccepted hpos hreply).1
    | between hframes haccepted hdata hreply =>
      rename_i frames
      rw [pollWriteControl]
      cases hwrite : sink.pollWrite frame with
      | mk o sink' =>
        rw [hwrite] at hsound
        cases o with
        | failed e => exact absurd hwrite fun hwrite => h.sound.not_failed hwrite
        | pending =>
          refine ⟨h.mode, hsound, ?_⟩
          rw [Sink.pollWrite_pending hwrite]
          exact .between hframes haccepted hdata fun _ => ⟨hlong, hframe⟩
        | ready n =>
          have hpos := h.sound.accepts hwrite (length_pos_iff.mp hlong)
          obtain ⟨_, hsent⟩ := Sink.pollWrite_ready hwrite
          dsimp only
          by_cases hall : frame.length ≤ n
          · rw [if_pos hall]
            refine ⟨h.mode, hsound, @Intact.between _ _ _ (frames ++ [frame])
              (forall_mem_snoc hframes (.inr hframe)) ?_ hdata hreply⟩
            rw [hsent, haccepted, flatten_snoc, take_of_length_le hall]
          · rw [if_neg hall, if_neg (by omega)]
            have hrest : ControlBytes client (frame.take n ++ frame.drop n) := by
              rw [take_append_drop]
              exact hframe
            refine ⟨h.mode, hsound, intact_stashed hframes ?_ ?_ hrest hdata⟩
            · rw [hsent, haccepted]
            · change 0 < (frame.drop n).length
              rw [length_drop]
              omega

end Replies

/-!
## Calls
-/

section Calls

variable {client : Bool} {masks : Nat -> Mask} {s : WsByteStream} {sink : Sink}

theorem draw_good (h : Good client s sink) : Good client s.draw sink := by
  have hkept : s.draw.kept = s.kept := by
    rw [draw]
    split
    · rfl
    · rfl
  refine ⟨(draw_same s).1.mode.trans h.mode, h.sound, ?_⟩
  rw [hkept]
  exact h.intact

def replies (frame : RawFrame) : Bool :=
  frame.opcode = 0x08 || frame.opcode = 0x09

theorem dispatchRawFrame_good (h : Good client s sink) (cap : Nat) (payload : List Byte)
    (hclear : replies s.rawFrame = true -> replyClear sink = true) :
    Good client (dispatchRawFrame masks s sink cap payload).2.1
      (dispatchRawFrame masks s sink cap payload).2.2 := by
  have hidle : Good client { s with rawReadState := .idle } sink := ⟨h.mode, h.sound, h.intact⟩
  rw [dispatchRawFrame]
  dsimp only
  split
  · exact hidle
  · split
    · split
      · exact hidle
      · split
        · exact ⟨h.mode, h.sound, h.intact⟩
        · split
          · exact ⟨h.mode, h.sound, h.intact⟩
          · exact hidle
    · split
      · rename_i hclose
        have hframe : ControlBytes client
            (buildControlFrame (masks s.drawn) 0x08 closePayload s.clientMode) := by
          rw [h.mode]
          exact ⟨_, _, _, .inl rfl, by decide, rfl⟩
        have hgood := pollWriteControl_good (draw_good hidle) hframe
          (hclear (by rw [replies, hclose]; rfl))
        split
        all_goals
          rename_i heq
          rw [heq] at hgood
          exact hgood
      · split
        · rename_i hping
          split
          · exact hidle
          · rename_i hshort
            have hframe : ControlBytes client
                (buildControlFrame (masks s.drawn) 0x0A payload s.clientMode) := by
              rw [h.mode]
              exact ⟨_, _, _, .inr rfl, Nat.not_lt.mp hshort, rfl⟩
            exact pollWriteControl_good (draw_good hidle) hframe
              (hclear (by rw [replies, hping]; rfl))
        · split
          · exact hidle
          · exact hidle

/-- A turn that completes a ping or a close finds the wire clear for the reply. -/
def turnClear (s : WsByteStream) (sink : Sink) (source : Source) : Bool :=
  if s.rawReadState = .idle then true
  else
    match source.pollRead (want s.rawFrame s.rawReadState) with
    | (.ready got, _) =>
      if got = [] then true
      else
        match advance s.clientMode s.rawFrame got s.rawReadState with
        | .complete _ frame => !replies frame || replyClear sink
        | _ => true
    | _ => true

def loopClear (masks : Nat -> Mask) (cap : Nat) :
    Nat -> WsByteStream -> Sink -> Source -> Nat -> Bool
  | 0, _, _, _, _ => true
  | fuel + 1, s, sink, source, idles =>
    turnClear s sink source &&
      match turn masks cap s sink source idles with
      | .again s sink source idles => loopClear masks cap fuel s sink source idles
      | .finish _ _ _ _ => true

def readClear (masks : Nat -> Mask) (s : WsByteStream) (sink : Sink) (source : Source) (cap : Nat) :
    Bool :=
  if s.readPos < s.readBuf.length then true
  else if s.pendingControlWrite ≠ [] then
    stashClear sink &&
      match drainControl s sink with
      | (.ready _, s, sink) => loopClear masks cap (loopFuel source) s sink source 0
      | _ => true
  else loopClear masks cap (loopFuel source) s sink source 0

def Turn.Good (client : Bool) : Turn -> Prop
  | .again s sink _ _ => WsByteStream.Good client s sink
  | .finish _ s sink _ => WsByteStream.Good client s sink

theorem turn_good (h : Good client s sink) (cap : Nat) (source : Source) (idles : Nat)
    (hclear : turnClear s sink source = true) :
    (turn masks cap s sink source idles).Good client := by
  rw [turnClear] at hclear
  rw [turn]
  by_cases hidle : s.rawReadState = .idle
  · rw [if_pos hidle]
    split
    · exact h
    · exact ⟨h.mode, h.sound, h.intact⟩
  · rw [if_neg hidle] at hclear ⊢
    split
    · exact h
    · exact h
    · rename_i got source' hread
      rw [hread] at hclear
      dsimp only at hclear
      by_cases hgot : got = []
      · rw [if_pos hgot]
        exact h
      · rw [if_neg hgot] at hclear ⊢
        split
        · exact ⟨h.mode, h.sound, h.intact⟩
        · exact ⟨h.mode, h.sound, h.intact⟩
        · exact ⟨h.mode, h.sound, h.intact⟩
        · rename_i payload frame hadvance
          rw [hadvance] at hclear
          have hgood : Good client { s with rawFrame := frame } sink :=
            ⟨h.mode, h.sound, h.intact⟩
          have hdispatch := @dispatchRawFrame_good client masks _ sink hgood cap payload
            (by
              intro hreplies
              dsimp only at hclear hreplies
              rw [hreplies, Bool.not_true, Bool.false_or] at hclear
              exact hclear)
          split
          all_goals
            rename_i heq
            rw [heq] at hdispatch
            exact hdispatch

theorem pollLoop_good (cap : Nat) {fuel : Nat} (h : Good client s sink) (source : Source)
    (idles : Nat) (hclear : loopClear masks cap fuel s sink source idles = true) :
    Good client (pollLoop masks cap fuel s sink source idles).2.1
      (pollLoop masks cap fuel s sink source idles).2.2.1 := by
  induction fuel generalizing s sink source idles with
  | zero => exact h
  | succ fuel ih =>
    rw [loopClear, Bool.and_eq_true] at hclear
    have hgood := @turn_good client masks s sink h cap source idles hclear.1
    have hlater := hclear.2
    rw [pollLoop]
    generalize turn masks cap s sink source idles = t at hgood hlater
    cases t with
    | again s' sink' source' idles' => exact ih hgood source' idles' hlater
    | finish o s' sink' source' => exact hgood

theorem pollRead_good (h : Good client s sink) (source : Source) (cap : Nat)
    (hclear : readClear masks s sink source cap = true) :
    Good client (pollRead masks s sink source cap).2.1
      (pollRead masks s sink source cap).2.2.1 := by
  rw [readClear] at hclear
  rw [pollRead]
  by_cases hserve : s.readPos < s.readBuf.length
  · rw [if_pos hserve]
    rw [serve]
    split
    · exact ⟨h.mode, h.sound, h.intact⟩
    · exact ⟨h.mode, h.sound, h.intact⟩
  · rw [if_neg hserve] at hclear ⊢
    by_cases hstash : s.pendingControlWrite ≠ []
    · rw [if_pos hstash] at hclear ⊢
      rw [Bool.and_eq_true] at hclear
      have hgood := drainControl_good h hstash hclear.1
      have hlater := hclear.2
      generalize drainControl s sink = answer at hgood hlater
      obtain ⟨o, s', sink'⟩ := answer
      cases o with
      | ready _ => exact pollLoop_good cap hgood source 0 hlater
      | pending => exact hgood
      | failed e => exact hgood
    · rw [if_neg hstash] at hclear ⊢
      exact pollLoop_good cap h source 0 hclear

def writeClear (s : WsByteStream) (sink : Sink) (buf : List Byte) : Bool :=
  s.drainCompleted || (!s.needsFlush && buf = []) || dataClear sink

theorem drainFrame_not_failed (h : Good client s sink) (hopen : s.needsFlush = true) {e : IoError}
    {s' : WsByteStream} {sink' : Sink} (heq : drainFrame s sink = (.failed e, s', sink')) :
    False := by
  have hpos : s.writePos < s.writeBuf.length := by
    cases h.intact with
    | between hframes haccepted hdata hreply => exact (hdata hopen).1
    | inData hframes hpart haccepted hopen' hpos hdata hreply => exact hpos
    | inControl hframes hpart haccepted hopen' hpos hreply hdata => exact (hdata hopen).1
  have hdrain := drainFrame_drained h.sound hpos
  rw [heq] at hdrain
  cases hdrain

theorem pollWrite_good (h : Good client s sink) {buf : List Byte} (hlen : buf.length < 2 ^ 64)
    (hclear : writeClear s sink buf = true) :
    Good client (pollWrite masks s sink buf).2.1 (pollWrite masks s sink buf).2.2 := by
  rw [pollWrite]
  rw [writeClear] at hclear
  by_cases hdrained : s.drainCompleted = true
  · rw [if_pos hdrained]
    exact ⟨h.mode, h.sound, h.intact⟩
  · rw [if_neg hdrained]
    rw [Bool.not_eq_true] at hdrained
    rw [hdrained, Bool.false_or] at hclear
    by_cases hopen : s.needsFlush = true
    · rw [hopen, Bool.not_true, Bool.false_and, Bool.false_or] at hclear
      rw [if_pos hopen]
      have hgood := drainFrame_good h hopen hclear
      split
      · rename_i heq
        rw [heq] at hgood
        exact hgood
      · rename_i heq
        exact absurd heq fun heq => drainFrame_not_failed h hopen heq
      · rename_i heq
        rw [heq] at hgood
        exact hgood
    · rw [if_neg hopen]
      rw [Bool.not_eq_true] at hopen
      by_cases hbuf : buf = []
      · rw [if_pos hbuf]
        exact h
      · rw [if_neg hbuf]
        rw [hopen, decide_eq_false hbuf, Bool.and_false, Bool.false_or] at hclear
        exact writeFrame_good h hopen hbuf hlen hclear

def flushClear (s : WsByteStream) (sink : Sink) : Bool :=
  !s.needsFlush || dataClear sink

theorem pollFlush_good (h : Good client s sink) (hclear : flushClear s sink = true) :
    Good client (pollFlush s sink).2.1 (pollFlush s sink).2.2 := by
  rw [pollFlush]
  by_cases hopen : s.needsFlush = true
  · rw [flushClear, hopen, Bool.not_true, Bool.false_or] at hclear
    rw [if_pos hopen]
    have hgood := drainFrame_good h hopen hclear
    split
    · rename_i heq
      rw [heq] at hgood
      exact ⟨hgood.mode, hgood.sound, hgood.intact⟩
    · rename_i heq
      exact absurd heq fun heq => drainFrame_not_failed h hopen heq
    · rename_i heq
      rw [heq] at hgood
      exact hgood
  · rw [if_neg hopen]
    exact h

theorem stashClear_of_idle (h : Good client s sink) (hidle : s.needsFlush = false) :
    stashClear sink = true := by
  have hcut : dataCut sink = false := by
    cases h.intact with
    | inData hframes hpart haccepted hopen hpos hdata hreply =>
      rw [show s.kept.needsFlush = s.needsFlush from rfl, hidle] at hopen
      cases hopen
    | inControl hframes hpart haccepted hopen hpos hreply hdata =>
      have hcontrol := (cut_of_inControl hframes hpart haccepted hpos hreply).2
      rw [controlCut, Bool.and_eq_true, Bool.not_eq_true'] at hcontrol
      exact hcontrol.2
    | between hframes haccepted hdata hreply =>
      have hclose : ControlBytes client (buildControlFrame ⟨0, 0, 0, 0⟩ 0x08 [] client) :=
        ⟨_, _, _, .inl rfl, Nat.zero_le _, rfl⟩
      have hnone := @cutFrame_eq client sink _ [] _ hframes
        (by rw [append_nil]; exact haccepted)
        (length_pos_iff.mp (FrameBytes.length_pos (.inr hclose))) (.inr hclose)
      rw [dataCut, hnone]
      rfl
  rw [stashClear, hcut, Bool.not_false, Bool.or_true]

theorem shutdownControl_good (h : Good client s sink) (hidle : s.needsFlush = false) :
    Good client (shutdownControl masks s sink).2.1 (shutdownControl masks s sink).2.2 := by
  rw [shutdownControl]
  generalize hstate : (if s.pendingControlWrite = [] then
      { s.draw with
        pendingControlWrite := buildControlFrame (masks s.drawn) 0x08 closePayload s.clientMode
        pendingControlPos := 0 }
    else s) = s'
  have hstash : Good client s' sink ∧ s'.pendingControlWrite ≠ [] := by
    rw [← hstate]
    by_cases hnone : s.pendingControlWrite = []
    · rw [if_pos hnone]
      have hframe : ControlBytes client
          (buildControlFrame (masks s.drawn) 0x08 closePayload s.clientMode) := by
        rw [h.mode]
        exact ⟨_, _, _, .inl rfl, by decide, rfl⟩
      have hlong := FrameBytes.length_pos (.inr hframe)
      have hdraw := draw_good h
      refine ⟨⟨hdraw.mode, h.sound, ?_⟩, length_pos_iff.mp hlong⟩
      have hflush : s.draw.needsFlush = false := (draw_same s).2.trans hidle
      have hwhole : forall k : Kept, k.needsFlush = false -> k.WholeData client := by
        intro k hk hopen
        rw [hk] at hopen
        cases hopen
      cases h.intact with
      | inData hframes hpart haccepted hopen hpos hdata hreply =>
        rw [show s.kept.needsFlush = s.needsFlush from rfl, hidle] at hopen
        cases hopen
      | inControl hframes hpart haccepted hopen hpos hreply hdata => exact absurd hnone hopen
      | between hframes haccepted hdata hreply =>
        exact .between hframes haccepted (hwhole _ hflush) fun _ => ⟨hlong, hframe⟩
    · rw [if_neg hnone]
      exact ⟨h, hnone⟩
  have hgood := drainControl_good hstash.1 hstash.2 (stashClear_of_idle h hidle)
  split
  · rename_i heq
    rw [heq] at hgood
    refine ⟨hgood.mode, hgood.sound.pollFlush, ?_⟩
    rw [Sink.pollFlush_accepted]
    exact hgood.intact
  · rename_i heq
    rw [heq] at hgood
    exact hgood
  · rename_i heq
    rw [heq] at hgood
    exact hgood

theorem pollShutdown_good (h : Good client s sink) (hclear : flushClear s sink = true) :
    Good client (pollShutdown masks s sink).2.1 (pollShutdown masks s sink).2.2 := by
  rw [pollShutdown]
  by_cases hopen : s.needsFlush = true
  · rw [flushClear, hopen, Bool.not_true, Bool.false_or] at hclear
    rw [if_pos hopen]
    have hgood := drainFrame_good h hopen hclear
    split
    · rename_i s' sink' heq
      rw [heq] at hgood
      refine shutdownControl_good hgood ?_
      rw [drainFrame] at heq
      split at heq
      all_goals
        cases heq
      rfl
    · rename_i heq
      exact absurd heq fun heq => drainFrame_not_failed h hopen heq
    · rename_i heq
      rw [heq] at hgood
      exact hgood
  · rw [if_neg hopen]
    exact shutdownControl_good h (Bool.not_eq_true _ ▸ hopen)

end Calls

/-!
## Runs
-/

/-- A stream with both directions of its inner stream. -/
structure Duplex where
  stream : WsByteStream
  sink : Sink
  source : Source
deriving DecidableEq

inductive Op where
  | read (cap : Nat)
  | write (buf : List Byte)
  | flush
  | shutdown
deriving DecidableEq

def Duplex.start (tcp client : Bool) (script : List WriteEvent) (reads : List ReadEvent) :
    Duplex where
  stream := fromRaw tcp client
  sink := ⟨[], script⟩
  source := ⟨reads⟩

def Duplex.step (masks : Nat -> Mask) (d : Duplex) : Op -> Duplex
  | .read cap =>
    let r := pollRead masks d.stream d.sink d.source cap
    ⟨r.2.1, r.2.2.1, r.2.2.2⟩
  | .write buf =>
    let r := pollWrite masks d.stream d.sink buf
    ⟨r.2.1, r.2.2, d.source⟩
  | .flush =>
    let r := pollFlush d.stream d.sink
    ⟨r.2.1, r.2.2, d.source⟩
  | .shutdown =>
    let r := pollShutdown masks d.stream d.sink
    ⟨r.2.1, r.2.2, d.source⟩

/-- The call gets no bytes of one frame accepted while another is cut, and no reply takes the
place of a cut control frame.  A buffer has a length of 64 bits. -/
def Duplex.Clear (masks : Nat -> Mask) (d : Duplex) : Op -> Prop
  | .read cap => readClear masks d.stream d.sink d.source cap = true
  | .write buf => buf.length < 2 ^ 64 ∧ writeClear d.stream d.sink buf = true
  | .flush => flushClear d.stream d.sink = true
  | .shutdown => flushClear d.stream d.sink = true

instance (masks : Nat -> Mask) (d : Duplex) : (op : Op) -> Decidable (d.Clear masks op)
  | .read _ => inferInstanceAs (Decidable (_ = true))
  | .write _ => inferInstanceAs (Decidable (_ ∧ _))
  | .flush => inferInstanceAs (Decidable (_ = true))
  | .shutdown => inferInstanceAs (Decidable (_ = true))

theorem Duplex.step_good {client : Bool} {masks : Nat -> Mask} (d : Duplex) (op : Op)
    (h : Good client d.stream d.sink) (hclear : d.Clear masks op) :
    Good client (d.step masks op).stream (d.step masks op).sink := by
  cases op with
  | read cap => exact pollRead_good h d.source cap hclear
  | write buf => exact pollWrite_good h hclear.1 hclear.2
  | flush => exact pollFlush_good h hclear
  | shutdown => exact pollShutdown_good h hclear

def FramePrefix (client : Bool) (bytes : List Byte) : Prop :=
  exists frames : List (List Byte), (forall frame, frame ∈ frames -> FrameBytes client frame) ∧
    bytes <+: frames.flatten

theorem Intact.framePrefix {client : Bool} {k : Kept} {accepted : List Byte}
    (h : Intact client k accepted) : FramePrefix client accepted := by
  cases h with
  | between hframes haccepted hdata hreply => exact ⟨_, hframes, haccepted ▸ prefix_rfl⟩
  | inData hframes hpart haccepted hopen hpos hdata hreply =>
    refine ⟨_, forall_mem_snoc hframes (.inl hdata), k.data, ?_⟩
    rw [haccepted, flatten_snoc, append_assoc]
  | inControl hframes hpart haccepted hopen hpos hreply hdata =>
    refine ⟨_, forall_mem_snoc hframes (.inr hreply), k.reply, ?_⟩
    rw [haccepted, flatten_snoc, append_assoc]

/-- Frames stay intact along every run of clear calls, and the rest of a cut frame is kept. -/
theorem framePrefix_of_clear (masks : Nat -> Mask) (tcp client : Bool) {script : List WriteEvent}
    (hscript : Sink.Sound ⟨[], script⟩) (reads : List ReadEvent) (ops : List Op)
    (hops : Run.Along (Duplex.step masks) (Duplex.Clear masks)
      (Duplex.start tcp client script reads) ops) :
    FramePrefix client
        (Run.run (Duplex.step masks) (Duplex.start tcp client script reads) ops).sink.accepted ∧
      Intact client
        (Run.run (Duplex.step masks) (Duplex.start tcp client script reads) ops).stream.kept
        (Run.run (Duplex.step masks) (Duplex.start tcp client script reads) ops).sink.accepted := by
  have hstart : Good client (Duplex.start tcp client script reads).stream
      (Duplex.start tcp client script reads).sink := by
    refine ⟨rfl, hscript, @Intact.between _ _ _ [] ?_ rfl ?_ ?_⟩
    · intro frame hmem
      cases hmem
    · intro hopen
      cases hopen
    · intro hne
      exact absurd rfl hne
  have hgood := Run.run_invariant (@Duplex.step_good client masks) hstart hops
  exact ⟨hgood.intact.framePrefix, hgood.intact⟩

/-- A frame is sent in two parts; then a ping is answered, and the stream is shut down. -/
theorem framePrefix_of_clear_sample :
    FramePrefix false
        (Run.run (Duplex.step fun _ => sampleMask)
          (Duplex.start true false [.accept 3, .pending, .accept 9, .accept 9, .accept 1]
            [.chunk [0x89, 0x80], .chunk [0, 0, 0, 0]])
          [.write [1, 2, 3, 4, 5], .flush, .flush, .read 8, .shutdown]).sink.accepted ∧
      Intact false
        (Run.run (Duplex.step fun _ => sampleMask)
          (Duplex.start true false [.accept 3, .pending, .accept 9, .accept 9, .accept 1]
            [.chunk [0x89, 0x80], .chunk [0, 0, 0, 0]])
          [.write [1, 2, 3, 4, 5], .flush, .flush, .read 8, .shutdown]).stream.kept
        (Run.run (Duplex.step fun _ => sampleMask)
          (Duplex.start true false [.accept 3, .pending, .accept 9, .accept 9, .accept 1]
            [.chunk [0x89, 0x80], .chunk [0, 0, 0, 0]])
          [.write [1, 2, 3, 4, 5], .flush, .flush, .read 8, .shutdown]).sink.accepted :=
  framePrefix_of_clear _ _ _ (by decide) _ _ (by decide)

theorem FramePrefix.next {client : Bool} {bytes : List Byte} {n : Nat}
    (h : FramePrefix client bytes) (hlen : frameLen bytes = some n) :
    FramePrefix client (bytes.drop n) := by
  obtain ⟨frames, hframes, more, hmore⟩ := h
  cases frames with
  | nil =>
    rw [flatten_nil, append_eq_nil_iff] at hmore
    rw [hmore.1] at hlen
    cases hlen
  | cons frame frames =>
    have hwhole := (hframes frame mem_cons_self).frameLen frames.flatten
    rw [flatten_cons] at hmore
    rw [← hmore, frameLen_append hlen, Option.some.injEq] at hwhole
    refine ⟨frames, fun f hmem => hframes f (mem_cons_of_mem frame hmem), ?_⟩
    have hdrop := congrArg (drop n) hmore
    rw [drop_append, hwhole, drop_left] at hdrop
    exact hwhole ▸ ⟨_, hdrop⟩

theorem FramePrefix.head {client : Bool} {b : Byte} {bytes : List Byte}
    (h : FramePrefix client (b :: bytes)) : b = 0x82 ∨ b = 0x88 ∨ b = 0x8A := by
  obtain ⟨frames, hframes, more, hmore⟩ := h
  cases frames with
  | nil => cases hmore
  | cons frame frames =>
    rcases hframes frame mem_cons_self with
      ⟨mask, buf, _, _, heq⟩ | ⟨mask, opcode, payload, hopcode, _, heq⟩
    · rw [heq, buildFrameInto] at hmore
      left
      split at hmore
      · exact (cons.inj hmore).1
      · exact (cons.inj hmore).1
    · rw [heq, buildControlFrame] at hmore
      right
      rw [(cons.inj hmore).1]
      rcases hopcode with hopcode | hopcode
      · rw [hopcode]
        exact .inl (by decide)
      · rw [hopcode]
        exact .inr (by decide)

/-- A server has sent three bytes of a frame when a ping arrives: the reply goes into the
middle of the frame. -/
theorem pong_inside_data_frame :
    Sink.Sound ⟨[], [.accept 3, .accept 9, .accept 9]⟩ ∧
      ¬ FramePrefix false
        (Run.run (Duplex.step fun _ => sampleMask)
          (Duplex.start true false [.accept 3, .accept 9, .accept 9]
            [.chunk [0x89, 0x80], .chunk [0, 0, 0, 0]])
          [.write [1, 2, 3, 4, 5], .read 8, .flush]).sink.accepted := by
  refine ⟨by decide, ?_⟩
  have hwire : (Run.run (Duplex.step fun _ => sampleMask)
      (Duplex.start true false [.accept 3, .accept 9, .accept 9]
        [.chunk [0x89, 0x80], .chunk [0, 0, 0, 0]])
      [.write [1, 2, 3, 4, 5], .read 8, .flush]).sink.accepted =
        [0x82, 5, 1, 0x8A, 0, 2, 3, 4, 5] := by decide
  intro h
  have hhead := (h.next (show frameLen _ = some 7 from by decide)).head
  revert hhead
  decide

end WsByteStream

end Stream
end FrpRs
