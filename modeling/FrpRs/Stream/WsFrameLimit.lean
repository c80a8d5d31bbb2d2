import FrpRs.Stream.WsRoundTrip

/-!
# The size of WebSocket frames

`poll_write` of `WsByteStream` makes one frame of whatever it is given, on each of its framing
paths.  Only `poll_read` looks at the size, and it refuses a frame above the limit.
-/

namespace FrpRs
namespace Stream
namespace WsByteStream

open List Bytes Poll

/-!
## What a write emits
-/

def unsent (s : WsByteStream) : List Byte :=
  if s.needsFlush then s.writeBuf.drop s.writePos else []

def Emits (masks : Nat -> Mask) (s : WsByteStream) (sink : Sink) (buf frame : List Byte) : Prop :=
  (pollWrite masks s sink buf).2.2.accepted ++ unsent (pollWrite masks s sink buf).2.1 =
    sink.accepted ++ unsent s ++ frame

/-- A stream of the other mode reads the bytes without an error, however they arrive. -/
def Accepted (client : Bool) (frame : List Byte) : Prop :=
  forall masks tcp replies reads caps, Source.Sound ⟨reads⟩ -> Source.bytes ⟨reads⟩ = frame ->
    (forall cap, cap ∈ caps -> 0 < cap) ->
    forall e, (Run.run (wsReader masks).step
      (Reading.start (fromRaw tcp (!client), replies) reads) caps).ending ≠ some (.failed e)

theorem buildFrameInto_ne_nil (mask : Mask) (buf : List Byte) (client : Bool) :
    buildFrameInto mask buf client ≠ [] := by
  rw [buildFrameInto]
  split
  · exact cons_ne_nil _ _
  · exact cons_ne_nil _ _

variable {masks : Nat -> Mask} {s : WsByteStream} {sink : Sink} {buf : List Byte}

theorem unsent_idle (h : s.needsFlush = false) : unsent s = [] := by
  rw [unsent, h]
  rfl

theorem draw_needsFlush (s : WsByteStream) : s.draw.needsFlush = s.needsFlush := by
  rw [draw]
  split
  · rfl
  · rfl

theorem buildFrameInto_vectored (mask : Mask) (buf : List Byte)
    (hvectored : (!s.clientMode && s.tcp) = true) :
    buildFrameInto mask buf s.clientMode = buildServerFrameHeader buf.length ++ buf := by
  rw [Bool.and_eq_true, Bool.not_eq_true'] at hvectored
  rw [buildFrameInto, hvectored.1]
  rfl

/-- The whole buffer goes into one frame, or nothing is emitted. -/
theorem writeFrame_emits (masks : Nat -> Mask) (sink : Sink) (buf : List Byte)
    (hidle : s.needsFlush = false) :
    exists frame, (frame = [] ∨ frame = buildFrameInto (masks s.drawn) buf s.clientMode) ∧
      (writeFrame masks s sink buf).2.2.accepted ++ unsent (writeFrame masks s sink buf).2.1 =
        sink.accepted ++ frame := by
  have hquiet := unsent_idle hidle
  rw [writeFrame]
  by_cases hvectored : (!s.clientMode && s.tcp) = true
  · rw [if_pos hvectored, buildFrameInto_vectored _ _ hvectored]
    dsimp only
    generalize buildServerFrameHeader buf.length = hdr
    cases hwrite : sink.pollWrite (hdr ++ buf) with
    | mk o sink' =>
      cases o with
      | pending => exact ⟨[], .inl rfl, by rw [hquiet, Sink.pollWrite_pending hwrite]⟩
      | failed e => exact ⟨[], .inl rfl, by rw [hquiet, Sink.pollWrite_failed hwrite]⟩
      | ready n =>
        rcases Sink.pollWrite_ready hwrite with ⟨_, haccepted⟩
        refine ⟨hdr ++ buf, .inr rfl, ?_⟩
        dsimp only
        by_cases hall : hdr.length + buf.length ≤ n
        · rw [if_pos hall, hquiet, append_nil, haccepted,
            take_of_length_le (by rw [length_append]; exact hall)]
        · have hkept : (if n < hdr.length then hdr.drop n ++ buf
              else buf.drop (n - hdr.length)) = (hdr ++ buf).drop n := by
            split
            · rw [drop_append_of_le_length (by omega)]
            · have hnil : hdr.drop n = [] := drop_eq_nil_of_le (by omega)
              rw [drop_append, hnil, nil_append]
          rw [if_neg hall, unsent, if_pos rfl]
          rw [hkept, drop_zero, haccepted, append_assoc, take_append_drop]
  · rw [if_neg hvectored]
    dsimp only
    generalize buildFrameInto (masks s.drawn) buf s.clientMode = frame
    have hdraw : s.draw.needsFlush = false := by
      rw [draw_needsFlush]
      exact hidle
    cases hwrite : sink.pollWrite frame with
    | mk o sink' =>
      cases o with
      | failed e =>
        refine ⟨[], .inl rfl, ?_⟩
        rw [unsent]
        rw [hdraw, if_neg Bool.false_ne_true, Sink.pollWrite_failed hwrite]
      | pending =>
        refine ⟨frame, .inr rfl, ?_⟩
        rw [unsent, if_pos rfl, Sink.pollWrite_pending hwrite]
        rfl
      | ready n =>
        rcases Sink.pollWrite_ready hwrite with ⟨_, haccepted⟩
        refine ⟨frame, .inr rfl, ?_⟩
        dsimp only
        by_cases hall : frame.length ≤ n
        · rw [if_pos hall, unsent]
          rw [hdraw, if_neg Bool.false_ne_true, haccepted, take_of_length_le hall,
            append_nil]
        · rw [if_neg hall, unsent, if_pos rfl]
          rw [haccepted, append_assoc, take_append_drop]

theorem eq_nil_of_append {a b frame : List Byte} (h : a ++ b = a ++ b ++ frame) : frame = [] :=
  append_right_eq_self.mp h.symm

/-- A call that continues a frame, or that is given nothing, starts no frame. -/
theorem emits_nothing (h : s.drainCompleted = true ∨ s.needsFlush = true ∨ buf = [])
    {frame : List Byte} (hemits : Emits masks s sink buf frame) : frame = [] := by
  rw [Emits, pollWrite] at hemits
  by_cases hcompleted : s.drainCompleted = true
  · rw [if_pos hcompleted] at hemits
    exact eq_nil_of_append hemits
  · rw [if_neg hcompleted] at hemits
    by_cases hopen : s.needsFlush = true
    · have hunsent : unsent s = s.writeBuf.drop s.writePos := by rw [unsent, if_pos hopen]
      rw [if_pos hopen, drainFrame] at hemits
      cases hdrain : sink.drain s.writeBuf s.writePos with
      | mk p sink' =>
        have haccepted := Sink.drain_accepted hdrain
        rw [hdrain, hunsent] at hemits
        cases p with
        | pending =>
          rw [Progress.rest] at haccepted
          rw [hunsent, haccepted] at hemits
          exact eq_nil_of_append hemits
        | failed e =>
          rw [append_cancel_right haccepted, unsent_idle rfl, append_assoc] at hemits
          have hnil := append_cancel_left hemits.symm
          exact (append_eq_nil_iff.mp hnil).2
        | part pos =>
          rw [Progress.rest] at haccepted
          rw [unsent, if_pos hopen] at hemits
          rw [haccepted] at hemits
          exact eq_nil_of_append hemits
        | done =>
          rw [Progress.rest, append_nil] at haccepted
          rw [unsent_idle rfl, append_nil, haccepted] at hemits
          exact append_right_eq_self.mp hemits.symm
    · have hbuf : buf = [] := by
        rcases h with h | h | h
        · exact absurd h hcompleted
        · exact absurd h hopen
        · exact h
      rw [if_neg hopen, if_pos hbuf] at hemits
      exact eq_nil_of_append hemits

theorem emits_frame (hcompleted : s.drainCompleted = false) (hidle : s.needsFlush = false)
    {frame : List Byte} (hbuf : buf ≠ []) (hemits : Emits masks s sink buf frame) :
    frame = [] ∨ frame = buildFrameInto (masks s.drawn) buf s.clientMode := by
  rcases writeFrame_emits masks sink buf hidle with ⟨frame', hframe', hwrites⟩
  rw [Emits, pollWrite, if_neg (by rw [hcompleted]; exact Bool.false_ne_true),
    if_neg (by rw [hidle]; exact Bool.false_ne_true), if_neg hbuf, unsent_idle hidle,
    append_nil, hwrites] at hemits
  rw [<- append_cancel_left hemits]
  exact hframe'

/-!
## What the other side reads
-/

theorem accepted_short {client : Bool} {mask : Mask} (hbuf : buf ≠ [])
    (hshort : buf.length ≤ maxWsFramePayload) :
    Accepted client (buildFrameInto mask buf client) := by
  intro masks tcp replies reads caps hreads hbytes hcaps e hend
  have hcut : PartialFrame client [] :=
    ⟨⟨mask, buf, hbuf, hshort⟩, _, buildFrameInto_ne_nil mask buf client, rfl⟩
  have hinv : Reads client (fromRaw tcp (!client), replies) ⟨reads⟩
      (framePayloads [⟨mask, buf, hbuf, hshort⟩]) := by
    refine ⟨hreads, rfl, rfl, _, rfl,
      @Stage.boundary _ _ _ _ _ [⟨mask, buf, hbuf, hshort⟩] [] rfl hcut ?_ rfl⟩
    rw [hbytes, append_nil, encodeFrames, flatMap_singleton]
    rfl
  have hpolls : Run.Along (wsReader masks).step (Reading.Polls fun _ _ cap => 0 < cap)
      (Reading.start (fromRaw tcp (!client), replies) reads) caps :=
    Run.along_of_forall fun _ cap hmem _ => hcaps cap hmem
  rcases (serves client masks).run hinv hpolls with ⟨hnone, _⟩ | ⟨e', hend', hfinal, _⟩
  · rw [hend] at hnone
    cases hnone
  · rw [hend] at hend'
    cases hend'
    cases hfinal

theorem buildFrameInto_long (client : Bool) (mask : Mask) (hlong : maxWsFramePayload < buf.length) :
    exists body, buildFrameInto mask buf client =
      0x82 :: (DataFrame.flag client ||| UInt8.ofNat 127) :: (beBytes 8 buf.length ++ body) := by
  have hfield : forall flag : Byte, lengthField flag buf.length =
      (flag ||| 127) :: beBytes 8 buf.length := by
    intro flag
    rw [maxWsFramePayload] at hlong
    rw [lengthField, if_neg (by omega), if_neg (by omega)]
  cases client with
  | true =>
    refine ⟨mask.bytes ++ xorMask mask buf, ?_⟩
    rw [buildFrameInto, if_pos rfl, hfield]
    rfl
  | false =>
    refine ⟨buf, ?_⟩
    rw [buildFrameInto, if_neg Bool.false_ne_true, hfield]
    rfl

section Refusal

variable {client : Bool} {cap idles : Nat} {source source' : Source} {got : List Byte}

theorem turn_idle (hidle : s.rawReadState = .idle) (hfew : idles < maxNoProgressFramesPerPoll) :
    turn masks cap s sink source idles =
      .again { s with rawReadState := .readingHeader [] } sink source (idles + 1) := by
  rw [turn, if_pos hidle, if_neg (Nat.not_lt.mpr hfew)]

theorem turn_next {st : RawReadState} {frame : RawFrame} (hidle : s.rawReadState ≠ .idle)
    (hread : source.pollRead (want s.rawFrame s.rawReadState) = (.ready got, source'))
    (hgot : got ≠ [])
    (hadvance : advance s.clientMode s.rawFrame got s.rawReadState = .next st frame) :
    turn masks cap s sink source idles =
      .again { s with rawReadState := st, rawFrame := frame } sink source' idles := by
  rw [turn, if_neg hidle, hread]
  dsimp only
  rw [if_neg hgot, hadvance]

theorem turn_bad {e : IoError} {frame : RawFrame} (hidle : s.rawReadState ≠ .idle)
    (hread : source.pollRead (want s.rawFrame s.rawReadState) = (.ready got, source'))
    (hgot : got ≠ [])
    (hadvance : advance s.clientMode s.rawFrame got s.rawReadState = .bad e frame) :
    turn masks cap s sink source idles =
      .finish (.failed e) { s with rawReadState := .idle, rawFrame := frame } sink source' := by
  rw [turn, if_neg hidle, hread]
  dsimp only
  rw [if_neg hgot, hadvance]

theorem advance_longLength {len : Nat} (frame : RawFrame) (hlong : maxWsFramePayload < len)
    (hlength : len < 2 ^ 64) :
    advance (!client) frame (beBytes 8 len) (.readingExtendedLen8 []) =
      .bad (invalidData "WS frame too large") frame := by
  have hlen : ofBeBytes (beBytes 8 len) = len := by
    rw [ofBeBytes_beBytes, Nat.mod_eq_of_lt]
    exact hlength
  rw [advance, nil_append, if_neg (by rw [beBytes_length]; decide), hlen, lengthKnown,
    if_pos hlong]

theorem advance_longHeader (client : Bool) (frame : RawFrame) :
    advance (!client) frame [0x82, DataFrame.flag client ||| UInt8.ofNat 127] (.readingHeader []) =
      .next (.readingExtendedLen8 []) { frame with opcode := 2, masked := client } := by
  have hfull : ¬ ([] ++ [0x82, DataFrame.flag client ||| UInt8.ofNat 127]).length < 2 :=
    Nat.lt_irrefl 2
  rw [advance, if_neg hfull]
  have hknown := headerKnown_inbound client
    (DataFrame.inbound ⟨⟨0, 0, 0, 0⟩, [0], by decide, by decide⟩) frame (n := 127) (by decide)
  exact hknown

theorem pollRead_frame {header field body : List Byte} (hheader : header.length = 2)
    (hfield : field ≠ []) :
    Source.pollRead ⟨[.chunk (header ++ (field ++ body))]⟩ 2 =
      (.ready header, ⟨[.chunk (field ++ body)]⟩) := by
  have hpos := length_pos_iff.mpr hfield
  rw [Source.pollRead]
  dsimp only
  rw [if_neg, take_left' hheader, drop_left' hheader]
  rw [length_append, length_append]
  omega

theorem pollRead_field {field body : List Byte} (hfield : field.length = 8) :
    exists source', Source.pollRead ⟨[.chunk (field ++ body)]⟩ 8 = (.ready field, source') := by
  rw [Source.pollRead]
  dsimp only
  rw [take_left' hfield]
  exact ⟨_, rfl⟩

/-- The loop refuses a frame above the limit in its third turn. -/
theorem pollLoop_long {len : Nat} {body : List Byte} (fuel : Nat) (hmode : s.clientMode = !client)
    (hidle : s.rawReadState = .idle) (hlong : maxWsFramePayload < len) (hlength : len < 2 ^ 64) :
    (pollLoop masks cap (fuel + 3) s sink
      ⟨[.chunk ([0x82, DataFrame.flag client ||| UInt8.ofNat 127] ++ (beBytes 8 len ++ body))]⟩
      0).1 = .failed (invalidData "WS frame too large") := by
  have hfield : (beBytes 8 len).length = 8 := beBytes_length 8 len
  have hnonempty : beBytes 8 len ≠ [] := by
    rw [<- length_pos_iff, hfield]
    decide
  rcases @pollRead_field _ body hfield with ⟨source', hread⟩
  have hheader : advance s.clientMode s.rawFrame [0x82, DataFrame.flag client ||| UInt8.ofNat 127]
      (.readingHeader []) =
        .next (.readingExtendedLen8 []) { s.rawFrame with opcode := 2, masked := client } := by
    rw [hmode]
    exact advance_longHeader client _
  have hrefused : advance s.clientMode { s.rawFrame with opcode := 2, masked := client }
      (beBytes 8 len) (.readingExtendedLen8 []) =
        .bad (invalidData "WS frame too large")
          { s.rawFrame with opcode := 2, masked := client } := by
    rw [hmode]
    exact advance_longLength _ hlong hlength
  rw [pollLoop, turn_idle hidle (by decide)]
  dsimp only
  rw [pollLoop, turn_next RawReadState.noConfusion (pollRead_frame rfl hnonempty)
    (cons_ne_nil _ _) hheader]
  dsimp only
  have hturn := @turn_bad masks
    { s with
      rawReadState := .readingExtendedLen8 []
      rawFrame := { s.rawFrame with opcode := 2, masked := client } }
    sink cap 1 _ source' _ _ _ RawReadState.noConfusion hread hnonempty hrefused
  rw [pollLoop, hturn]

theorem pollRead_long (client tcp : Bool) (masks : Nat -> Mask) (mask : Mask) (replies : Sink)
    (cap : Nat) (hlong : maxWsFramePayload < buf.length) (hlength : buf.length < 2 ^ 64) :
    (pollRead masks (fromRaw tcp (!client)) replies ⟨[.chunk (buildFrameInto mask buf client)]⟩
      cap).1 = .failed (invalidData "WS frame too large") := by
  rcases buildFrameInto_long client mask hlong with ⟨body, hframe⟩
  have hfuel : 3 ≤ loopFuel ⟨[.chunk (buildFrameInto mask buf client)]⟩ := by
    rw [loopFuel, Source.weight_cons]
    omega
  rcases Nat.exists_eq_add_of_le' hfuel with ⟨fuel, hfuel⟩
  have hserved : ¬ (fromRaw tcp (!client)).readPos < (fromRaw tcp (!client)).readBuf.length :=
    Nat.lt_irrefl 0
  rw [pollRead, if_neg hserved, if_neg (fun h => h rfl), hfuel, hframe]
  exact pollLoop_long fuel rfl rfl hlong hlength

theorem step_failed {s : Reading (WsByteStream × Sink)} {cap : Nat} {e : IoError}
    (hopen : s.ending = none)
    (hpoll : (pollRead masks s.state.1 s.state.2 s.source cap).1 = .failed e) :
    ((wsReader masks).step s cap).ending = some (.failed e) := by
  rw [Reader.step]
  generalize hanswer : (wsReader masks).pollRead s.state s.source cap = answer
  have hfailed : answer.1 = .failed e := by
    rw [<- hanswer]
    exact hpoll
  rcases answer with ⟨o, state, source⟩
  cases o with
  | pending => cases hfailed
  | ready got => cases hfailed
  | failed e' =>
    cases hfailed
    dsimp only
    rw [hopen, Option.none_or]

theorem not_accepted_long (client : Bool) (mask : Mask) (hlong : maxWsFramePayload < buf.length)
    (hlength : buf.length < 2 ^ 64) : ¬ Accepted client (buildFrameInto mask buf client) := by
  intro haccepted
  have hpoll := pollRead_long client false (fun _ => mask) mask ⟨[], []⟩ 1 hlong hlength
  refine haccepted (fun _ => mask) false ⟨[], []⟩ [.chunk (buildFrameInto mask buf client)] [1]
    ?_ ?_ ?_ _ (step_failed rfl hpoll)
  · intro event hmem
    rw [mem_singleton.mp hmem]
    exact buildFrameInto_ne_nil mask buf client
  · exact append_nil _
  · intro cap hmem
    rw [mem_singleton.mp hmem]
    decide

end Refusal

/-!
## Both ends
-/

def FramesAccepted (masks : Nat -> Mask) (s : WsByteStream) (buf : List Byte) : Prop :=
  forall sink frame, Emits masks s sink buf frame -> frame ≠ [] -> Accepted s.clientMode frame

theorem writeFrame_sink (masks : Nat -> Mask) (s : WsByteStream) (sink : Sink) (buf : List Byte) :
    (writeFrame masks s sink buf).2.2 =
      (sink.pollWrite (buildFrameInto (masks s.drawn) buf s.clientMode)).2 := by
  rw [writeFrame]
  by_cases hvectored : (!s.clientMode && s.tcp) = true
  · rw [if_pos hvectored, buildFrameInto_vectored _ _ hvectored]
    dsimp only
    cases sink.pollWrite (buildServerFrameHeader buf.length ++ buf) with
    | mk o sink' =>
      cases o with
      | pending => rfl
      | failed e => rfl
      | ready n =>
        dsimp only
        split
        · rfl
        · rfl
  · rw [if_neg hvectored]
    dsimp only
    cases sink.pollWrite (buildFrameInto (masks s.drawn) buf s.clientMode) with
    | mk o sink' =>
      cases o with
      | pending => rfl
      | failed e => rfl
      | ready n =>
        dsimp only
        split
        · rfl
        · rfl

theorem emits_whole (masks : Nat -> Mask) (hcompleted : s.drainCompleted = false)
    (hidle : s.needsFlush = false) (hbuf : buf ≠ []) :
    Emits masks s ⟨[], [.accept 1]⟩ buf (buildFrameInto (masks s.drawn) buf s.clientMode) := by
  rcases writeFrame_emits masks ⟨[], [.accept 1]⟩ buf hidle with ⟨frame, hframe, hwrites⟩
  have hsink := writeFrame_sink masks s ⟨[], [.accept 1]⟩ buf
  rcases hframe with hnone | hframe
  · rw [hnone, hsink] at hwrites
    have htaken : (buildFrameInto (masks s.drawn) buf s.clientMode).take 1 = [] :=
      (append_eq_nil_iff.mp hwrites).1
    rcases take_eq_nil_iff.mp htaken with hzero | hnil
    · cases hzero
    · exact absurd hnil (buildFrameInto_ne_nil _ _ _)
  · rw [hframe] at hwrites
    rw [Emits, pollWrite, if_neg (by rw [hcompleted]; exact Bool.false_ne_true),
      if_neg (by rw [hidle]; exact Bool.false_ne_true), if_neg hbuf, unsent_idle hidle,
      append_nil]
    exact hwrites

theorem ne_nil_of_long (hlong : maxWsFramePayload < buf.length) : buf ≠ [] :=
  length_pos_iff.mp (Nat.zero_lt_of_lt hlong)

/-- A frame of a write is read on the other side unless a new one is made of more bytes than
the limit. -/
theorem pollWrite_framesAccepted (masks : Nat -> Mask) (s : WsByteStream) (buf : List Byte)
    (hlength : buf.length < 2 ^ 64) :
    FramesAccepted masks s buf ↔
      s.drainCompleted = true ∨ s.needsFlush = true ∨ buf.length ≤ maxWsFramePayload := by
  constructor
  · intro haccepted
    by_contra hnot
    rw [not_or, not_or, Bool.not_eq_true, Bool.not_eq_true, Nat.not_le] at hnot
    rcases hnot with ⟨hcompleted, hidle, hlong⟩
    exact not_accepted_long s.clientMode (masks s.drawn) hlong hlength
      (haccepted _ _ (emits_whole masks hcompleted hidle (ne_nil_of_long hlong))
        (buildFrameInto_ne_nil _ _ _))
  · intro hwhen sink frame hemits hframe
    by_cases hnothing : s.drainCompleted = true ∨ s.needsFlush = true ∨ buf = []
    · exact absurd (emits_nothing hnothing hemits) hframe
    · rw [not_or, not_or, Bool.not_eq_true, Bool.not_eq_true] at hnothing
      rcases hnothing with ⟨hcompleted, hidle, hbuf⟩
      have hshort : buf.length ≤ maxWsFramePayload := by
        rw [hcompleted, hidle] at hwhen
        rcases hwhen with hwhen | hwhen | hshort
        · cases hwhen
        · cases hwhen
        · exact hshort
      rcases emits_frame hcompleted hidle hbuf hemits with hnil | hwhole
      · exact absurd hnil hframe
      · rw [hwhole]
        exact accepted_short hbuf hshort

theorem pollWrite_framesAccepted_short :
    ([1, 2, 3] : List Byte).length < 2 ^ 64 ∧
      FramesAccepted (fun _ => ⟨1, 2, 3, 4⟩) (fromRaw true true) [1, 2, 3] :=
  ⟨by decide, (pollWrite_framesAccepted (fun _ => ⟨1, 2, 3, 4⟩) (fromRaw true true) [1, 2, 3]
    (by decide)).mpr (.inr (.inr (by decide)))⟩

/-- One byte above the limit is enough. -/
theorem pollWrite_oneByteAbove :
    ¬ FramesAccepted (fun _ => ⟨1, 2, 3, 4⟩) (fromRaw true false)
      (replicate (maxWsFramePayload + 1) 7) := by
  intro haccepted
  have hlength : (replicate (maxWsFramePayload + 1) (7 : Byte)).length =
      maxWsFramePayload + 1 := length_replicate
  have hlong : maxWsFramePayload < (replicate (maxWsFramePayload + 1) (7 : Byte)).length := by
    rw [hlength]
    exact Nat.lt_succ_self _
  have hbound : (replicate (maxWsFramePayload + 1) (7 : Byte)).length < 2 ^ 64 := by
    rw [hlength, maxWsFramePayload]
    decide
  exact not_accepted_long false ⟨1, 2, 3, 4⟩ hlong hbound
    (haccepted _ _ (emits_whole _ rfl rfl (ne_nil_of_long hlong)) (buildFrameInto_ne_nil _ _ _))

end WsByteStream
end Stream
end FrpRs
