import FrpRs.Stream.WsRoundTrip

/-!
# Write sessions on WebSocket byte streams

A session writes one frame for every buffer.  A frame that is taken only in part is kept; the
retry of the buffer, or a flush, goes on with it, and a frame that a flush finishes is claimed by
the retry instead of being sent again.
-/

namespace FrpRs
namespace Stream

open List Bytes Poll

namespace WsByteStream

/-!
## One write
-/

/-- The fields that the write side of a stream keeps. -/
structure SameSide (s s' : WsByteStream) : Prop where
  mode : s'.clientMode = s.clientMode
  drained : s'.drainCompleted = s.drainCompleted
  control : s'.pendingControlWrite = s.pendingControlWrite
  controlPos : s'.pendingControlPos = s.pendingControlPos

/-- What the first attempt at a frame may do. -/
inductive Attempt (s : WsByteStream) (sink : Sink) (buf frame : List Byte) :
    Outcome Nat × WsByteStream × Sink -> Prop
  | sent {s' : WsByteStream} {sink' : Sink} (hsame : SameSide s s')
      (hidle : s'.needsFlush = s.needsFlush) (hsent : sink'.accepted = sink.accepted ++ frame) :
      Attempt s sink buf frame (.ready buf.length, s', sink')
  | kept {s' : WsByteStream} {sink' : Sink} {pre : List Byte} (hsame : SameSide s s')
      (hopen : s'.needsFlush = true) (hlen : s'.pendingFramePayloadLen = buf.length)
      (hpos : s'.writePos < s'.writeBuf.length) (hsent : sink'.accepted = sink.accepted ++ pre)
      (hrest : pre ++ s'.writeBuf.drop s'.writePos = frame) :
      Attempt s sink buf frame (.pending, s', sink')
  | untouched {sink' : Sink} (hsent : sink'.accepted = sink.accepted) :
      Attempt s sink buf frame (.pending, s, sink')

theorem SameSide.refl (s : WsByteStream) : SameSide s s :=
  ⟨rfl, rfl, rfl, rfl⟩

theorem draw_same (s : WsByteStream) : SameSide s s.draw ∧ s.draw.needsFlush = s.needsFlush := by
  rw [draw]
  split
  · exact ⟨⟨rfl, rfl, rfl, rfl⟩, rfl⟩
  · exact ⟨SameSide.refl s, rfl⟩

variable {sink : Sink}

theorem writeFrame_attempt (masks : Nat -> Mask) (s : WsByteStream) (hsound : sink.Sound)
    (buf : List Byte) :
    exists mask, Attempt s sink buf (buildFrameInto mask buf s.clientMode)
      (writeFrame masks s sink buf) := by
  refine ⟨masks s.drawn, ?_⟩
  rw [writeFrame]
  by_cases hvectored : (!s.clientMode && s.tcp) = true
  · have hframe : buildFrameInto (masks s.drawn) buf s.clientMode =
        buildServerFrameHeader buf.length ++ buf := by
      rw [Bool.and_eq_true, Bool.not_eq_true'] at hvectored
      rw [buildFrameInto, hvectored.1]
      rfl
    rw [if_pos hvectored, hframe]
    dsimp only
    generalize buildServerFrameHeader buf.length = hdr
    cases hwrite : sink.pollWrite (hdr ++ buf) with
    | mk o sink' =>
      cases o with
      | pending => exact .untouched (Sink.pollWrite_pending hwrite)
      | failed e => exact absurd hwrite fun hwrite => hsound.not_failed hwrite
      | ready n =>
        obtain ⟨_, haccepted⟩ := Sink.pollWrite_ready hwrite
        dsimp only
        by_cases hall : hdr.length + buf.length ≤ n
        · rw [if_pos hall]
          refine .sent (SameSide.refl s) rfl ?_
          rw [haccepted, take_of_length_le (by rw [length_append]; exact hall)]
        · rw [if_neg hall]
          have hkept : (if n < hdr.length then hdr.drop n ++ buf
              else buf.drop (n - hdr.length)) = (hdr ++ buf).drop n := by
            split
            · rw [drop_append_of_le_length (by omega)]
            · have hnil : hdr.drop n = [] := drop_eq_nil_of_le (by omega)
              rw [drop_append, hnil, nil_append]
          refine .kept ⟨rfl, rfl, rfl, rfl⟩ rfl rfl ?_ haccepted ?_
          · dsimp only
            rw [hkept, length_drop, length_append]
            omega
          · rw [hkept, drop_zero, take_append_drop]
  · rw [if_neg hvectored]
    obtain ⟨hsame, hflush⟩ := draw_same s
    dsimp only
    have hlong : 0 < (buildFrameInto (masks s.drawn) buf s.clientMode).length := by
      rw [buildFrameInto]
      split
      · exact Nat.zero_lt_succ _
      · exact Nat.zero_lt_succ _
    generalize buildFrameInto (masks s.drawn) buf s.clientMode = frame at hlong
    cases hwrite : sink.pollWrite frame with
    | mk o sink' =>
      cases o with
      | failed e => exact absurd hwrite fun hwrite => hsound.not_failed hwrite
      | pending =>
        refine @Attempt.kept _ _ _ _ _ _ []
          ⟨hsame.mode, hsame.drained, hsame.control, hsame.controlPos⟩ rfl rfl hlong ?_ ?_
        · rw [Sink.pollWrite_pending hwrite, append_nil]
        · exact drop_zero
      | ready n =>
        obtain ⟨_, haccepted⟩ := Sink.pollWrite_ready hwrite
        dsimp only
        by_cases hall : frame.length ≤ n
        · rw [if_pos hall]
          refine .sent ⟨hsame.mode, hsame.drained, hsame.control, hsame.controlPos⟩ hflush ?_
          rw [haccepted, take_of_length_le hall]
        · rw [if_neg hall]
          exact .kept ⟨hsame.mode, hsame.drained, hsame.control, hsame.controlPos⟩ rfl rfl
            (Nat.not_le.mp hall) haccepted (take_append_drop n frame)

/-- What another attempt at a kept frame may do. -/
inductive Drained (s : WsByteStream) (sink : Sink) (rest : List Byte) :
    Outcome Unit × WsByteStream × Sink -> Prop
  | done {s' : WsByteStream} {sink' : Sink} (hsame : SameSide s s')
      (hidle : s'.needsFlush = false)
      (hlen : s'.pendingFramePayloadLen = s.pendingFramePayloadLen)
      (hsent : sink'.accepted = sink.accepted ++ rest) : Drained s sink rest (.ready (), s', sink')
  | kept {s' : WsByteStream} {sink' : Sink} {more : List Byte} (hsame : SameSide s s')
      (hopen : s'.needsFlush = s.needsFlush)
      (hlen : s'.pendingFramePayloadLen = s.pendingFramePayloadLen)
      (hpos : s'.writePos < s'.writeBuf.length) (hsent : sink'.accepted = sink.accepted ++ more)
      (hrest : more ++ s'.writeBuf.drop s'.writePos = rest) :
      Drained s sink rest (.pending, s', sink')

theorem drainFrame_drained {s : WsByteStream} (hsound : sink.Sound)
    (hpos : s.writePos < s.writeBuf.length) :
    Drained s sink (s.writeBuf.drop s.writePos) (drainFrame s sink) := by
  rw [drainFrame]
  cases hdrain : sink.drain s.writeBuf s.writePos with
  | mk p sink' =>
    rcases hsound.drain_cases hpos hdrain with
      ⟨hp, haccepted⟩ | ⟨pos', more, hp | ⟨hp, hsame⟩, hpos', haccepted, hrest⟩
    · rw [hp]
      exact .done ⟨rfl, rfl, rfl, rfl⟩ rfl rfl haccepted
    · rw [hp]
      exact .kept ⟨rfl, rfl, rfl, rfl⟩ rfl rfl hpos' haccepted hrest
    · rw [hsame] at hrest
      rw [hp]
      exact .kept (SameSide.refl s) rfl rfl hpos haccepted hrest

theorem drainFrame_sound {s : WsByteStream} {sink : Sink} (h : sink.Sound) :
    (drainFrame s sink).2.2.Sound := by
  have hsink := h.drain s.writeBuf s.writePos
  unfold drainFrame
  split
  all_goals
    rename_i heq
    rw [heq] at hsink
    exact hsink

theorem writeFrame_sound {masks : Nat -> Mask} {s : WsByteStream} {sink : Sink} (h : sink.Sound)
    (buf : List Byte) : (writeFrame masks s sink buf).2.2.Sound := by
  have hwrite : forall bytes o sink', sink.pollWrite bytes = (o, sink') -> sink'.Sound := by
    intro bytes o sink' heq
    have hsink := h.pollWrite bytes
    rw [heq] at hsink
    exact hsink
  unfold writeFrame
  split
  · dsimp only
    split
    · rename_i heq
      split
      · exact hwrite _ _ _ heq
      · exact hwrite _ _ _ heq
    · rename_i heq
      exact hwrite _ _ _ heq
    · rename_i heq
      exact hwrite _ _ _ heq
  · dsimp only
    split
    · rename_i heq
      split
      · exact hwrite _ _ _ heq
      · exact hwrite _ _ _ heq
    · rename_i heq
      exact hwrite _ _ _ heq
    · rename_i heq
      exact hwrite _ _ _ heq

theorem pollWrite_sound {masks : Nat -> Mask} {s : WsByteStream} (h : sink.Sound) (buf : List Byte) :
    (pollWrite masks s sink buf).2.2.Sound := by
  have hdrain := @drainFrame_sound s sink h
  unfold pollWrite
  split
  · exact h
  · split
    · split
      all_goals
        rename_i heq
        rw [heq] at hdrain
        exact hdrain
    · split
      · exact h
      · exact writeFrame_sound h buf

theorem pollFlush_sound {s : WsByteStream} (h : sink.Sound) :
    (pollFlush s sink).2.2.Sound := by
  have hdrain := @drainFrame_sound s sink h
  unfold pollFlush
  split
  · split
    all_goals
      rename_i heq
      rw [heq] at hdrain
      exact hdrain
  · exact h

/-!
## What a session has sent
-/

/-- Whole frames of the reported writes, and the kept frame of a pending one. -/
inductive Phase (client : Bool) (s : Session WsByteStream) : Prop
  | idle {fs : List DataFrame} (hidle : s.state.needsFlush = false)
      (hdrained : s.state.drainCompleted = false)
      (hsent : s.sink.accepted = encodeFrames client fs)
      (hreported : s.reported = framePayloads fs)
  | openFrame {fs : List DataFrame} {f : DataFrame} {pre : List Byte}
      (hopen : s.state.needsFlush = true) (hdrained : s.state.drainCompleted = false)
      (hlen : s.state.pendingFramePayloadLen = f.payload.length)
      (hpos : s.state.writePos < s.state.writeBuf.length)
      (hsent : s.sink.accepted = encodeFrames client fs ++ pre)
      (hrest : pre ++ s.state.writeBuf.drop s.state.writePos = f.encode client)
      (hflight : s.inFlight = some f.payload) (hreported : s.reported = framePayloads fs)
  /-- A flush has finished the frame, whose retry is still to come. -/
  | claimed {fs : List DataFrame} {f : DataFrame} (hidle : s.state.needsFlush = false)
      (hdrained : s.state.drainCompleted = true)
      (hlen : s.state.pendingFramePayloadLen = f.payload.length)
      (hsent : s.sink.accepted = encodeFrames client (fs ++ [f]))
      (hflight : s.inFlight = some f.payload) (hreported : s.reported = framePayloads fs)

/-- The caller's contract: a pending buffer is offered again, and no buffer is empty or longer
than a frame may be. -/
def Contract (s : Session WsByteStream) (call : Call) : Prop :=
  s.Repolls call ∧ forall buf, call = .write buf -> buf ≠ [] ∧ buf.length ≤ maxWsFramePayload

instance (s : Session WsByteStream) : (call : Call) -> Decidable (Contract s call)
  | .write buf =>
    decidable_of_iff (s.Repolls (.write buf) ∧ buf ≠ [] ∧ buf.length ≤ maxWsFramePayload)
      (and_congr_right fun _ => ⟨fun h _ heq => Call.write.inj heq ▸ h, fun h => h buf rfl⟩)
  | .flush => isTrue ⟨trivial, fun _ heq => Call.noConfusion heq⟩

theorem encodeFrames_snoc (client : Bool) (fs : List DataFrame) (f : DataFrame) :
    encodeFrames client (fs ++ [f]) = encodeFrames client fs ++ f.encode client := by
  rw [encodeFrames, flatMap_append, flatMap_singleton]
  rfl

theorem framePayloads_snoc (fs : List DataFrame) (f : DataFrame) :
    framePayloads (fs ++ [f]) = framePayloads fs ++ f.payload := by
  rw [framePayloads, flatMap_append, flatMap_singleton]
  rfl

section Steps

variable {client : Bool} {masks : Nat -> Mask} {s : Session WsByteStream}

theorem step_write_fields {buf : List Byte} {o : Outcome Nat} {state : WsByteStream}
    (h : (wsWriter masks).pollWrite s.state s.sink buf = (o, state, sink)) :
    ((wsWriter masks).step s (.write buf)).state = state ∧
      ((wsWriter masks).step s (.write buf)).sink = sink ∧
      ((wsWriter masks).step s (.write buf)).inFlight = (if o.isPending then some buf else none) ∧
      ((wsWriter masks).step s (.write buf)).reported = s.reported ++ o.written buf := by
  rw [Writer.step_write h]
  exact ⟨rfl, rfl, rfl, rfl⟩

variable {fs : List DataFrame}

theorem write_idle (hsound : s.sink.Sound) (hmode : s.state.clientMode = client)
    (hidle : s.state.needsFlush = false) (hdrained : s.state.drainCompleted = false)
    (hsent : s.sink.accepted = encodeFrames client fs) (hreported : s.reported = framePayloads fs)
    {buf : List Byte} (hbuf : buf ≠ []) (hshort : buf.length ≤ maxWsFramePayload) :
    ((wsWriter masks).step s (.write buf)).state.clientMode = client ∧
      Phase client ((wsWriter masks).step s (.write buf)) := by
  have hpoll : (wsWriter masks).pollWrite s.state s.sink buf =
      writeFrame masks s.state s.sink buf := by
    change pollWrite masks s.state s.sink buf = _
    rw [pollWrite, hdrained, hidle, if_neg Bool.false_ne_true, if_neg Bool.false_ne_true,
      if_neg hbuf]
  obtain ⟨mask, hattempt⟩ := writeFrame_attempt masks s.state hsound buf
  rw [hmode, ← hpoll] at hattempt
  generalize hanswer : (wsWriter masks).pollWrite s.state s.sink buf = answer at hattempt
  cases hattempt with
  | sent hsame hflush hsent' =>
    obtain ⟨hstate, hsink, _, hreports⟩ := step_write_fields hanswer
    rw [Outcome.written, take_length] at hreports
    refine ⟨by rw [hstate, hsame.mode, hmode], ?_⟩
    refine @Phase.idle _ _ (fs ++ [⟨mask, buf, hbuf, hshort⟩]) ?_ ?_ ?_ ?_
    · rw [hstate, hflush, hidle]
    · rw [hstate, hsame.drained, hdrained]
    · rw [hsink, hsent', hsent, encodeFrames_snoc]
      rfl
    · rw [hreports, hreported, framePayloads_snoc]
  | kept hsame hopen hlen hpos hsent' hrest =>
    rename_i state' sink' pre
    obtain ⟨hstate, hsink, hflight, hreports⟩ := step_write_fields hanswer
    rw [Outcome.written, append_nil] at hreports
    refine ⟨by rw [hstate, hsame.mode, hmode], ?_⟩
    refine @Phase.openFrame _ _ fs ⟨mask, buf, hbuf, hshort⟩ pre ?_ ?_ ?_ ?_ ?_ ?_ hflight ?_
    · rw [hstate, hopen]
    · rw [hstate, hsame.drained, hdrained]
    · rw [hstate, hlen]
    · rw [hstate]
      exact hpos
    · rw [hsink, hsent', hsent]
    · rw [hstate, hrest]
      rfl
    · rw [hreports, hreported]
  | untouched hsent' =>
    obtain ⟨hstate, hsink, _, hreports⟩ := step_write_fields hanswer
    rw [Outcome.written, append_nil] at hreports
    refine ⟨by rw [hstate, hmode], ?_⟩
    refine @Phase.idle _ _ fs ?_ ?_ ?_ ?_
    · rw [hstate, hidle]
    · rw [hstate, hdrained]
    · rw [hsink, hsent', hsent]
    · rw [hreports, hreported]

theorem write_open {f : DataFrame} {pre : List Byte} (hsound : s.sink.Sound)
    (hmode : s.state.clientMode = client) (hopen : s.state.needsFlush = true)
    (hdrained : s.state.drainCompleted = false)
    (hlen : s.state.pendingFramePayloadLen = f.payload.length)
    (hpos : s.state.writePos < s.state.writeBuf.length)
    (hsent : s.sink.accepted = encodeFrames client fs ++ pre)
    (hrest : pre ++ s.state.writeBuf.drop s.state.writePos = f.encode client)
    (hreported : s.reported = framePayloads fs) :
    ((wsWriter masks).step s (.write f.payload)).state.clientMode = client ∧
      Phase client ((wsWriter masks).step s (.write f.payload)) := by
  have hdrain := drainFrame_drained hsound hpos
  generalize hanswer : drainFrame s.state s.sink = answer at hdrain
  have hpoll : (wsWriter masks).pollWrite s.state s.sink f.payload =
      pollWrite masks s.state s.sink f.payload := rfl
  rw [pollWrite, hdrained, hopen, if_neg Bool.false_ne_true, if_pos rfl, hanswer] at hpoll
  cases hdrain with
  | done hsame hidle hlen' hsent' =>
    dsimp only at hpoll
    rw [hlen', hlen, Nat.min_self] at hpoll
    obtain ⟨hstate, hsink, _, hreports⟩ := step_write_fields hpoll
    rw [Outcome.written, take_length] at hreports
    refine ⟨by rw [hstate, hsame.mode, hmode], ?_⟩
    refine @Phase.idle _ _ (fs ++ [f]) ?_ ?_ ?_ ?_
    · rw [hstate, hidle]
    · rw [hstate, hsame.drained, hdrained]
    · rw [hsink, hsent', hsent, append_assoc, hrest, encodeFrames_snoc]
    · rw [hreports, hreported, framePayloads_snoc]
  | kept hsame hopen' hlen' hpos' hsent' hrest' =>
    rename_i state' sink' more
    obtain ⟨hstate, hsink, hflight, hreports⟩ := step_write_fields hpoll
    rw [Outcome.written, append_nil] at hreports
    refine ⟨by rw [hstate, hsame.mode, hmode], ?_⟩
    refine @Phase.openFrame _ _ fs f (pre ++ more) ?_ ?_ ?_ ?_ ?_ ?_ hflight ?_
    · rw [hstate, hopen', hopen]
    · rw [hstate, hsame.drained, hdrained]
    · rw [hstate, hlen', hlen]
    · rw [hstate]
      exact hpos'
    · rw [hsink, hsent', hsent, append_assoc]
    · rw [hstate, append_assoc, hrest', hrest]
    · rw [hreports, hreported]

theorem write_claimed {f : DataFrame} (hmode : s.state.clientMode = client)
    (hidle : s.state.needsFlush = false) (hdrained : s.state.drainCompleted = true)
    (hlen : s.state.pendingFramePayloadLen = f.payload.length)
    (hsent : s.sink.accepted = encodeFrames client (fs ++ [f]))
    (hreported : s.reported = framePayloads fs) :
    ((wsWriter masks).step s (.write f.payload)).state.clientMode = client ∧
      Phase client ((wsWriter masks).step s (.write f.payload)) := by
  have hmin : min s.state.pendingFramePayloadLen f.payload.length = f.payload.length := by
    rw [hlen, Nat.min_self]
  have hpoll : (wsWriter masks).pollWrite s.state s.sink f.payload =
      (.ready f.payload.length, { s.state with drainCompleted := false }, s.sink) := by
    change pollWrite masks s.state s.sink f.payload = _
    rw [pollWrite, if_pos hdrained, hmin]
  obtain ⟨hstate, hsink, _, hreports⟩ := step_write_fields hpoll
  rw [Outcome.written, take_length] at hreports
  refine ⟨by rw [hstate]; exact hmode, ?_⟩
  refine @Phase.idle _ _ (fs ++ [f]) ?_ ?_ ?_ ?_
  · rw [hstate]
    exact hidle
  · rw [hstate]
  · rw [hsink, hsent]
  · rw [hreports, hreported, framePayloads_snoc]

theorem flush_phase (hsound : s.sink.Sound) (hmode : s.state.clientMode = client)
    (h : Phase client s) :
    ((wsWriter masks).step s .flush).state.clientMode = client ∧
      Phase client ((wsWriter masks).step s .flush) := by
  have hpoll : (wsWriter masks).pollFlush s.state s.sink = pollFlush s.state s.sink := rfl
  cases h with
  | idle hidle hdrained hsent hreported =>
    rw [pollFlush, hidle, if_neg Bool.false_ne_true] at hpoll
    rw [Writer.step_flush hpoll]
    exact ⟨hmode, .idle hidle hdrained hsent hreported⟩
  | claimed hidle hdrained hlen hsent hflight hreported =>
    rw [pollFlush, hidle, if_neg Bool.false_ne_true] at hpoll
    rw [Writer.step_flush hpoll]
    exact ⟨hmode, .claimed hidle hdrained hlen hsent hflight hreported⟩
  | openFrame hopen hdrained hlen hpos hsent hrest hflight hreported =>
    rename_i fs f pre
    have hdrain := drainFrame_drained hsound hpos
    generalize hanswer : drainFrame s.state s.sink = answer at hdrain
    rw [pollFlush, hopen, if_pos rfl, hanswer] at hpoll
    cases hdrain with
    | done hsame hidle hlen' hsent' =>
      rw [Writer.step_flush hpoll]
      refine ⟨hsame.mode.trans hmode, @Phase.claimed _ _ fs f hidle rfl (hlen'.trans hlen) ?_
        hflight hreported⟩
      rw [hsent', hsent, append_assoc, hrest, encodeFrames_snoc]
    | kept hsame hopen' hlen' hpos' hsent' hrest' =>
      rename_i state' sink' more
      rw [Writer.step_flush hpoll]
      refine ⟨hsame.mode.trans hmode, @Phase.openFrame _ _ fs f (pre ++ more)
        (hopen'.trans hopen) (hsame.drained.trans hdrained) (hlen'.trans hlen) hpos' ?_ ?_
        hflight hreported⟩
      · rw [hsent', hsent, append_assoc]
      · rw [append_assoc, hrest', hrest]

theorem step_phase (s : Session WsByteStream) (call : Call)
    (h : s.sink.Sound ∧ s.state.clientMode = client ∧ Phase client s) (hcall : Contract s call) :
    ((wsWriter masks).step s call).sink.Sound ∧
      ((wsWriter masks).step s call).state.clientMode = client ∧
      Phase client ((wsWriter masks).step s call) := by
  obtain ⟨hsound, hmode, hphase⟩ := h
  cases call with
  | flush => exact ⟨pollFlush_sound hsound, flush_phase hsound hmode hphase⟩
  | write buf =>
    refine ⟨pollWrite_sound hsound buf, ?_⟩
    obtain ⟨hbuf, hshort⟩ := hcall.2 buf rfl
    cases hphase with
    | idle hidle hdrained hsent hreported =>
      exact write_idle hsound hmode hidle hdrained hsent hreported hbuf hshort
    | openFrame hopen hdrained hlen hpos hsent hrest hflight hreported =>
      rw [← hcall.1.eq hflight]
      exact write_open hsound hmode hopen hdrained hlen hpos hsent hrest hreported
    | claimed hidle hdrained hlen hsent hflight hreported =>
      rw [← hcall.1.eq hflight]
      exact write_claimed hmode hidle hdrained hlen hsent hreported

end Steps

/-!
## From one stream to the other
-/

theorem Phase.wire {client : Bool} {s : Session WsByteStream} (h : Phase client s) :
    exists fs cut, s.sink.accepted = encodeFrames client fs ++ cut ∧ PartialFrame client cut ∧
      (framePayloads fs = s.reported ∨ framePayloads fs = s.reported ++ s.pendingBytes) := by
  have hempty : PartialFrame client [] := by
    have hframe : forall f : DataFrame, f.encode client ≠ [] := by
      intro f
      rw [f.encode_eq]
      exact cons_ne_nil _ _
    exact ⟨⟨⟨0, 0, 0, 0⟩, [0], by decide, by decide⟩, _, hframe _, rfl⟩
  cases h with
  | idle hidle hdrained hsent hreported =>
    exact ⟨_, [], by rw [hsent, append_nil], hempty, .inl hreported.symm⟩
  | openFrame hopen hdrained hlen hpos hsent hrest hflight hreported =>
    refine ⟨_, _, hsent, ⟨_, _, ?_, hrest⟩, .inl hreported.symm⟩
    intro hnil
    rw [drop_eq_nil_iff] at hnil
    omega
  | claimed hidle hdrained hlen hsent hflight hreported =>
    refine ⟨_, [], by rw [hsent, append_nil], hempty, .inr ?_⟩
    rw [framePayloads_snoc, hreported, Session.pendingBytes, hflight, Option.getD_some]

/-- The written bytes are delivered in order.  The stream ends after all of the reported ones,
and after a pending write at most, and it does end after enough polls. -/
structure Delivers (w : Session WsByteStream) (polls enough : Nat)
    (r : Reading (WsByteStream × Sink)) : Prop where
  inOrder : r.delivered <+: w.reported ++ w.pendingBytes
  ends : forall e, r.ending = some e -> e = .eof ∧
    (r.delivered = w.reported ∨ r.delivered = w.reported ++ w.pendingBytes)
  enough : enough < polls -> r.ending.isSome = true

def enoughPolls (w : Session WsByteStream) (script : List ReadEvent) : Nat :=
  Source.weight ⟨script⟩ + (w.reported ++ w.pendingBytes).length

/-- What one stream writes, a stream of the opposite mode delivers. -/
theorem delivers_written (client tcp tcp' : Bool) (masks masks' : Nat -> Mask)
    {script : List WriteEvent} (hscript : Sink.Sound ⟨[], script⟩) (calls : List Call)
    (hcalls : Run.Along (wsWriter masks).step Contract
      (Session.start (fromRaw tcp client) script) calls)
    {reads : List ReadEvent} (hreads : Source.Sound ⟨reads⟩)
    (hwire : Source.bytes ⟨reads⟩ = (Run.run (wsWriter masks).step
      (Session.start (fromRaw tcp client) script) calls).sink.accepted)
    (replies : Sink) (caps : List Nat) (hcaps : forall cap, cap ∈ caps -> 0 < cap) :
    Delivers (Run.run (wsWriter masks).step (Session.start (fromRaw tcp client) script) calls)
      caps.length
      (enoughPolls (Run.run (wsWriter masks).step (Session.start (fromRaw tcp client) script) calls)
        reads)
      (Run.run (wsReader masks').step (Reading.start (fromRaw tcp' (!client), replies) reads) caps) := by
  have hstart : (Session.start (fromRaw tcp client) script).sink.Sound ∧
      (Session.start (fromRaw tcp client) script).state.clientMode = client ∧
      Phase client (Session.start (fromRaw tcp client) script) :=
    ⟨hscript, rfl, @Phase.idle _ _ [] rfl rfl rfl rfl⟩
  obtain ⟨_, _, hphase⟩ := Run.run_invariant step_phase hstart hcalls
  obtain ⟨fs, cut, hsent, hcut, hpayloads⟩ := hphase.wire
  generalize Run.run (wsWriter masks).step (Session.start (fromRaw tcp client) script) calls = w at *
  have hinv : Reads client (fromRaw tcp' (!client), replies) ⟨reads⟩ (framePayloads fs) :=
    ⟨hreads, rfl, rfl, _, rfl, .boundary rfl hcut (hwire.trans hsent) rfl⟩
  have hpolls : Run.Along (wsReader masks').step (Reading.Polls fun _ _ cap => 0 < cap)
      (Reading.start (fromRaw tcp' (!client), replies) reads) caps :=
    Run.along_of_forall fun _ cap hmem _ => hcaps cap hmem
  have howes := (serves client masks').run hinv hpolls
  have hle : framePayloads fs <+: w.reported ++ w.pendingBytes := by
    rcases hpayloads with heq | heq
    · rw [heq]
      exact prefix_append _ _
    · exact initial_of_eq heq
  refine ⟨?_, ?_, ?_⟩
  · rcases howes with ⟨_, owed, htotal, _⟩ | ⟨_, _, _, htotal⟩
    · exact List.IsPrefix.trans ⟨owed, htotal⟩ hle
    · rw [htotal]
      exact hle
  · intro e hend
    rcases howes with ⟨hnone, _⟩ | ⟨e', hend', hfinal, htotal⟩
    · rw [hend] at hnone
      cases hnone
    · rw [hend] at hend'
      cases hend'
      rw [htotal]
      exact ⟨hfinal, hpayloads⟩
  · intro henough
    apply (serves client masks').ends hinv hpolls
    have hlength := hle.length_le
    rw [enoughPolls] at henough
    change Source.weight ⟨reads⟩ + _ < _
    omega

def sampleMask : Mask := ⟨0x11, 0x22, 0x33, 0x44⟩

/-- A client writes three bytes in two steps and one that is still pending; a server reads
them. -/
theorem delivers_written_sample :
    Delivers
      (Run.run (wsWriter fun _ => sampleMask).step
        (Session.start (fromRaw false true) [.accept 4, .pending, .accept 9, .accept 1])
        [.write [1, 2, 3], .write [1, 2, 3], .flush, .write [1, 2, 3], .write [4]])
      4
      (enoughPolls
        (Run.run (wsWriter fun _ => sampleMask).step
          (Session.start (fromRaw false true) [.accept 4, .pending, .accept 9, .accept 1])
          [.write [1, 2, 3], .write [1, 2, 3], .flush, .write [1, 2, 3], .write [4]])
        [.chunk [0x82], .pending, .chunk [0x83, 0x11, 0x22], .chunk [0x33, 0x44, 0x10, 0x20, 0x30],
          .chunk [0x82]])
      (Run.run (wsReader fun _ => sampleMask).step
        (Reading.start (fromRaw true false, ⟨[], []⟩)
          [.chunk [0x82], .pending, .chunk [0x83, 0x11, 0x22],
            .chunk [0x33, 0x44, 0x10, 0x20, 0x30], .chunk [0x82]])
        [2, 2, 2, 2]) :=
  delivers_written true false true _ _ (by decide) _ (by decide) (by decide) (by decide) _ [2, 2, 2, 2]
    (by decide)

end WsByteStream

end Stream
end FrpRs
