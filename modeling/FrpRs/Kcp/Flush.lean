import FrpRs.Kcp.Operations

/-!
# What the phases of a flush may change

Each phase of `flush` touches a few fields only.  The lemmas here name those
fields, so that an invariant over other fields passes through a phase without
looking inside it.
-/

namespace FrpRs
namespace Kcp

open Bytes
open Fallible

variable {Output : Type}

/-- The part of a segment that retransmission never rewrites. -/
structure SegmentCore where
  conv : UInt32
  cmd : UInt8
  frg : UInt8
  sn : UInt32
  data : List Byte
deriving DecidableEq, Repr

def KcpSegment.core (s : KcpSegment) : SegmentCore :=
  { conv := s.conv, cmd := s.cmd, frg := s.frg, sn := s.sn, data := s.data }

def sns (segs : List KcpSegment) : List UInt32 :=
  segs.map fun s => s.sn

theorem sns_eq_of_core {a b : List KcpSegment}
    (h : a.map KcpSegment.core = b.map KcpSegment.core) : sns a = sns b := by
  have hmap := congrArg (List.map SegmentCore.sn) h
  rw [List.map_map, List.map_map] at hmap
  exact hmap

/-- Two states that differ at most in the sink, the accumulated bytes, the
pending acknowledgements and the window probe. -/
def ControlOnly (k k' : Kcp Output) : Prop :=
  exists out buf acks probe tsProbe probeWait,
    k' = { k with
      output := out, buf := buf, acklist := acks, probe := probe,
      tsProbe := tsProbe, probeWait := probeWait }

theorem ControlOnly.refl (k : Kcp Output) : ControlOnly k k :=
  ⟨k.output, k.buf, k.acklist, k.probe, k.tsProbe, k.probeWait, rfl⟩

variable {k k' k'' : Kcp Output}

theorem ControlOnly.trans (h : ControlOnly k k') (h' : ControlOnly k' k'') : ControlOnly k k'' := by
  obtain ⟨out, buf, acks, probe, tsProbe, probeWait, rfl⟩ := h
  obtain ⟨out', buf', acks', probe', tsProbe', probeWait', rfl⟩ := h'
  exact ⟨out', buf', acks', probe', tsProbe', probeWait', rfl⟩

theorem probeWndSize_frame (k : Kcp Output) : ControlOnly k k.probeWndSize := by
  unfold probeWndSize
  split
  · split
    · exact ⟨k.output, k.buf, k.acklist, k.probe, _, _, rfl⟩
    · split
      · exact ⟨k.output, k.buf, k.acklist, _, _, _, rfl⟩
      · exact ControlOnly.refl k
  · exact ⟨k.output, k.buf, k.acklist, k.probe, _, _, rfl⟩

section Phases

variable [Write Output]

theorem writeBuf_frame (k : Kcp Output) : ControlOnly k k.writeBuf.2 := by
  unfold writeBuf
  split
  · exact ⟨_, k.buf, k.acklist, k.probe, k.tsProbe, k.probeWait, rfl⟩
  · exact ⟨_, _, k.acklist, k.probe, k.tsProbe, k.probeWait, rfl⟩

theorem flushBuf_frame (k : Kcp Output) : ControlOnly k k.flushBuf.2 := by
  unfold flushBuf
  split
  · exact ControlOnly.refl k
  · exact writeBuf_frame k

theorem putSegment_frame (k : Kcp Output) (need : Nat) (segment : KcpSegment) :
    ControlOnly k (k.putSegment need segment).2 := by
  apply andThen_state
  · split
    · exact writeBuf_frame k
    · exact ControlOnly.refl k
  · intro _ k' _ hk'
    exact hk'.trans ⟨k'.output, _, k'.acklist, k'.probe, k'.tsProbe, k'.probeWait, rfl⟩

theorem flushAckLoop_frame (k : Kcp Output) (segment : KcpSegment)
    (acks : List (UInt32 × UInt32)) :
    ControlOnly k (flushAckLoop k segment acks).2 := by
  induction acks generalizing k segment with
  | nil =>
    exact ControlOnly.refl k
  | cons ack acks ih =>
    apply andThen_state
    · exact putSegment_frame k overhead _
    · intro _ k' _ hk'
      exact hk'.trans (ih k' _)

theorem flushAcks_frame (k : Kcp Output) (segment : KcpSegment) :
    ControlOnly k (k.flushAcks segment).2 := by
  apply andThen_state
  · exact flushAckLoop_frame k segment k.acklist
  · intro _ k' _ hk'
    exact hk'.trans ⟨k'.output, k'.buf, _, k'.probe, k'.tsProbe, k'.probeWait, rfl⟩

theorem flushProbe_frame (k : Kcp Output) (ask : UInt32) (cmd : UInt8)
    (segment : KcpSegment) : ControlOnly k (k.flushProbe ask cmd segment).2 := by
  unfold flushProbe
  split
  · apply andThen_state
    · exact putSegment_frame k overhead _
    · intro _ _ _ hk'
      exact hk'
  · exact ControlOnly.refl k

theorem flushProbeCommands_frame (k : Kcp Output) (segment : KcpSegment) :
    ControlOnly k (k.flushProbeCommands segment).2 := by
  apply andThen_state
  · exact flushProbe_frame k askSend cmdWask segment
  · intro segment' k' _ hk'
    apply andThen_state
    · exact hk'.trans (flushProbe_frame k' askTell cmdWins segment')
    · intro _ k'' _ hk''
      exact hk''.trans
        ⟨k''.output, k''.buf, k''.acklist, _, k''.tsProbe, k''.probeWait, rfl⟩

end Phases

/-!
## Retransmission
-/

theorem resendSegment_core (k : Kcp Output) (p : ResendParams) (seg : KcpSegment) :
    (resendSegment k p seg).core = seg.core := by
  unfold resendSegment
  cases resendKind k p seg <;> rfl

theorem noteTimeout_frame (k : Kcp Output) (kind : Resend) :
    exists xmit, noteTimeout k kind = { k with xmit := xmit } := by
  cases kind with
  | timeout => exact ⟨_, rfl⟩
  | keep => exact ⟨k.xmit, rfl⟩
  | initial => exact ⟨k.xmit, rfl⟩
  | fast => exact ⟨k.xmit, rfl⟩
  | early => exact ⟨k.xmit, rfl⟩

theorem noteDeadLink_frame (k : Kcp Output) (seg : KcpSegment) :
    exists state, noteDeadLink k seg = { k with state := state } := by
  unfold noteDeadLink
  split
  · exact ⟨_, rfl⟩
  · exact ⟨k.state, rfl⟩

/-- Two states that differ at most in what the retransmission loop changes: the
output, the retransmission counter, the dead-link mark and the timers of the
segments in the send buffer. -/
def ResendOnly (k k' : Kcp Output) (todo : List KcpSegment) : Prop :=
  exists xmit state segs, ControlOnly { k with
      xmit := xmit, state := state, sndBuf := segs } k' ∧
    segs.map KcpSegment.core = todo.map KcpSegment.core

theorem resendLoop_frame [Write Output] (p : ResendParams) (k : Kcp Output)
    (scan : ResendScan) (done todo : List KcpSegment) :
    ResendOnly k (resendLoop p k scan done todo).2 (done ++ todo) := by
  induction todo generalizing k scan done with
  | nil =>
    exact ⟨k.xmit, k.state, done, ControlOnly.refl _, by simp⟩
  | cons seg todo ih =>
    unfold resendLoop
    simp only
    split
    · obtain ⟨xmit, state, segs, hloop, hcore⟩ := ih k scan (done ++ [seg])
      exact ⟨xmit, state, segs, hloop, by simpa using hcore⟩
    · have hsent := resendSegment_core k p seg
      obtain ⟨xmit, hxmit⟩ := noteTimeout_frame k (resendKind k p seg)
      obtain ⟨out, buf, acks, probe, tsProbe, probeWait, hput⟩ :=
        putSegment_frame (noteTimeout k (resendKind k p seg))
          (overhead + (resendSegment k p seg).data.length) (resendSegment k p seg)
      rw [hxmit] at hput ⊢
      split
      · rename_i k' hk
        rw [hk] at hput
        obtain rfl : k' = _ := hput
        exact ⟨xmit, k.state, done ++ resendSegment k p seg :: todo,
          ⟨out, buf, acks, probe, tsProbe, probeWait, rfl⟩, by simp [hsent]⟩
      · rename_i k' hk
        rw [hk] at hput
        obtain rfl : k' = _ := hput
        obtain ⟨state, hstate⟩ := noteDeadLink_frame _ (resendSegment k p seg)
        rw [hstate]
        obtain ⟨xmit', state', segs, hloop, hcore⟩ :=
          ih _ (scan.note (resendKind k p seg)) (done ++ [resendSegment k p seg])
        refine ⟨xmit', state', segs, ControlOnly.trans ?_ hloop, ?_⟩
        · exact ⟨out, buf, acks, probe, tsProbe, probeWait, rfl⟩
        · simpa [hsent] using hcore

/-!
## The whole flush

A flush numbers a front part of the queue and appends it to the send buffer;
beyond that it only touches timers, counters and the output.
-/

/-- What queued segments become when they are numbered from `nxt` on. -/
def stampedCores (conv nxt : UInt32) : List KcpSegment -> List SegmentCore
  | [] => []
  | seg :: rest =>
    { conv := conv, cmd := cmdPush, frg := seg.frg, sn := nxt, data := seg.data } ::
      stampedCores conv (nxt + 1) rest

/-- The fields no flush phase changes. -/
structure SameSession (k k' : Kcp Output) : Prop where
  conv : k'.conv = k.conv
  mtu : k'.mtu = k.mtu
  mss : k'.mss = k.mss
  stream : k'.stream = k.stream
  inputConv : k'.inputConv = k.inputConv
  rcvNxt : k'.rcvNxt = k.rcvNxt
  rcvQueue : k'.rcvQueue = k.rcvQueue
  rcvBuf : k'.rcvBuf = k.rcvBuf

structure Flushed (n : Nat) (k k' : Kcp Output) : Prop extends SameSession k k' where
  count : n ≤ k.sndQueue.length
  queue : k'.sndQueue = k.sndQueue.drop n
  next : k'.sndNxt = k.sndNxt + UInt32.ofNat n
  buffer : k'.sndBuf.map KcpSegment.core =
    k.sndBuf.map KcpSegment.core ++ stampedCores k.conv k.sndNxt (k.sndQueue.take n)

theorem SameSession.refl (k : Kcp Output) : SameSession k k :=
  ⟨rfl, rfl, rfl, rfl, rfl, rfl, rfl, rfl⟩

theorem Flushed.refl (k : Kcp Output) : Flushed 0 k k where
  toSameSession := SameSession.refl k
  count := Nat.zero_le _
  queue := rfl
  next := by simp
  buffer := by simp [stampedCores]

theorem Flushed.of_control {n : Nat} (h : ControlOnly k k') (h' : Flushed n k' k'') :
    Flushed n k k'' := by
  obtain ⟨out, buf, acks, probe, tsProbe, probeWait, rfl⟩ := h
  exact ⟨⟨h'.conv, h'.mtu, h'.mss, h'.stream, h'.inputConv, h'.rcvNxt, h'.rcvQueue,
    h'.rcvBuf⟩, h'.count, h'.queue, h'.next, h'.buffer⟩

theorem Flushed.of_clock {n : Nat} {current tsFlush : UInt32}
    (h : Flushed n (k.withClock current tsFlush) k') : Flushed n k k' :=
  ⟨⟨h.conv, h.mtu, h.mss, h.stream, h.inputConv, h.rcvNxt, h.rcvQueue, h.rcvBuf⟩,
    h.count, h.queue, h.next, h.buffer⟩

theorem Flushed.control {n : Nat} (h : Flushed n k k') (h' : ControlOnly k' k'') :
    Flushed n k k'' := by
  obtain ⟨out, buf, acks, probe, tsProbe, probeWait, rfl⟩ := h'
  exact ⟨⟨h.conv, h.mtu, h.mss, h.stream, h.inputConv, h.rcvNxt, h.rcvQueue,
    h.rcvBuf⟩, h.count, h.queue, h.next, h.buffer⟩

theorem Flushed.resend {n : Nat} (h : Flushed n k k') (h' : ResendOnly k' k'' k'.sndBuf) :
    Flushed n k k'' := by
  obtain ⟨xmit, state, segs, hcontrol, hcore⟩ := h'
  apply Flushed.control _ hcontrol
  refine ⟨⟨h.conv, h.mtu, h.mss, h.stream, h.inputConv, h.rcvNxt, h.rcvQueue,
    h.rcvBuf⟩, h.count, h.queue, h.next, ?_⟩
  show segs.map KcpSegment.core = _
  rw [hcore]
  exact h.buffer

theorem fillWindow_flushed (wnd cwnd : UInt16) (queue : List KcpSegment)
    (k : Kcp Output) (count : UInt32) :
    exists n, Flushed n { k with sndQueue := queue } (fillWindow wnd cwnd queue k count).1 := by
  induction queue generalizing k count with
  | nil =>
    exact ⟨0, Flushed.refl _⟩
  | cons seg rest ih =>
    unfold fillWindow
    split
    · obtain ⟨n, hrest⟩ := ih
        { k with
          sndNxt := k.sndNxt + 1
          sndBuf := k.sndBuf ++ [k.stampSegment wnd seg] } (count + 1)
      refine ⟨n + 1, ⟨⟨hrest.conv, hrest.mtu, hrest.mss, hrest.stream, hrest.inputConv,
        hrest.rcvNxt, hrest.rcvQueue, hrest.rcvBuf⟩, ?_, ?_, ?_, ?_⟩⟩
      · have hcount := hrest.count
        simpa using hcount
      · rw [hrest.queue]
        simp
      · rw [hrest.next]
        show k.sndNxt + 1 + UInt32.ofNat n = k.sndNxt + UInt32.ofNat (n + 1)
        rw [UInt32.ofNat_add, UInt32.add_assoc, UInt32.add_comm 1]
        rfl
      · rw [hrest.buffer]
        simp [stampedCores, stampSegment, KcpSegment.core]
    · exact ⟨0, Flushed.refl _⟩

section WholeFlush

variable [Write Output]

theorem flushData_flushed_of_fill {n : Nat} {wnd : UInt16}
    (hfill : Flushed n k (fillWindow wnd k.effectiveCwnd k.sndQueue k 0).1) :
    Flushed n k (k.flushData wnd).2 := by
  apply andThen_state (P := Flushed n k)
  · exact hfill.resend (resendLoop_frame _ _ _ [] _)
  · intro scan k' _ hk'
    apply andThen_state (P := Flushed n k)
    · exact hk'.control (flushBuf_frame k')
    · intro _ k'' _ hk''
      exact ⟨⟨hk''.conv, hk''.mtu, hk''.mss, hk''.stream, hk''.inputConv, hk''.rcvNxt,
        hk''.rcvQueue, hk''.rcvBuf⟩, hk''.count, hk''.queue, hk''.next, hk''.buffer⟩

theorem flushData_flushed (k : Kcp Output) (wnd : UInt16) :
    exists n, Flushed n k (k.flushData wnd).2 := by
  obtain ⟨n, hfill⟩ := fillWindow_flushed wnd k.effectiveCwnd k.sndQueue k 0
  exact ⟨n, flushData_flushed_of_fill hfill⟩

theorem flush_flushed (k : Kcp Output) : exists n, Flushed n k k.flush.2 := by
  unfold flush
  split
  · exact ⟨0, Flushed.refl k⟩
  · have hacks := flushAcks_frame k k.controlSegment
    rcases hres : k.flushAcks k.controlSegment with ⟨res, k'⟩
    rw [hres] at hacks
    cases res with
    | error e =>
      exact ⟨0, (Flushed.refl k).control hacks⟩
    | ok segment =>
      have hprobe := (probeWndSize_frame k').trans
        (flushProbeCommands_frame k'.probeWndSize segment)
      rw [andThen_ok]
      rcases hres' : k'.probeWndSize.flushProbeCommands segment with ⟨res', k''⟩
      rw [hres'] at hprobe
      cases res' with
      | error e =>
        exact ⟨0, (Flushed.refl k).control (hacks.trans hprobe)⟩
      | ok _ =>
        obtain ⟨n, hdata⟩ := flushData_flushed k'' segment.wnd
        exact ⟨n, Flushed.of_control (hacks.trans hprobe) hdata⟩

theorem update_flushed (k : Kcp Output) (current : UInt32) :
    exists n, Flushed n k (k.update current).2 := by
  obtain ⟨tsFlush, hupdate⟩ := update_cases k current
  rcases hupdate with hstop | hflush
  · rw [hstop]
    exact ⟨0, Flushed.of_clock (Flushed.refl (k.withClock current tsFlush))⟩
  · obtain ⟨n, h⟩ := flush_flushed (k.withClock current tsFlush)
    rw [hflush]
    exact ⟨n, h.of_clock⟩

end WholeFlush

end Kcp
end FrpRs
