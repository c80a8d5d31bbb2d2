import FrpRs.Kcp.AckRemoval
import FrpRs.Kcp.Stream

/-!
# A run past the wrap

A machine that sends one segment at a time and has each acknowledged reaches every
sequence number.  After `2^32 - 1` rounds two segments are sent together; they are
numbered `2^32 - 1` and `0`, and an acknowledgement of the second one is lost.
-/

namespace FrpRs
namespace Kcp

open List Bytes
open Fallible
open Serial

/-!
## A flush that sends everything
-/

theorem putSegment_ok (k : Kcp PacketWriter) (need : Nat) (segment : KcpSegment) :
    (k.putSegment need segment).1 = .ok () := by
  unfold putSegment
  split
  · rw [writeBuf_ok, andThen_ok]
  · rw [andThen_ok]

theorem flushAckLoop_ok (k : Kcp PacketWriter) (segment : KcpSegment)
    (acks : List (UInt32 × UInt32)) :
    exists segment', (flushAckLoop k segment acks).1 = .ok segment' := by
  induction acks generalizing k segment with
  | nil =>
    exact ⟨segment, rfl⟩
  | cons ack acks ih =>
    rcases ack with ⟨sn, ts⟩
    have hput := putSegment_ok k overhead { segment with sn := sn, ts := ts }
    unfold flushAckLoop
    simp only
    rcases hk : k.putSegment overhead { segment with sn := sn, ts := ts } with ⟨res, k'⟩
    rw [hk] at hput
    rw [show res = .ok () from hput, andThen_ok]
    exact ih k' _

theorem flushProbe_ok (k : Kcp PacketWriter) (ask : UInt32) (cmd : UInt8)
    (segment : KcpSegment) :
    exists segment', (k.flushProbe ask cmd segment).1 = .ok segment' := by
  unfold flushProbe
  split
  · have hput := putSegment_ok k overhead { segment with cmd := cmd }
    simp only
    rcases hk : k.putSegment overhead { segment with cmd := cmd } with ⟨res, k'⟩
    rw [hk] at hput
    rw [show res = .ok () from hput, andThen_ok]
    exact ⟨_, rfl⟩
  · exact ⟨segment, rfl⟩

theorem flushProbeCommands_ok (k : Kcp PacketWriter) (segment : KcpSegment) :
    (k.flushProbeCommands segment).1 = .ok () := by
  unfold flushProbeCommands
  rcases flushProbe_ok k askSend cmdWask segment with ⟨asked, hasked⟩
  rcases hk : k.flushProbe askSend cmdWask segment with ⟨res, k'⟩
  rw [hk] at hasked
  rw [show res = .ok asked from hasked, andThen_ok]
  rcases flushProbe_ok k' askTell cmdWins asked with ⟨told, htold⟩
  rcases hk' : k'.flushProbe askTell cmdWins asked with ⟨res', k''⟩
  rw [hk'] at htold
  rw [show res' = .ok told from htold, andThen_ok]

variable {k : Kcp PacketWriter}

theorem flush_reaches_data (hupdated : k.updated = true) :
    exists k' wnd, ControlOnly k k' ∧ k.flush = k'.flushData wnd := by
  unfold flush
  rw [if_neg (by simp [hupdated])]
  have hframe := flushAcks_frame k k.controlSegment
  have hacks : exists segment, (k.flushAcks k.controlSegment).1 = .ok segment := by
    rcases flushAckLoop_ok k k.controlSegment k.acklist with ⟨segment, hloop⟩
    unfold flushAcks
    rcases hk : flushAckLoop k k.controlSegment k.acklist with ⟨res, k'⟩
    rw [hk] at hloop
    rw [show res = .ok segment from hloop, andThen_ok]
    exact ⟨segment, rfl⟩
  rcases hacks with ⟨segment, hsegment⟩
  rcases hk : k.flushAcks k.controlSegment with ⟨res, k'⟩
  rw [hk] at hsegment hframe
  rw [show res = .ok segment from hsegment, andThen_ok]
  have hprobe := flushProbeCommands_ok k'.probeWndSize segment
  have hprobeFrame := flushProbeCommands_frame k'.probeWndSize segment
  rcases hk' : k'.probeWndSize.flushProbeCommands segment with ⟨res', k''⟩
  rw [hk'] at hprobe hprobeFrame
  rw [show res' = .ok () from hprobe, andThen_ok]
  exact ⟨k'', segment.wnd, hframe.trans ((probeWndSize_frame k').trans hprobeFrame), rfl⟩

variable {Output : Type}

theorem fillWindow_empties (wnd : UInt16) {cwnd : UInt16} (queue : List KcpSegment) {k : Kcp Output}
    (count : UInt32) (hroom : offset k.sndUna k.sndNxt + queue.length ≤ cwnd.toNat) :
    (fillWindow wnd cwnd queue k count).1.sndQueue = [] := by
  induction queue generalizing k count with
  | nil =>
    rfl
  | cons seg rest ih =>
    have hw := toNat_lt_of_u16 cwnd
    have hadd := offset_add_u16 k.sndUna cwnd
    rw [length_cons] at hroom
    have hopen : timediff k.sndNxt (k.sndUna + cwnd.toUInt32) < 0 := by
      have hlt := @offset_rebase_lt k.sndUna (k.sndUna + cwnd.toUInt32) k.sndNxt (by omega)
      rw [timediff_lt_zero]
      omega
    have hnext : offset k.sndUna (k.sndNxt + 1) = offset k.sndUna k.sndNxt + 1 :=
      offset_succ_of_lt (by omega)
    unfold fillWindow
    rw [if_pos hopen]
    apply ih
    show offset k.sndUna (k.sndNxt + 1) + rest.length ≤ cwnd.toNat
    omega

theorem fillWindow_all (wnd : UInt16) {cwnd : UInt16} (k : Kcp Output)
    (hroom : offset k.sndUna k.sndNxt + k.sndQueue.length ≤ cwnd.toNat) :
    Flushed k.sndQueue.length k (fillWindow wnd cwnd k.sndQueue k 0).1 := by
  rcases fillWindow_flushed wnd cwnd k.sndQueue k 0 with ⟨n, hn⟩
  have hqueue := hn.queue
  rw [fillWindow_empties wnd k.sndQueue 0 hroom] at hqueue
  have hall : n = k.sndQueue.length := by
    have hle := hn.count
    have hlength := congrArg length hqueue
    simp only [length_nil, length_drop] at hlength hle
    omega
  rw [← hall]
  exact hn

def opening {Output : Type} (k : Kcp Output) : Bool × Bool × UInt16 × UInt16 :=
  (k.updated, k.nocwnd, k.sndWnd, k.rmtWnd)

theorem ControlOnly.opening_eq {k k' : Kcp Output} (h : ControlOnly k k') :
    opening k' = opening k := by
  rcases h with ⟨out, buf, acks, probe, tsProbe, probeWait, rfl⟩
  rfl

theorem fillWindow_opening (wnd cwnd : UInt16) (queue : List KcpSegment) (k : Kcp Output)
    (count : UInt32) :
    opening (fillWindow wnd cwnd queue k count).1 = opening k := by
  induction queue generalizing k count with
  | nil =>
    rfl
  | cons seg rest ih =>
    unfold fillWindow
    split
    · exact ih _ _
    · rfl

theorem flushData_opening (k : Kcp PacketWriter) (wnd : UInt16) :
    opening (k.flushData wnd).2 = opening k := by
  have hfill := fillWindow_opening wnd k.effectiveCwnd k.sndQueue k 0
  apply andThen_state (P := fun k' => opening k' = opening k)
  · rcases resendLoop_frame ((fillWindow wnd k.effectiveCwnd k.sndQueue k 0).1.resendParams wnd
        (fillWindow wnd k.effectiveCwnd k.sndQueue k 0).2)
      (fillWindow wnd k.effectiveCwnd k.sndQueue k 0).1 {} []
      (fillWindow wnd k.effectiveCwnd k.sndQueue k 0).1.sndBuf with
      ⟨xmit, state, segs, hcontrol, _⟩
    exact hcontrol.opening_eq.trans hfill
  · intro scan k' _ hk'
    apply andThen_state (P := fun k' => opening k' = opening k)
    · exact (flushBuf_frame k').opening_eq.trans hk'
    · intro _ k'' _ hk''
      exact hk''

theorem flush_all (hupdated : k.updated = true)
    (hroom : offset k.sndUna k.sndNxt + k.sndQueue.length ≤ k.effectiveCwnd.toNat) :
    Flushed k.sndQueue.length k k.flush.2 ∧ opening k.flush.2 = opening k := by
  rcases flush_reaches_data hupdated with ⟨k', wnd, hcontrol, hflush⟩
  rw [hflush]
  constructor
  · have hroom' : offset k'.sndUna k'.sndNxt + k'.sndQueue.length ≤ k'.effectiveCwnd.toNat := by
      rcases hcontrol with ⟨out, buf, acks, probe, tsProbe, probeWait, rfl⟩
      exact hroom
    have hqueue : k'.sndQueue = k.sndQueue := by
      rcases hcontrol with ⟨out, buf, acks, probe, tsProbe, probeWait, rfl⟩
      rfl
    have hdata := flushData_flushed_of_fill (fillWindow_all wnd k' hroom')
    rw [hqueue] at hdata
    exact Flushed.of_control hcontrol hdata
  · rw [flushData_opening, hcontrol.opening_eq]

/-!
## A datagram with one acknowledgement
-/

/-- The acknowledgement of segment `n` by a peer that has everything up to it. -/
def ackFor (n : UInt32) : KcpSegment where
  conv := 1
  cmd := cmdAck
  wnd := 128
  sn := n
  una := n + 1

theorem input_ackFor {k : Kcp Output} (hconv : k.conv = 1) (n : UInt32) :
    exists scan, (k.input (ackFor n).encode).2 =
      (k.ackSegment (ackFor n).header).inputFinish scan k.sndUna := by
  have hlong : ¬ (ackFor n).encode.length < overhead := by
    rw [encode_length]
    exact Nat.not_lt.mpr (Nat.le_add_right _ _)
  have hadopt : k.adoptConv (ackFor n).header.conv = (.ok (), k) := if_pos hconv.symm
  have hsegment : forall scan : AckScan,
      k.inputSegment scan (ackFor n).header ((ackFor n).data ++ []) =
        (.ok (scan.note n 0), k.ackSegment (ackFor n).header) := by
    intro scan
    unfold inputSegment
    rw [hadopt, andThen_ok]
    rfl
  have hloop := @inputLoop_encode _ 23 k {} (ackFor n) [] (show 0 < 4294967296 by decide)
  rw [append_nil, hsegment, andThen_ok] at hloop
  have hlength : (ackFor n).encode.length = 23 + 1 := by
    rfl
  have hrest : inputLoop 23 (k.ackSegment (ackFor n).header) (AckScan.note {} n 0) [] =
      (.ok (AckScan.note {} n 0, []), k.ackSegment (ackFor n).header) := rfl
  refine ⟨AckScan.note {} n 0, ?_⟩
  unfold input
  rw [if_neg hlong, hlength, hloop, hrest, andThen_ok]

theorem opening_ackSegment (k : Kcp Output) (hd : SegmentHeader) :
    opening (k.ackSegment hd) = (k.updated, k.nocwnd, k.sndWnd, hd.wnd) := by
  rcases inputAck_frame (k.inputCommon hd) hd with ⟨srtt, rttval, rto, segs, hack, _⟩
  rw [ackSegment, hack]
  rfl

theorem opening_inputFinish (k : Kcp Output) (scan : AckScan) (oldUna : UInt32) :
    opening (k.inputFinish scan oldUna) = opening k := by
  unfold inputFinish growCwnd parseFastack
  simp only
  split
  · split
    · split
      · rfl
      · rfl
    · split
      · rfl
      · rfl
  · split
    · rfl
    · rfl

variable {n : UInt32}

theorem sndBuf_ackSegment {k : Kcp Output} (hbuf : sns k.sndBuf = [n]) :
    (k.ackSegment (ackFor n).header).sndBuf = [] := by
  have hempty : (k.inputCommon (ackFor n).header).sndBuf = [] := by
    show dropUna (n + 1) k.sndBuf = []
    cases hsegs : k.sndBuf with
    | nil =>
      rfl
    | cons seg rest =>
      rw [hsegs] at hbuf
      simp only [sns, map_cons, cons.injEq, map_eq_nil_iff] at hbuf
      have hpassed : timediff (n + 1) seg.sn > 0 := by
        rw [hbuf.1, timediff_pos, offset_succ_of_lt (by simp)]
        simp
      rw [hbuf.2, dropUna, if_pos hpassed]
      rfl
  have hkept := (inputAck_received (k.inputCommon (ackFor n).header) (ackFor n).header).sndBuf
  rw [hempty] at hkept
  exact map_eq_nil_iff.mp (sublist_nil.mp hkept)

/-!
## Rounds
-/

/-- Nothing is queued or in flight, the next number is `n` and the window is open. -/
structure Idle (n : UInt32) (k : Kcp PacketWriter) : Prop where
  windowed : Windowed k
  conv : k.conv = 1
  stream : k.stream = true
  inputConv : k.inputConv = false
  mss : k.mss = 26
  next : k.sndNxt = n
  queue : k.sndQueue = []
  buffer : k.sndBuf = []
  opening : opening k = (true, true, 32, 128)

theorem Idle.una (h : Idle n k) : k.sndUna = n := by
  have hfront := h.windowed.send.front
  rw [h.buffer, h.next] at hfront
  exact hfront

theorem Idle.flush (h : Idle n k) (queue : List KcpSegment) (hlen : queue.length ≤ 32) :
    Flushed queue.length { k with sndQueue := queue } (Kcp.flush { k with sndQueue := queue }).2 ∧
      Kcp.opening (Kcp.flush { k with sndQueue := queue }).2 = (true, true, 32, 128) := by
  have hopening := h.opening
  simp only [Kcp.opening, Prod.mk.injEq] at hopening
  rcases hopening with ⟨hupdated, hnocwnd, hsndWnd, hrmtWnd⟩
  have hcwnd : (effectiveCwnd { k with sndQueue := queue }).toNat = 32 := by
    show (if k.nocwnd = false then min k.cwnd (min k.sndWnd k.rmtWnd)
      else min k.sndWnd k.rmtWnd).toNat = 32
    rw [if_neg (by simp [hnocwnd]), hsndWnd, hrmtWnd]
    decide
  have hroom : offset k.sndUna k.sndNxt + queue.length ≤
      (effectiveCwnd { k with sndQueue := queue }).toNat := by
    rw [hcwnd, h.una, h.next, offset_self]
    omega
  rcases flush_all (k := { k with sndQueue := queue }) hupdated hroom with ⟨hflushed, hsame⟩
  exact ⟨hflushed, hsame.trans h.opening⟩

def round (n : UInt32) : List Op :=
  [.send [0], .flush, .input (ackFor n).encode]

theorem Idle.round (h : Idle n k) :
    Idle (n + 1) (Run.run apply k (Kcp.round n)) := by
  have hsend := @send_single _ k [0] h.stream h.queue (by simp) (by rw [h.mss]; decide)
  rcases h.flush [KcpSegment.newWithData [0]] (by decide) with ⟨hflushed, hopening⟩
  have hwindowed := Run.run_preserves apply_windowed (Kcp.round n) h.windowed
  have hfirst : Run.run apply k [.send [0], .flush] =
      (Kcp.flush { k with sndQueue := [KcpSegment.newWithData [0]] }).2 := by
    show (Kcp.flush (k.send [0]).2).2 = _
    rw [hsend]
  have hrun : Run.run apply k (Kcp.round n) =
      (Kcp.input (Kcp.flush { k with sndQueue := [KcpSegment.newWithData [0]] }).2
        (ackFor n).encode).2 := by
    rw [← hfirst]
    rfl
  generalize (Kcp.flush { k with sndQueue := [KcpSegment.newWithData [0]] }).2 = sent
    at hflushed hopening hrun
  have hsns : sns sent.sndBuf = [n] := by
    have hbuffer := congrArg (map SegmentCore.sn) hflushed.buffer
    rw [map_map] at hbuffer
    simp only [h.buffer, h.next, stampedCores, map_nil, nil_append, map_cons,
      length_singleton, take_succ_cons, take_zero] at hbuffer
    exact hbuffer
  have hreceived := input_received (ackFor n).encode (hflushed.inputConv.trans h.inputConv)
  rcases input_ackFor (hflushed.conv.trans h.conv) n with ⟨scan, hinput⟩
  rw [hrun] at hwindowed ⊢
  constructor
  · exact hwindowed
  · exact hreceived.conv.trans (hflushed.conv.trans h.conv)
  · exact hreceived.stream.trans (hflushed.stream.trans h.stream)
  · exact hreceived.inputConv.trans (hflushed.inputConv.trans h.inputConv)
  · exact hreceived.mss.trans (hflushed.mss.trans h.mss)
  · rw [hreceived.sndNxt, hflushed.next]
    show k.sndNxt + 1 = n + 1
    rw [h.next]
  · rw [hreceived.sndQueue, hflushed.queue]
    rfl
  · have hfinish := (inputFinish_received (sent.ackSegment (ackFor n).header) scan
      sent.sndUna).sndBuf
    rw [sndBuf_ackSegment hsns] at hfinish
    rw [hinput]
    exact map_eq_nil_iff.mp (sublist_nil.mp hfinish)
  · rw [hinput, opening_inputFinish, opening_ackSegment]
    simp only [Kcp.opening, Prod.mk.injEq] at hopening
    rcases hopening with ⟨hupdated, hnocwnd, hsndWnd, _⟩
    rw [hupdated, hnocwnd, hsndWnd]
    rfl

theorem exists_idle (m : Nat) :
    exists ops, Idle (UInt32.ofNat m) (driven 1 ({} : PacketWriter) true smallSettings ops) := by
  induction m with
  | zero =>
    refine ⟨[.update 0], ?_⟩
    constructor
    · exact (driven_windowed 1 ({} : PacketWriter) true smallSettings [.update 0]).1
    all_goals rfl
  | succ m ih =>
    rcases ih with ⟨ops, hidle⟩
    refine ⟨ops ++ Kcp.round (UInt32.ofNat m), ?_⟩
    have hround := hidle.round
    rw [UInt32.ofNat_add]
    unfold driven at hround ⊢
    rw [Run.run_append]
    exact hround

def pair : List KcpSegment :=
  splitSegments 26 true 2 (replicate 27 0)

theorem Idle.send_pair (h : Idle n k) :
    (k.send (replicate 27 0)).2 = { k with sndQueue := pair } := by
  unfold send extendSize extendLast sendRest
  simp only [getLast?_nil, h.mss, h.stream, h.queue]
  rfl

/-- The numbers have wrapped: segments `2^32 - 1` and `0` are in flight, and the second one is
not removed when it is acknowledged. -/
theorem wrapped_ack_ignored :
    exists (k : Kcp PacketWriter) (sn : UInt32), Reachable k ∧
      offset k.sndUna sn < offset k.sndUna k.sndNxt ∧ sn ∈ sns k.sndBuf ∧
      ¬ Removes sn k.sndBuf (k.parseAck sn).sndBuf := by
  rcases exists_idle 4294967295 with ⟨ops, hidle⟩
  have hreach := Reachable.driven 1 ({} : PacketWriter) true smallSettings ops
  generalize driven 1 ({} : PacketWriter) true smallSettings ops = k at hidle hreach
  rcases hidle.flush pair (by decide) with ⟨hflushed, _⟩
  have hsent : Reachable (Kcp.flush { k with sndQueue := pair }).2 := by
    rw [← hidle.send_pair]
    exact (hreach.call (.send (replicate 27 0))).call .flush
  generalize (Kcp.flush { k with sndQueue := pair }).2 = sent at hflushed hsent
  have hsns : sns sent.sndBuf = [4294967295, 0] := by
    have hbuffer := congrArg (map SegmentCore.sn) hflushed.buffer
    rw [map_map, hidle.buffer, hidle.next] at hbuffer
    exact hbuffer
  have huna : sent.sndUna = 4294967295 := by
    have hfront := hsent.windowed.send.front
    rw [hsns] at hfront
    exact hfront
  have hnext : sent.sndNxt = 1 := by
    rw [hflushed.next, hidle.next]
    rfl
  have hsn : offset sent.sndUna 0 < offset sent.sndUna sent.sndNxt := by
    rw [huna, hnext]
    decide
  have hmem : 0 ∈ sns sent.sndBuf := by
    rw [hsns]
    decide
  refine ⟨sent, 0, hsent, hsn, hmem, ?_⟩
  rw [parseAck_keeps_wrapped hsent.windowed hsn (by rw [huna]; decide)]
  exact not_removes_self hmem

end Kcp
end FrpRs
