import Mathlib.Data.List.Infix
import FrpRs.Kcp.Window

/-!
# What a received datagram may change

Processing a datagram removes segments from the send buffer and moves data
toward the receive queue.  It leaves the conversation, the limits, the send
queue and the output alone.  A datagram that is a sequence of encoded segments is
processed segment by segment.
-/

namespace FrpRs
namespace Kcp

open Bytes
open Fallible

variable {Output : Type}

structure Received (k k' : Kcp Output) : Prop where
  mtu : k'.mtu = k.mtu
  mss : k'.mss = k.mss
  stream : k'.stream = k.stream
  rcvWnd : k'.rcvWnd = k.rcvWnd
  conv : k'.conv = k.conv
  inputConv : k'.inputConv = k.inputConv
  sndQueue : k'.sndQueue = k.sndQueue
  sndNxt : k'.sndNxt = k.sndNxt
  output : k'.output = k.output
  buf : k'.buf = k.buf
  sndBuf : (k'.sndBuf.map KcpSegment.core).Sublist (k.sndBuf.map KcpSegment.core)

theorem Received.refl (k : Kcp Output) : Received k k :=
  ⟨rfl, rfl, rfl, rfl, rfl, rfl, rfl, rfl, rfl, rfl, List.Sublist.refl _⟩

theorem Received.trans {k k' k'' : Kcp Output} (h : Received k k')
    (h' : Received k' k'') : Received k k'' where
  mtu := h'.mtu.trans h.mtu
  mss := h'.mss.trans h.mss
  stream := h'.stream.trans h.stream
  rcvWnd := h'.rcvWnd.trans h.rcvWnd
  conv := h'.conv.trans h.conv
  inputConv := h'.inputConv.trans h.inputConv
  sndQueue := h'.sndQueue.trans h.sndQueue
  sndNxt := h'.sndNxt.trans h.sndNxt
  output := h'.output.trans h.output
  buf := h'.buf.trans h.buf
  sndBuf := h'.sndBuf.trans h.sndBuf

variable {k : Kcp Output}

theorem received_of_sublist {segs : List KcpSegment} (h : segs.Sublist k.sndBuf) :
    Received k ({ k with sndBuf := segs }) :=
  ⟨rfl, rfl, rfl, rfl, rfl, rfl, rfl, rfl, rfl, rfl, h.map _⟩

theorem shrinkBuf_received (k : Kcp Output) : Received k k.shrinkBuf :=
  ⟨rfl, rfl, rfl, rfl, rfl, rfl, rfl, rfl, rfl, rfl, List.Sublist.refl _⟩

theorem updateAck_received (k : Kcp Output) (rtt : UInt32) :
    Received k (k.updateAck rtt) := by
  obtain ⟨srtt, rttval, rto, hrtt⟩ := updateAck_frame k rtt
  rw [hrtt]
  exact ⟨rfl, rfl, rfl, rfl, rfl, rfl, rfl, rfl, rfl, rfl, List.Sublist.refl _⟩

theorem parseAck_received (k : Kcp Output) (sn : UInt32) :
    Received k (k.parseAck sn) := by
  obtain ⟨segs, hack, hsub⟩ := parseAck_frame k sn
  rw [hack]
  exact received_of_sublist hsub

theorem inputAck_received (k : Kcp Output) (hd : SegmentHeader) :
    Received k (k.inputAck hd) := by
  unfold inputAck
  simp only
  split
  · exact ((updateAck_received k _).trans (parseAck_received _ _)).trans
      (shrinkBuf_received _)
  · exact (parseAck_received _ _).trans (shrinkBuf_received _)

theorem inputCommon_received (k : Kcp Output) (hd : SegmentHeader) :
    Received k (k.inputCommon hd) := by
  have hdrop : Received k ({ k with
      rmtWnd := hd.wnd, sndBuf := dropUna hd.una k.sndBuf }) :=
    ⟨rfl, rfl, rfl, rfl, rfl, rfl, rfl, rfl, rfl, rfl,
      (dropUna_sublist hd.una k.sndBuf).map _⟩
  exact hdrop.trans (shrinkBuf_received _)

theorem parseData_received (k : Kcp Output) (new : KcpSegment) :
    Received k (k.parseData new) := by
  unfold parseData
  split
  · exact Received.refl k
  · exact ⟨rfl, rfl, rfl, rfl, rfl, rfl, rfl, rfl, rfl, rfl,
      List.Sublist.refl _⟩

theorem ackPush_received (k : Kcp Output) (sn ts : UInt32) :
    Received k (k.ackPush sn ts) :=
  ⟨rfl, rfl, rfl, rfl, rfl, rfl, rfl, rfl, rfl, rfl, List.Sublist.refl _⟩

/-- A data segment that `input` refuses when it lies in the receive window. -/
def Malformed (k : Kcp Output) (hd : SegmentHeader) : Prop :=
  (k.stream = true ∧ hd.frg ≠ 0) ∨ hd.len > k.mss

instance (k : Kcp Output) (hd : SegmentHeader) : Decidable (Malformed k hd) :=
  inferInstanceAs (Decidable (_ ∨ _))

/-- The four ways a data segment is handled: behind the window it is ignored,
below it it is only acknowledged, inside it it is acknowledged and then refused
or stored. -/
theorem inputPush_cases (k : Kcp Output) (hd : SegmentHeader) (body : List Byte) :
    (¬ timediff hd.sn (k.rcvNxt + k.rcvWnd.toUInt32) < 0 ∧
      k.inputPush hd body = (.ok (), k)) ∨
    (timediff hd.sn (k.rcvNxt + k.rcvWnd.toUInt32) < 0 ∧
      ¬ timediff hd.sn k.rcvNxt ≥ 0 ∧
      k.inputPush hd body = (.ok (), k.ackPush hd.sn hd.ts)) ∨
    (timediff hd.sn (k.rcvNxt + k.rcvWnd.toUInt32) < 0 ∧
      timediff hd.sn k.rcvNxt ≥ 0 ∧ Malformed k hd ∧
      exists e, k.inputPush hd body = (.error e, k.ackPush hd.sn hd.ts)) ∨
    (timediff hd.sn (k.rcvNxt + k.rcvWnd.toUInt32) < 0 ∧
      timediff hd.sn k.rcvNxt ≥ 0 ∧ ¬ Malformed k hd ∧
      k.inputPush hd body = (.ok (),
        (k.ackPush hd.sn hd.ts).parseData (receivedSegment hd (body.take hd.len)))) := by
  unfold inputPush Malformed
  by_cases hwnd : timediff hd.sn (k.rcvNxt + k.rcvWnd.toUInt32) < 0
  · by_cases hnxt : timediff hd.sn k.rcvNxt ≥ 0
    · right
      right
      by_cases hfrg : k.stream = true ∧ hd.frg ≠ 0
      · left
        refine ⟨hwnd, hnxt, .inl hfrg, .unexpectedFragment hd.frg, ?_⟩
        rw [if_pos hwnd]
        exact (if_pos hnxt).trans (if_pos hfrg)
      · by_cases hlen : hd.len > k.mss
        · left
          refine ⟨hwnd, hnxt, .inr hlen, .invalidSegmentDataSize k.mss hd.len, ?_⟩
          rw [if_pos hwnd]
          exact (if_pos hnxt).trans ((if_neg hfrg).trans (if_pos hlen))
        · right
          refine ⟨hwnd, hnxt, fun h => h.elim hfrg hlen, ?_⟩
          rw [if_pos hwnd]
          exact (if_pos hnxt).trans ((if_neg hfrg).trans (if_neg hlen))
    · right
      left
      refine ⟨hwnd, hnxt, ?_⟩
      rw [if_pos hwnd]
      exact if_neg hnxt
  · left
    exact ⟨hwnd, if_neg hwnd⟩

theorem inputPush_received (k : Kcp Output) (hd : SegmentHeader) (body : List Byte) :
    Received k (k.inputPush hd body).2 := by
  have hack := ackPush_received k hd.sn hd.ts
  rcases inputPush_cases k hd body with
    ⟨_, heq⟩ | ⟨_, _, heq⟩ | ⟨_, _, _, e, heq⟩ | ⟨_, _, _, heq⟩
  · rw [heq]
    exact Received.refl k
  · rw [heq]
    exact hack
  · rw [heq]
    exact hack
  · rw [heq]
    exact hack.trans (parseData_received _ _)

theorem inputCommand_received (k : Kcp Output) (scan : AckScan) (hd : SegmentHeader)
    (body : List Byte) : Received k (k.inputCommand scan hd body).2 := by
  unfold inputCommand
  split
  · exact inputAck_received k hd
  · split
    · apply andThen_state
      · exact inputPush_received k hd body
      · intro _ _ _ hk'
        exact hk'
    · split
      · exact ⟨rfl, rfl, rfl, rfl, rfl, rfl, rfl, rfl, rfl, rfl,
          List.Sublist.refl _⟩
      · exact Received.refl k

theorem adoptConv_received {conv : UInt32} (hconv : k.inputConv = false ∨ conv = k.conv) :
    Received k (k.adoptConv conv).2 := by
  unfold adoptConv
  split
  · exact Received.refl k
  · rename_i hne
    have hwait : ¬ k.inputConv = true := by
      rw [hconv.resolve_right hne]
      simp
    rw [if_neg hwait]
    exact Received.refl k

theorem inputSegment_received {k : Kcp Output} (scan : AckScan) {hd : SegmentHeader}
    (body : List Byte) (hconv : k.inputConv = false ∨ hd.conv = k.conv) :
    Received k (k.inputSegment scan hd body).2 := by
  apply andThen_state
  · exact adoptConv_received hconv
  · intro _ k' _ hk'
    split
    · exact hk'
    · split
      · exact hk'
      · exact hk'.trans ((inputCommon_received k' hd).trans
          (inputCommand_received _ scan hd body))

theorem inputLoop_received (fuel : Nat) (scan : AckScan) (buf : List Byte)
    (hconv : k.inputConv = false) :
    Received k (inputLoop fuel k scan buf).2 := by
  induction fuel generalizing k scan buf with
  | zero =>
    exact Received.refl k
  | succ fuel ih =>
    unfold inputLoop
    split
    · exact Received.refl k
    · apply andThen_state
      · exact inputSegment_received scan (buf.drop overhead) (.inl hconv)
      · intro scan' k' _ hk'
        exact hk'.trans (ih scan' _ (hk'.inputConv.trans hconv))

theorem countFastack_core (sn ts : UInt32) (segs : List KcpSegment) :
    (countFastack sn ts segs).map KcpSegment.core = segs.map KcpSegment.core := by
  induction segs with
  | nil =>
    rfl
  | cons seg rest ih =>
    unfold countFastack
    split
    · rfl
    · split
      · simp [ih, KcpSegment.core]
      · simp [ih]

theorem inputFinish_received (k : Kcp Output) (scan : AckScan) (oldUna : UInt32) :
    Received k (k.inputFinish scan oldUna) := by
  have hgrow : forall k' : Kcp Output, Received k' (k'.growCwnd oldUna) := by
    intro k'
    obtain ⟨cwnd, incr, hk'⟩ := growCwnd_frame k' oldUna
    rw [hk']
    exact ⟨rfl, rfl, rfl, rfl, rfl, rfl, rfl, rfl, rfl, rfl,
      List.Sublist.refl _⟩
  have hfast : Received k (k.parseFastack scan.maxAck scan.latestTs) := by
    unfold parseFastack
    split
    · exact Received.refl k
    · refine ⟨rfl, rfl, rfl, rfl, rfl, rfl, rfl, rfl, rfl, rfl, ?_⟩
      show ((countFastack scan.maxAck scan.latestTs k.sndBuf).map KcpSegment.core).Sublist _
      rw [countFastack_core]
  unfold inputFinish
  split
  · exact hfast.trans (hgrow _)
  · exact hgrow k

theorem input_received (buf : List Byte) (hconv : k.inputConv = false) :
    Received k (k.input buf).2 := by
  unfold input
  split
  · exact Received.refl k
  · apply andThen_state
    · exact inputLoop_received buf.length {} buf hconv
    · intro scanned k' _ hk'
      exact hk'.trans (inputFinish_received k' scanned.1 k.sndUna)

theorem recv_received (k : Kcp Output) (bufLen : Nat) :
    Received k (k.recv bufLen).2 := by
  unfold recv
  split
  · exact Received.refl k
  · split
    · exact Received.refl k
    · split
      · exact Received.refl k
      · simp only
        split
        · exact ⟨rfl, rfl, rfl, rfl, rfl, rfl, rfl, rfl, rfl, rfl,
            List.Sublist.refl _⟩
        · exact ⟨rfl, rfl, rfl, rfl, rfl, rfl, rfl, rfl, rfl, rfl,
            List.Sublist.refl _⟩

/-!
## Encoded segments
-/

theorem inputLoop_succ {fuel : Nat} {scan : AckScan} {buf : List Byte}
    (hlong : ¬ buf.length < overhead) :
    inputLoop (fuel + 1) k scan buf =
      andThen (k.inputSegment scan (readHeader buf) (buf.drop overhead)) fun scan k =>
        inputLoop fuel k scan ((buf.drop overhead).drop (readHeader buf).len) :=
  if_neg hlong

theorem inputLoop_encode {fuel : Nat} (k : Kcp Output) (scan : AckScan)
    (s : KcpSegment) (rest : List Byte) (hlen : s.data.length < 4294967296) :
    inputLoop (fuel + 1) k scan (s.encode ++ rest) =
      andThen (k.inputSegment scan s.header (s.data ++ rest)) fun scan k =>
        inputLoop fuel k scan rest := by
  have hlong : ¬ (s.encode ++ rest).length < overhead := by
    rw [List.length_append, encode_length]
    omega
  have hdrop : (s.data ++ rest).drop s.header.len = rest := by
    simp [KcpSegment.header]
  rw [inputLoop_succ hlong, readHeader_encode s rest hlen, drop_overhead_encode, hdrop]

theorem inputLoop_encodeAll {I : Kcp Output -> Prop} {Q : KcpSegment -> Prop}
    (hlen : forall s, Q s -> s.data.length < 4294967296)
    (hstep : forall k scan s rest, I k -> Q s ->
      I (k.inputSegment scan s.header (s.data ++ rest)).2) {segs : List KcpSegment}
    (hsegs : forall s, s ∈ segs -> Q s) (fuel : Nat) (scan : AckScan) (hk : I k) :
    I (inputLoop fuel k scan (encodeAll segs)).2 := by
  induction segs generalizing fuel k scan with
  | nil =>
    cases fuel with
    | zero => exact hk
    | succ fuel => exact hk
  | cons s segs ih =>
    cases fuel with
    | zero => exact hk
    | succ fuel =>
      have hs := hsegs s (by simp)
      rw [encodeAll_cons, inputLoop_encode k scan s _ (hlen s hs)]
      apply andThen_state
      · exact hstep k scan s _ hk hs
      · intro scan' k' _ hk'
        exact ih (fun t ht => hsegs t (List.mem_cons_of_mem _ ht)) fuel scan' hk'

end Kcp
end FrpRs
