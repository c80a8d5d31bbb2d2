import FrpRs.Kcp.Flush

/-!
# Window invariants

Every call keeps the send buffer and the reassembly buffer ordered inside their
windows, whatever bytes arrive.  The invariant only reads sequence numbers and
window sizes, and all of its arithmetic is modulo `2^32`.
-/

namespace FrpRs
namespace Kcp

open List Bytes
open Fallible
open Serial

variable {Output : Type}

/-- Sequence numbers in flight: ordered between `snd_una` and `snd_nxt`, starting
at `snd_una`, and no more than the send window apart. -/
structure SendWindow (una nxt : UInt32) (wnd : UInt16) (buffered : List UInt32) :
    Prop where
  within : InWindow una (offset una nxt) buffered
  front : una = buffered.headD nxt
  size : offset una nxt ≤ wnd.toNat

/-- Sequence numbers waiting for reassembly: ordered inside the receive window,
behind a queue that never outgrows it. -/
structure RecvWindow (nxt : UInt32) (wnd : UInt16) (buffered : List UInt32)
    (queued : Nat) : Prop where
  within : InWindow nxt wnd.toNat buffered
  queue : queued ≤ wnd.toNat

structure Windowed (k : Kcp Output) : Prop where
  send : SendWindow k.sndUna k.sndNxt k.sndWnd (sns k.sndBuf)
  recv : RecvWindow k.rcvNxt k.rcvWnd (sns k.rcvBuf) k.rcvQueue.length

theorem toNat_lt_of_u16 (w : UInt16) : w.toNat < 65536 := w.toNat_lt

theorem offset_add_u16 (base : UInt32) (w : UInt16) :
    offset base (base + w.toUInt32) = w.toNat := by
  have hw := toNat_lt_of_u16 w
  rw [offset_add, offset_self, UInt16.toNat_toUInt32]
  omega

/-!
## The send window
-/

variable {wnd : UInt16}

theorem SendWindow.shrink {una nxt : UInt32} {buffered rest : List UInt32}
    (h : SendWindow una nxt wnd buffered) (hsub : rest.Sublist buffered) :
    SendWindow (rest.headD nxt) nxt wnd rest := by
  have hrest := h.within.sublist hsub
  cases rest with
  | nil =>
    exact ⟨InWindow.nil _ _, rfl, by simp⟩
  | cons head tail =>
    have hhead : offset una head ≤ offset una nxt :=
      Nat.le_of_lt (hrest.below head (by simp))
    have hsize := h.size
    have hrebase := offset_rebase hhead
    refine ⟨?_, rfl, ?_⟩
    · rw [headD_cons, hrebase]
      exact hrest.rebase_head
    · rw [headD_cons, hrebase]
      omega

theorem SendWindow.snoc {una nxt : UInt32} {buffered : List UInt32}
    (h : SendWindow una nxt wnd buffered) (hroom : offset una nxt < wnd.toNat) :
    SendWindow una (nxt + 1) wnd (buffered ++ [nxt]) := by
  have hw := toNat_lt_of_u16 wnd
  have hnext : offset una (nxt + 1) = offset una nxt + 1 :=
    offset_succ_of_lt (by omega)
  refine ⟨?_, ?_, ?_⟩
  · rw [hnext]
    exact h.within.snoc
  · have hfront := h.front
    cases buffered with
    | nil => simpa using hfront
    | cons head tail => simpa using hfront
  · omega

theorem shrinkBuf_una (k : Kcp Output) :
    k.shrinkBuf.sndUna = (sns k.sndBuf).headD k.sndNxt := by
  unfold shrinkBuf sns
  cases k.sndBuf <;> rfl

variable {k : Kcp Output}

theorem shrinkBuf_windowed {segs : List KcpSegment} (h : Windowed k) (hsub : segs.Sublist k.sndBuf) :
    Windowed (shrinkBuf { k with sndBuf := segs }) := by
  have hsns : (sns segs).Sublist (sns k.sndBuf) := hsub.map _
  refine ⟨?_, h.recv⟩
  rw [shrinkBuf_una]
  exact h.send.shrink hsns

theorem dropUna_sublist (una : UInt32) (segs : List KcpSegment) :
    (dropUna una segs).Sublist segs := by
  induction segs with
  | nil =>
    exact List.Sublist.refl _
  | cons front rest ih =>
    unfold dropUna
    split
    · exact ih.cons front
    · exact List.Sublist.refl _

theorem removeAcked_sublist (sn : UInt32) (segs : List KcpSegment) :
    (removeAcked sn segs).Sublist segs := by
  induction segs with
  | nil =>
    exact List.Sublist.refl _
  | cons seg rest ih =>
    unfold removeAcked
    split
    · exact sublist_cons_self seg rest
    · split
      · exact List.Sublist.refl _
      · exact ih.cons_cons seg

theorem parseAck_frame (k : Kcp Output) (sn : UInt32) :
    exists segs, k.parseAck sn = { k with sndBuf := segs } ∧
      segs.Sublist k.sndBuf := by
  unfold parseAck
  split
  · exact ⟨k.sndBuf, rfl, List.Sublist.refl _⟩
  · split
    · exact ⟨k.sndBuf, rfl, List.Sublist.refl _⟩
    · rename_i front rest hbuf
      rw [hbuf]
      split
      · exact ⟨rest, rfl, sublist_cons_self front rest⟩
      · exact ⟨_, rfl, removeAcked_sublist sn (front :: rest)⟩

theorem smoothRtt_frame (k : Kcp Output) (rtt : UInt32) :
    exists srtt rttval,
      k.smoothRtt rtt = { k with rxSrtt := srtt, rxRttval := rttval } := by
  unfold smoothRtt
  split
  · exact ⟨_, _, rfl⟩
  · exact ⟨_, _, rfl⟩

theorem updateAck_frame (k : Kcp Output) (rtt : UInt32) :
    exists srtt rttval rto,
      k.updateAck rtt =
        { k with rxSrtt := srtt, rxRttval := rttval, rxRto := rto } := by
  obtain ⟨srtt, rttval, hsmooth⟩ := smoothRtt_frame k (min rtt rtoMax)
  unfold updateAck
  rw [hsmooth]
  exact ⟨srtt, rttval, _, rfl⟩

theorem inputAck_frame (k : Kcp Output) (hd : SegmentHeader) :
    exists srtt rttval rto segs,
      k.inputAck hd = shrinkBuf
        { k with rxSrtt := srtt, rxRttval := rttval, rxRto := rto, sndBuf := segs } ∧
      segs.Sublist k.sndBuf := by
  unfold inputAck
  simp only
  split
  · rcases updateAck_frame k (timediff k.current hd.ts).toUInt32 with ⟨srtt, rttval, rto, hrtt⟩
    rw [hrtt]
    rcases parseAck_frame { k with rxSrtt := srtt, rxRttval := rttval, rxRto := rto } hd.sn with
      ⟨segs, hack, hsub⟩
    rw [hack]
    exact ⟨srtt, rttval, rto, segs, rfl, hsub⟩
  · rcases parseAck_frame k hd.sn with ⟨segs, hack, hsub⟩
    rw [hack]
    exact ⟨k.rxSrtt, k.rxRttval, k.rxRto, segs, rfl, hsub⟩

theorem inputAck_windowed (h : Windowed k) (hd : SegmentHeader) :
    Windowed (k.inputAck hd) := by
  rcases inputAck_frame k hd with ⟨srtt, rttval, rto, segs, hack, hsub⟩
  rw [hack]
  exact shrinkBuf_windowed
    (k := { k with rxSrtt := srtt, rxRttval := rttval, rxRto := rto })
    ⟨h.send, h.recv⟩ hsub

theorem inputCommon_windowed (h : Windowed k) (hd : SegmentHeader) :
    Windowed (k.inputCommon hd) :=
  shrinkBuf_windowed (k := { k with rmtWnd := hd.wnd }) ⟨h.send, h.recv⟩
    (dropUna_sublist hd.una k.sndBuf)

theorem countFastack_sns (sn ts : UInt32) (segs : List KcpSegment) :
    sns (countFastack sn ts segs) = sns segs := by
  induction segs with
  | nil =>
    rfl
  | cons seg rest ih =>
    have hrest : (countFastack sn ts rest).map (fun s => s.sn) =
        rest.map fun s => s.sn := ih
    unfold countFastack sns
    split
    · rfl
    · split
      · simp [hrest]
      · simp [hrest]

theorem parseFastack_windowed (h : Windowed k) (sn ts : UInt32) :
    Windowed (k.parseFastack sn ts) := by
  unfold parseFastack
  split
  · exact h
  · refine ⟨?_, h.recv⟩
    show SendWindow k.sndUna k.sndNxt k.sndWnd (sns (countFastack sn ts k.sndBuf))
    rw [countFastack_sns]
    exact h.send

/-!
## The receive window
-/

variable {nxt : UInt32}

theorem RecvWindow.advance {rest : List UInt32} {queued : Nat}
    (h : RecvWindow nxt wnd (nxt :: rest) queued) (hroom : queued < wnd.toNat) :
    RecvWindow (nxt + 1) wnd rest (queued + 1) := by
  have hnext : offset nxt (nxt + 1) = 1 := by
    rw [offset_succ_of_lt (by simp), offset_self]
  have hrest : InWindow nxt wnd.toNat rest :=
    h.within.sublist (sublist_cons_self _ _)
  refine ⟨?_, by omega⟩
  apply (@InWindow.rebase nxt (nxt + 1) _ _ hrest ?_).mono (Nat.sub_le _ _)
  intro sn hsn
  have hlt := rel_of_pairwise_cons h.within.increasing hsn
  rw [offset_self] at hlt
  rw [hnext]
  exact hlt

theorem moveBufLoop_window {queue buf : List KcpSegment}
    (h : RecvWindow nxt wnd (sns buf) queue.length) :
    RecvWindow (moveBufLoop wnd nxt queue buf).1 wnd
      (sns (moveBufLoop wnd nxt queue buf).2.2)
      (moveBufLoop wnd nxt queue buf).2.1.length := by
  induction buf generalizing nxt queue with
  | nil =>
    exact h
  | cons seg rest ih =>
    unfold moveBufLoop
    split
    · rename_i hfront
      apply ih
      have hadvance : RecvWindow (nxt + 1) wnd (sns rest) (queue.length + 1) := by
        apply RecvWindow.advance _ hfront.2
        rw [← hfront.1] at h ⊢
        exact h
      simpa using hadvance
    · exact h

theorem moveBuf_windowed (h : Windowed k) :
    Windowed (moveBuf k) :=
  ⟨h.send, moveBufLoop_window h.recv⟩

/-- The backward scan keeps a strictly decreasing list strictly decreasing and
adds only the new number. -/
theorem insertScan_decreasing {size : Nat} {new : KcpSegment} (hsize : size ≤ 2147483648)
    (hnew : offset nxt new.sn < size) {segs out : List KcpSegment}
    (hsorted : (sns segs).Pairwise fun a b => offset nxt b < offset nxt a)
    (hbelow : forall sn, sn ∈ sns segs -> offset nxt sn < size)
    (hscan : insertScan new segs = some out) :
    ((sns out).Pairwise fun a b => offset nxt b < offset nxt a) ∧
      forall sn, sn ∈ sns out -> sn = new.sn ∨ sn ∈ sns segs := by
  induction segs generalizing out with
  | nil =>
    simp only [insertScan, Option.some.injEq] at hscan
    rw [← hscan]
    simp [sns]
  | cons seg rest ih =>
    have hseg : offset nxt seg.sn < size := hbelow seg.sn (by simp [sns])
    have htail : forall sn, sn ∈ sns rest -> offset nxt sn < offset nxt seg.sn := by
      intro sn hsn
      exact rel_of_pairwise_cons hsorted hsn
    unfold insertScan at hscan
    split at hscan
    · cases hscan
    · rename_i hne
      split at hscan
      · rename_i hlater
        have hlt : offset nxt seg.sn < offset nxt new.sn :=
          (signedDiff_pos_of_window (by omega) (by omega)).mp hlater
        simp only [Option.some.injEq] at hscan
        rw [← hscan]
        refine ⟨?_, by simp [sns]⟩
        refine List.Pairwise.cons ?_ hsorted
        intro sn hsn
        rcases mem_cons.mp hsn with heq | hrest
        · rw [heq]
          exact hlt
        · exact Nat.lt_trans (htail sn hrest) hlt
      · rename_i hlater
        have hge : offset nxt new.sn ≤ offset nxt seg.sn := by
          apply Nat.le_of_not_lt
          intro hlt
          exact hlater ((signedDiff_pos_of_window (by omega) (by omega)).mpr hlt)
        have hlt : offset nxt new.sn < offset nxt seg.sn := by
          rcases Nat.lt_or_eq_of_le hge with hlt | heq
          · exact hlt
          · exact absurd (offset_injective heq).symm hne
        rcases Option.map_eq_some_iff.mp hscan with ⟨tail, htailScan, hout⟩
        have hrec := ih hsorted.of_cons
          (fun sn hsn => hbelow sn (mem_cons_of_mem _ hsn)) htailScan
        rw [← hout]
        constructor
        · refine List.Pairwise.cons ?_ hrec.1
          intro sn hsn
          rcases hrec.2 sn hsn with heq | hmem
          · rw [heq]
            exact hlt
          · exact htail sn hmem
        · intro sn hsn
          rcases mem_cons.mp hsn with heq | hmem
          · exact .inr (by rw [heq]; simp [sns])
          · rcases hrec.2 sn hmem with heq | hold
            · exact .inl heq
            · exact .inr (mem_cons_of_mem _ hold)

theorem sns_reverse (segs : List KcpSegment) : sns segs.reverse = (sns segs).reverse := by
  simp [sns]

theorem insertData_window {size : Nat} {new : KcpSegment} {buf : List KcpSegment}
    (hsize : size ≤ 2147483648) (hnew : offset nxt new.sn < size) (h : InWindow nxt size (sns buf)) :
    InWindow nxt size (sns (insertData new buf)) := by
  unfold insertData
  split
  · exact h
  · rename_i out hscan
    have hrev : (sns buf.reverse).Pairwise fun a b => offset nxt b < offset nxt a := by
      rw [sns_reverse, pairwise_reverse]
      exact h.increasing
    have hbelow : forall sn, sn ∈ sns buf.reverse -> offset nxt sn < size := by
      intro sn hsn
      rw [sns_reverse, mem_reverse] at hsn
      exact h.below sn hsn
    have hout := insertScan_decreasing hsize hnew hrev hbelow hscan
    constructor
    · rw [sns_reverse, pairwise_reverse]
      exact hout.1
    · intro sn hsn
      rw [sns_reverse, mem_reverse] at hsn
      rcases hout.2 sn hsn with heq | hold
      · rw [heq]
        exact hnew
      · exact hbelow sn hold

theorem offset_lt_of_window_tests {nxt sn : UInt32}
    (hupper : ¬ timediff sn (nxt + wnd.toUInt32) ≥ 0) (hlower : ¬ timediff sn nxt < 0) :
    offset nxt sn < wnd.toNat := by
  have hadd := offset_add_u16 nxt wnd
  rw [timediff_nonneg] at hupper
  rw [timediff_lt_zero] at hlower
  rcases Nat.lt_or_ge (offset nxt sn) wnd.toNat with hlt | hge
  · exact hlt
  · have hrebase := @offset_rebase nxt (nxt + wnd.toUInt32) sn
      (by omega)
    omega

theorem parseData_windowed (h : Windowed k) (new : KcpSegment) :
    Windowed (k.parseData new) := by
  have hw := toNat_lt_of_u16 k.rcvWnd
  unfold parseData
  split
  · exact h
  · rename_i hin
    rw [not_or] at hin
    have hnew := offset_lt_of_window_tests hin.1 hin.2
    apply moveBuf_windowed
    have hinsert : InWindow k.rcvNxt k.rcvWnd.toNat (sns (insertData new k.rcvBuf)) :=
      insertData_window (by omega) hnew h.recv.within
    exact ⟨h.send, hinsert, h.recv.queue⟩

theorem inputPush_windowed (h : Windowed k) (hd : SegmentHeader) (body : List Byte) :
    Windowed (k.inputPush hd body).2 := by
  have hack : Windowed (k.ackPush hd.sn hd.ts) := ⟨h.send, h.recv⟩
  unfold inputPush
  simp only
  split
  · split
    · split
      · exact hack
      · split
        · exact hack
        · exact parseData_windowed hack _
    · exact hack
  · exact h

/-!
## Whole datagrams
-/

theorem inputCommand_windowed (h : Windowed k) (scan : AckScan) (hd : SegmentHeader)
    (body : List Byte) :
    Windowed (k.inputCommand scan hd body).2 := by
  unfold inputCommand
  split
  · exact inputAck_windowed h hd
  · split
    · apply andThen_state
      · exact inputPush_windowed h hd body
      · intro _ _ _ hk'
        exact hk'
    · split
      · exact ⟨h.send, h.recv⟩
      · exact h

theorem adoptConv_frame (k : Kcp Output) (conv : UInt32) :
    exists conv' inputConv,
      (k.adoptConv conv).2 = { k with conv := conv', inputConv := inputConv } := by
  unfold adoptConv
  split
  · exact ⟨k.conv, k.inputConv, rfl⟩
  · split
    · exact ⟨_, _, rfl⟩
    · exact ⟨k.conv, k.inputConv, rfl⟩

theorem inputSegment_windowed (h : Windowed k) (scan : AckScan) (hd : SegmentHeader)
    (body : List Byte) :
    Windowed (k.inputSegment scan hd body).2 := by
  apply andThen_state
  · obtain ⟨conv, inputConv, hadopt⟩ := adoptConv_frame k hd.conv
    rw [hadopt]
    exact ⟨h.send, h.recv⟩
  · intro _ k' _ hk'
    split
    · exact hk'
    · split
      · exact hk'
      · exact inputCommand_windowed (inputCommon_windowed hk' hd) scan hd body

theorem inputLoop_windowed (h : Windowed k) (fuel : Nat) (scan : AckScan) (buf : List Byte) :
    Windowed (inputLoop fuel k scan buf).2 := by
  induction fuel generalizing k scan buf with
  | zero =>
    exact h
  | succ fuel ih =>
    unfold inputLoop
    split
    · exact h
    · apply andThen_state
      · exact inputSegment_windowed h scan (readHeader buf) (buf.drop overhead)
      · intro scan' _ _ hk'
        exact ih hk' scan' _

theorem growCwnd_frame (k : Kcp Output) (oldUna : UInt32) :
    exists cwnd incr, k.growCwnd oldUna = { k with cwnd := cwnd, incr := incr } := by
  unfold growCwnd
  split
  · exact ⟨_, _, rfl⟩
  · exact ⟨k.cwnd, k.incr, rfl⟩

theorem inputFinish_windowed (h : Windowed k) (scan : AckScan) (oldUna : UInt32) :
    Windowed (k.inputFinish scan oldUna) := by
  unfold inputFinish
  split
  · obtain ⟨cwnd, incr, hgrow⟩ :=
      growCwnd_frame (k.parseFastack scan.maxAck scan.latestTs) oldUna
    have hfast := parseFastack_windowed h scan.maxAck scan.latestTs
    rw [hgrow]
    exact ⟨hfast.send, hfast.recv⟩
  · obtain ⟨cwnd, incr, hgrow⟩ := growCwnd_frame k oldUna
    rw [hgrow]
    exact ⟨h.send, h.recv⟩

theorem input_windowed (h : Windowed k) (buf : List Byte) :
    Windowed (k.input buf).2 := by
  unfold input
  split
  · exact h
  · apply andThen_state
    · exact inputLoop_windowed h buf.length {} buf
    · intro scanned _ _ hk'
      exact inputFinish_windowed hk' scanned.1 k.sndUna

/-!
## The other calls
-/

theorem mergeChain_length_le (queue : List KcpSegment) :
    (mergeChain queue).2.length ≤ queue.length := by
  induction queue with
  | nil =>
    exact Nat.le_refl _
  | cons seg rest ih =>
    unfold mergeChain
    split
    · simp
    · simp only [length_cons]
      omega

theorem recv_windowed (h : Windowed k) (bufLen : Nat) :
    Windowed (k.recv bufLen).2 := by
  have hqueue : (mergeChain k.rcvQueue).2.length ≤ k.rcvWnd.toNat :=
    Nat.le_trans (mergeChain_length_le _) h.recv.queue
  have hmoved : Windowed (moveBuf { k with rcvQueue := (mergeChain k.rcvQueue).2 }) :=
    moveBuf_windowed ⟨h.send, h.recv.within, hqueue⟩
  unfold recv
  split
  · exact h
  · split
    · exact h
    · split
      · exact h
      · simp only
        split
        · exact ⟨hmoved.send, hmoved.recv⟩
        · exact hmoved

theorem extendLast_frame (k : Kcp Output) (buf : List Byte) :
    exists queue, k.extendLast buf = { k with sndQueue := queue } := by
  unfold extendLast
  split
  · exact ⟨k.sndQueue, rfl⟩
  · split
    · exact ⟨_, rfl⟩
    · exact ⟨k.sndQueue, rfl⟩

theorem sendRest_frame (k : Kcp Output) (sent : Nat) (rest : List Byte) :
    exists queue, (k.sendRest sent rest).2 = { k with sndQueue := queue } := by
  unfold sendRest
  simp only
  split
  · exact ⟨k.sndQueue, rfl⟩
  · exact ⟨_, rfl⟩

theorem send_frame (k : Kcp Output) (buf : List Byte) :
    exists queue, (k.send buf).2 = { k with sndQueue := queue } := by
  unfold send
  simp only
  split
  · obtain ⟨queue, hextend⟩ := extendLast_frame k buf
    rw [hextend]
    split
    · exact ⟨queue, rfl⟩
    · exact sendRest_frame { k with sndQueue := queue } _ _
  · exact sendRest_frame k 0 buf

theorem send_windowed (h : Windowed k) (buf : List Byte) :
    Windowed (k.send buf).2 := by
  obtain ⟨queue, hsend⟩ := send_frame k buf
  rw [hsend]
  exact ⟨h.send, h.recv⟩

theorem effectiveCwnd_le (k : Kcp Output) :
    k.effectiveCwnd.toNat ≤ k.sndWnd.toNat := by
  have hmin : (min k.sndWnd k.rmtWnd).toNat ≤ k.sndWnd.toNat :=
    UInt16.le_iff_toNat_le.mp Std.min_le_left
  unfold effectiveCwnd
  split
  · exact Nat.le_trans (UInt16.le_iff_toNat_le.mp Std.min_le_right) hmin
  · exact hmin

theorem fillWindow_windowed (wnd : UInt16) {cwnd : UInt16} (queue : List KcpSegment)
    (h : Windowed k) (hcwnd : cwnd.toNat ≤ k.sndWnd.toNat) (count : UInt32) :
    Windowed (fillWindow wnd cwnd queue k count).1 := by
  induction queue generalizing k count with
  | nil =>
    exact ⟨h.send, h.recv⟩
  | cons seg rest ih =>
    unfold fillWindow
    split
    · rename_i hroom
      have hadd := offset_add_u16 k.sndUna cwnd
      have hw := toNat_lt_of_u16 k.sndWnd
      have hsize := h.send.size
      rw [timediff_lt_zero] at hroom
      have hlt : offset k.sndUna k.sndNxt < cwnd.toNat := by
        rcases Nat.lt_or_ge (offset k.sndUna k.sndNxt) cwnd.toNat with hlt | hge
        · exact hlt
        · have hrebase := @offset_rebase k.sndUna (k.sndUna + cwnd.toUInt32) k.sndNxt
            (by omega)
          omega
      apply ih
      · refine ⟨?_, h.recv⟩
        have hsnoc := h.send.snoc (by omega : offset k.sndUna k.sndNxt < k.sndWnd.toNat)
        simpa [sns, stampSegment] using hsnoc
      · exact hcwnd
    · exact ⟨h.send, h.recv⟩

theorem ControlOnly.windowed {k k' : Kcp Output} (hk : ControlOnly k k')
    (h : Windowed k) : Windowed k' := by
  obtain ⟨out, buf, acks, probe, tsProbe, probeWait, rfl⟩ := hk
  exact ⟨h.send, h.recv⟩

theorem ResendOnly.windowed {k k' : Kcp Output} (hk : ResendOnly k k' k.sndBuf)
    (h : Windowed k) : Windowed k' := by
  obtain ⟨xmit, state, segs, hcontrol, hcore⟩ := hk
  apply hcontrol.windowed
  refine ⟨?_, h.recv⟩
  show SendWindow k.sndUna k.sndNxt k.sndWnd (sns segs)
  rw [sns_eq_of_core hcore]
  exact h.send

section Flushing

variable [Write Output]

theorem flushData_windowed (h : Windowed k) (wnd : UInt16) :
    Windowed (k.flushData wnd).2 := by
  have hfill := fillWindow_windowed wnd k.sndQueue h
    (effectiveCwnd_le k) 0
  apply andThen_state
  · exact (resendLoop_frame _ _ _ [] _).windowed hfill
  · intro scan k' _ hk'
    apply andThen_state
    · exact (flushBuf_frame k').windowed hk'
    · intro _ k'' _ hk''
      exact ⟨hk''.send, hk''.recv⟩

theorem flush_windowed (h : Windowed k) : Windowed k.flush.2 := by
  unfold flush
  split
  · exact h
  · apply andThen_state
    · exact (flushAcks_frame k _).windowed h
    · intro segment k' _ hk'
      apply andThen_state
      · exact (flushProbeCommands_frame _ segment).windowed
          ((probeWndSize_frame k').windowed hk')
      · intro _ k'' _ hk''
        exact flushData_windowed hk'' segment.wnd

theorem update_windowed (h : Windowed k) (current : UInt32) :
    Windowed (k.update current).2 := by
  obtain ⟨tsFlush, hupdate⟩ := update_cases k current
  have hk : Windowed (k.withClock current tsFlush) := ⟨h.send, h.recv⟩
  rcases hupdate with hstop | hflush
  · rw [hstop]
    exact hk
  · rw [hflush]
    exact flush_windowed hk

theorem apply_windowed (k : Kcp Output) (op : Op) (h : Windowed k) :
    Windowed (k.apply op) := by
  cases op with
  | send buf => exact send_windowed h buf
  | update current => exact update_windowed h current
  | flush => exact flush_windowed h
  | recv bufLen => exact recv_windowed h bufLen
  | input datagram => exact input_windowed h datagram

end Flushing

/-!
## Every run
-/

/-- A machine that carries no data yet: both buffers and the queue are empty and
nothing was numbered. -/
structure Fresh (k : Kcp Output) : Prop where
  una : k.sndUna = k.sndNxt
  sndBuf : k.sndBuf = []
  rcvBuf : k.rcvBuf = []
  rcvQueue : k.rcvQueue = []

theorem Fresh.windowed (h : Fresh k) : Windowed k := by
  constructor
  · rw [h.sndBuf, h.una]
    exact ⟨InWindow.nil _ _, rfl, by simp⟩
  · rw [h.rcvBuf, h.rcvQueue]
    exact ⟨InWindow.nil _ _, Nat.zero_le _⟩

theorem applySetting_fresh (k : Kcp Output) (setting : Setting) (h : Fresh k) :
    Fresh (k.applySetting setting) := by
  cases setting with
  | mtu mtu =>
    show Fresh (k.setMtu mtu).2
    unfold setMtu
    split
    · exact h
    · exact ⟨h.una, h.sndBuf, h.rcvBuf, h.rcvQueue⟩
  | _ => exact ⟨h.una, h.sndBuf, h.rcvBuf, h.rcvQueue⟩

theorem configured_fresh (conv : UInt32) (output : Output) (stream : Bool)
    (settings : List Setting) : Fresh (configured conv output stream settings) :=
  Run.run_preserves applySetting_fresh settings ⟨rfl, rfl, rfl, rfl⟩

/-- Whatever is received and however the calls are ordered, the send buffer
starts at `snd_una` and is ordered up to `snd_nxt` within the send window, and
the reassembly buffer is ordered and duplicate free within the receive window. -/
theorem driven_windowed [Write Output] (conv : UInt32) (output : Output)
    (stream : Bool) (settings : List Setting) (ops : List Op) :
    Windowed (driven conv output stream settings ops) ∧
      (sns (driven conv output stream settings ops).rcvBuf).Nodup := by
  have hwindow : Windowed (driven conv output stream settings ops) :=
    Run.run_preserves apply_windowed ops
      (configured_fresh conv output stream settings).windowed
  exact ⟨hwindow, hwindow.recv.within.nodup⟩

end Kcp
end FrpRs
