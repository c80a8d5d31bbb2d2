import FrpRs.Kcp.Input

/-!
# What happens to received data

A segment that is accepted enters the reassembly buffer once, and leaves it at
the front, in the order of the sequence numbers, for the receive queue.
-/

namespace FrpRs
namespace Kcp

open List Bytes
open Fallible
open Serial

variable {Output : Type}

/-!
## What leaves received data alone
-/

/-- The fields that decide what happens to received data. -/
structure SameReceive (k k' : Kcp Output) : Prop where
  rcvNxt : k'.rcvNxt = k.rcvNxt
  rcvWnd : k'.rcvWnd = k.rcvWnd
  rcvBuf : k'.rcvBuf = k.rcvBuf
  rcvQueue : k'.rcvQueue = k.rcvQueue
  acklist : k'.acklist = k.acklist
  stream : k'.stream = k.stream
  mss : k'.mss = k.mss

variable (k : Kcp Output)

theorem SameReceive.refl : SameReceive k k :=
  ⟨rfl, rfl, rfl, rfl, rfl, rfl, rfl⟩

theorem SameReceive.trans {k k' k'' : Kcp Output} (h : SameReceive k k')
    (h' : SameReceive k' k'') : SameReceive k k'' where
  rcvNxt := h'.rcvNxt.trans h.rcvNxt
  rcvWnd := h'.rcvWnd.trans h.rcvWnd
  rcvBuf := h'.rcvBuf.trans h.rcvBuf
  rcvQueue := h'.rcvQueue.trans h.rcvQueue
  acklist := h'.acklist.trans h.acklist
  stream := h'.stream.trans h.stream
  mss := h'.mss.trans h.mss

theorem SameReceive.malformed {k k' : Kcp Output} (h : SameReceive k k')
    {hd : SegmentHeader} : Malformed k' hd ↔ Malformed k hd := by
  unfold Malformed
  rw [h.stream, h.mss]

theorem inputCommon_sameReceive (hd : SegmentHeader) :
    SameReceive k (k.inputCommon hd) :=
  ⟨rfl, rfl, rfl, rfl, rfl, rfl, rfl⟩

theorem inputAck_sameReceive (hd : SegmentHeader) :
    SameReceive k (k.inputAck hd) := by
  rcases inputAck_frame k hd with ⟨srtt, rttval, rto, segs, hack, _⟩
  rw [hack]
  exact ⟨rfl, rfl, rfl, rfl, rfl, rfl, rfl⟩

theorem inputFinish_sameReceive (scan : AckScan) (oldUna : UInt32) :
    SameReceive k (k.inputFinish scan oldUna) := by
  have hfast : exists segs, (if scan.flag then k.parseFastack scan.maxAck scan.latestTs
      else k) = { k with sndBuf := segs } := by
    split
    · unfold parseFastack
      split
      · exact ⟨k.sndBuf, rfl⟩
      · exact ⟨_, rfl⟩
    · exact ⟨k.sndBuf, rfl⟩
  obtain ⟨segs, hfast⟩ := hfast
  unfold inputFinish
  rw [hfast]
  obtain ⟨cwnd, incr, hgrow⟩ := growCwnd_frame { k with sndBuf := segs } oldUna
  rw [hgrow]
  exact ⟨rfl, rfl, rfl, rfl, rfl, rfl, rfl⟩

theorem adoptConv_sameReceive (conv : UInt32) :
    SameReceive k (k.adoptConv conv).2 := by
  unfold adoptConv
  split
  · exact SameReceive.refl k
  · split
    · exact ⟨rfl, rfl, rfl, rfl, rfl, rfl, rfl⟩
    · exact SameReceive.refl k

/-!
## Moving data to the queue
-/

/-- A front part of a reassembly buffer moved to the end of a receive queue, with
consecutive numbers from `nxt` on. -/
structure Moved (nxt : UInt32) (queue buf moved : List KcpSegment) (k : Kcp Output) :
    Prop where
  buffer : buf = moved ++ k.rcvBuf
  queue : k.rcvQueue = queue ++ moved
  next : k.rcvNxt = nxt + UInt32.ofNat moved.length
  numbers : Consecutive nxt (sns moved)

theorem moveBufLoop_moved (wnd : UInt16) (nxt : UInt32) (queue buf : List KcpSegment) :
    exists moved rest, buf = moved ++ rest ∧ Consecutive nxt (sns moved) ∧
      moveBufLoop wnd nxt queue buf =
        (nxt + UInt32.ofNat moved.length, queue ++ moved, rest) := by
  induction buf generalizing nxt queue with
  | nil =>
    exact ⟨[], [], rfl, trivial, by simp [moveBufLoop]⟩
  | cons seg buf ih =>
    unfold moveBufLoop
    split
    · rename_i hfront
      obtain ⟨moved, rest, hsplit, hnumbers, hloop⟩ := ih (nxt + 1) (queue ++ [seg])
      refine ⟨seg :: moved, rest, by simp [hsplit], ⟨hfront.1, hnumbers⟩, ?_⟩
      rw [hloop, append_assoc, singleton_append, length_cons,
        Nat.add_comm moved.length 1, UInt32.ofNat_add, UInt32.add_assoc]
      rfl
    · exact ⟨[], seg :: buf, rfl, trivial, by simp⟩

theorem moveBuf_moved :
    exists moved, Moved k.rcvNxt k.rcvQueue k.rcvBuf moved (moveBuf k) := by
  obtain ⟨moved, rest, hsplit, hnumbers, hloop⟩ :=
    moveBufLoop_moved k.rcvWnd k.rcvNxt k.rcvQueue k.rcvBuf
  refine ⟨moved, ?_, ?_, ?_, hnumbers⟩
  · show k.rcvBuf = moved ++ (moveBufLoop k.rcvWnd k.rcvNxt k.rcvQueue k.rcvBuf).2.2
    rw [hloop]
    exact hsplit
  · show (moveBufLoop k.rcvWnd k.rcvNxt k.rcvQueue k.rcvBuf).2.1 = _
    rw [hloop]
  · show (moveBufLoop k.rcvWnd k.rcvNxt k.rcvQueue k.rcvBuf).1 = _
    rw [hloop]

theorem Moved.offset_next {nxt : UInt32} {queue buf moved : List KcpSegment}
    {k : Kcp Output} (h : Moved nxt queue buf moved k) (hwindow : Windowed k) :
    offset nxt k.rcvNxt = moved.length ∧ moved.length ≤ k.rcvWnd.toNat := by
  have hw := toNat_lt_of_u16 k.rcvWnd
  have hqueue := hwindow.recv.queue
  rw [h.queue, length_append] at hqueue
  rw [h.next, offset_ofNat (by omega)]
  omega

/-!
## Insertion
-/

variable {new : KcpSegment}

theorem insertScan_none {segs : List KcpSegment} (h : insertScan new segs = none) :
    new.sn ∈ sns segs := by
  induction segs with
  | nil =>
    cases h
  | cons seg rest ih =>
    unfold insertScan at h
    split at h
    · rename_i heq
      rw [← heq]
      simp [sns]
    · split at h
      · cases h
      · exact mem_cons_of_mem _ (ih (by simpa using h))

theorem insertScan_some {segs out : List KcpSegment} (h : insertScan new segs = some out) :
    forall s, s ∈ out ↔ s = new ∨ s ∈ segs := by
  induction segs generalizing out with
  | nil =>
    cases h
    simp
  | cons seg rest ih =>
    unfold insertScan at h
    split at h
    · cases h
    · split at h
      · cases h
        simp
      · obtain ⟨tail, htail, hout⟩ := Option.map_eq_some_iff.mp h
        intro s
        rw [← hout, mem_cons, ih htail s, mem_cons]
        exact or_left_comm

theorem mem_insertData (new : KcpSegment) (buf : List KcpSegment) :
    (new.sn ∈ sns buf ∧ insertData new buf = buf) ∨
      forall s, s ∈ insertData new buf ↔ s = new ∨ s ∈ buf := by
  unfold insertData
  cases hscan : insertScan new buf.reverse with
  | none =>
    have hmem := insertScan_none hscan
    rw [sns_reverse, mem_reverse] at hmem
    exact .inl ⟨hmem, rfl⟩
  | some reversed =>
    right
    intro s
    have hmem := insertScan_some hscan s
    simp only [mem_reverse] at hmem ⊢
    exact hmem

theorem mem_of_insertData {new s : KcpSegment} {buf : List KcpSegment}
    (h : s ∈ insertData new buf) : s = new ∨ s ∈ buf := by
  rcases mem_insertData new buf with ⟨_, hsame⟩ | hmem
  · rw [hsame] at h
    exact .inr h
  · exact (hmem s).mp h

theorem sns_insertData {buf : List KcpSegment} {sn : UInt32} (h : sn = new.sn ∨ sn ∈ sns buf) :
    sn ∈ sns (insertData new buf) := by
  rcases mem_insertData new buf with ⟨hheld, hsame⟩ | hmem
  · rw [hsame]
    rcases h with heq | hold
    · rw [heq]
      exact hheld
    · exact hold
  · rcases h with heq | hold
    · rw [heq]
      exact mem_map.mpr ⟨new, (hmem new).mpr (.inl rfl), rfl⟩
    · obtain ⟨s, hs, hsn⟩ := mem_map.mp hold
      exact mem_map.mpr ⟨s, (hmem s).mpr (.inr hs), hsn⟩

theorem parseData_inside {k : Kcp Output}
    (hupper : timediff new.sn (k.rcvNxt + k.rcvWnd.toUInt32) < 0)
    (hlower : timediff new.sn k.rcvNxt ≥ 0) :
    k.parseData new = moveBuf { k with rcvBuf := insertData new k.rcvBuf } := by
  unfold parseData
  rw [if_neg]
  rintro (hpast | hbefore)
  · rw [timediff_nonneg] at hpast
    rw [timediff_lt_zero] at hupper
    omega
  · rw [timediff_lt_zero] at hbefore
    rw [timediff_nonneg] at hlower
    omega

theorem parseData_moved {k : Kcp Output} {new : KcpSegment}
    (hupper : timediff new.sn (k.rcvNxt + k.rcvWnd.toUInt32) < 0)
    (hlower : timediff new.sn k.rcvNxt ≥ 0) :
    exists moved, Moved k.rcvNxt k.rcvQueue (insertData new k.rcvBuf) moved
      (k.parseData new) := by
  obtain ⟨moved, hmoved⟩ := moveBuf_moved { k with rcvBuf := insertData new k.rcvBuf }
  rw [parseData_inside hupper hlower]
  exact ⟨moved, hmoved⟩

theorem parseData_acklist (new : KcpSegment) :
    (k.parseData new).acklist = k.acklist := by
  unfold parseData
  split
  · rfl
  · rfl

/-!
## Taking data out
-/

theorem recv_cases (bufLen : Nat) :
    (exists e, k.recv bufLen = (.error e, k)) ∨
    (k.rcvQueue ≠ [] ∧ exists probe,
      k.recv bufLen = (.ok (mergeChain k.rcvQueue).1,
        { moveBuf { k with rcvQueue := (mergeChain k.rcvQueue).2 } with
          probe := probe })) := by
  unfold recv
  split
  · exact .inl ⟨_, rfl⟩
  · rename_i hqueue
    split
    · exact .inl ⟨_, rfl⟩
    · split
      · exact .inl ⟨_, rfl⟩
      · refine .inr ⟨by simpa using hqueue, ?_⟩
        simp only
        split
        · exact ⟨_, rfl⟩
        · exact ⟨k.probe, rfl⟩

end Kcp
end FrpRs
