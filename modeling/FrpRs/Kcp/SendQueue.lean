import FrpRs.Kcp.SessionRun
import FrpRs.Kcp.Stream

/-!
# What a stream-mode send leaves in the queue

An accepted buffer is appended to the queued bytes, in segments that fit.  A refused
one leaves them alone unless the last segment had room: then its first bytes are
queued before the rest is refused.  Pieces of the size that `send_chunked` cuts are
never refused.
-/

namespace FrpRs
namespace Kcp

open Bytes
open Fallible

variable {Output : Type}

/-!
## The queue of a reachable machine
-/

/-- What the queue relies on. -/
structure Queued (k : Kcp Output) : Prop where
  inputConv : k.inputConv = false
  mss : 0 < k.mss
  fits : QueueFits k

theorem Queued.of_queue {k k' : Kcp Output} (h : Queued k) (hlimits : SameLimits k k')
    (hqueue : forall s, s ∈ k'.sndQueue -> s ∈ k.sndQueue) : Queued k' := by
  constructor
  · rw [hlimits.inputConv]
    exact h.inputConv
  · rw [hlimits.mss]
    exact h.mss
  · intro s hs
    unfold Fitting
    rw [hlimits.mss, hlimits.stream]
    exact h.fits s (hqueue s hs)

theorem Queued.received {k k' : Kcp Output} (h : Queued k) (hk : Received k k') : Queued k' := by
  apply h.of_queue ⟨hk.conv, hk.stream, hk.mss, hk.mtu, hk.inputConv⟩
  intro s hs
  rw [← hk.sndQueue]
  exact hs

theorem Queued.flushed {n : Nat} {k k' : Kcp Output} (h : Queued k) (hk : Flushed n k k') :
    Queued k' := by
  apply h.of_queue ⟨hk.conv, hk.stream, hk.mss, hk.mtu, hk.inputConv⟩
  intro s hs
  rw [hk.queue] at hs
  exact List.mem_of_mem_drop hs

variable {k : Kcp Output}

theorem Queued.send (h : Queued k) (buf : List Byte) :
    Queued (k.send buf).2 := by
  have hfits := send_fits h.fits buf
  rcases send_frame k buf with ⟨queue, hsend⟩
  rw [hsend] at hfits ⊢
  exact ⟨h.inputConv, h.mss, hfits⟩

theorem Queued.apply [Write Output] (h : Queued k) (op : Op) :
    Queued (k.apply op) := by
  cases op with
  | send buf =>
    exact h.send buf
  | update current =>
    rcases update_flushed k current with ⟨n, hflushed⟩
    exact h.flushed hflushed
  | flush =>
    rcases flush_flushed k with ⟨n, hflushed⟩
    exact h.flushed hflushed
  | recv bufLen =>
    exact h.received (recv_received k bufLen)
  | input datagram =>
    exact h.received (input_received datagram h.inputConv)

theorem Reachable.queued [Write Output] (h : Reachable k) : Queued k := by
  induction h with
  | configured conv output stream settings =>
    have hpristine := configured_pristine conv output stream settings
    refine ⟨hpristine.inputConv, hpristine.mss, ?_⟩
    intro s hs
    rw [hpristine.sndQueue] at hs
    cases hs
  | call op _ ih =>
    exact ih.apply op
  | drained output _ ih =>
    exact ⟨ih.inputConv, ih.mss, ih.fits⟩
  | common hd _ ih =>
    exact ih.received (inputCommon_received _ hd)
  | command scan hd body _ ih =>
    exact ih.received (inputCommand_received _ scan hd body)

/-!
## Accepted and refused buffers
-/

def tailRoom (k : Kcp Output) : Nat :=
  match k.sndQueue.getLast? with
  | none => 0
  | some old => k.mss - old.data.length

/-- Either the whole buffer is queued behind what was there, in segments that fit, or the queued
bytes are as before. -/
def AllOrNothing (k : Kcp Output) (buf : List Byte) : Prop :=
  (exists k', k.send buf = (.ok buf.length, k') ∧
    payload k'.sndQueue = payload k.sndQueue ++ buf ∧
    forall s, s ∈ k'.sndQueue -> s.data.length ≤ k'.mss ∧ s.frg = 0) ∨
  (exists e k', k.send buf = (.error e, k') ∧ payload k'.sndQueue = payload k.sndQueue)

theorem extendSize_eq (k : Kcp Output) (buf : List Byte) :
    k.extendSize buf = min buf.length k.tailRoom := by
  unfold extendSize tailRoom
  cases k.sndQueue.getLast? with
  | none =>
    rw [Nat.min_zero]
  | some old =>
    show (if old.data.length < k.mss then min buf.length (k.mss - old.data.length) else 0) =
      min buf.length (k.mss - old.data.length)
    split
    · rfl
    · omega

theorem wndRcv_le_segmentCount_iff {mss : Nat} (hmss : 0 < mss) (remaining : Nat) :
    wndRcv.toNat ≤ segmentCount mss remaining ↔ 127 * mss < remaining := by
  have hwnd : wndRcv.toNat = 128 := rfl
  rw [hwnd]
  unfold segmentCount
  split
  · omega
  · rw [Nat.le_div_iff_mul_le hmss]
    omega

theorem extendsThenRejects_iff (hmss : 0 < k.mss) (buf : List Byte) :
    ExtendsThenRejects k buf ↔ 0 < k.tailRoom ∧ k.tailRoom + 127 * k.mss < buf.length := by
  unfold ExtendsThenRejects
  rw [wndRcv_le_segmentCount_iff hmss, extendSize_eq]
  omega

variable {buf : List Byte}

theorem not_allOrNothing (hstream : k.stream = true) (h : ExtendsThenRejects k buf) :
    ¬ AllOrNothing k buf := by
  rcases h with ⟨hpos, hlt, hbig⟩
  have hsend : k.send buf = (.error .userBufTooBig, k.extendLast buf) := by
    rcases extendLast_frame k buf with ⟨queue, hextend⟩
    unfold send
    rw [if_pos hstream]
    rw [if_neg (Nat.ne_of_lt hlt)]
    unfold sendRest
    rw [List.length_drop, hextend, if_pos hbig]
  intro hall
  rcases hall with ⟨k', hok, _⟩ | ⟨e, k', herr, hsame⟩
  · rw [hsend] at hok
    cases hok
  · rw [hsend] at herr
    cases herr
    have hlength := congrArg List.length (payload_extendLast k buf)
    rw [hsame, List.length_append, List.length_take] at hlength
    omega

theorem allOrNothing (hqueued : Queued k) (hstream : k.stream = true)
    (h : ¬ ExtendsThenRejects k buf) : AllOrNothing k buf := by
  rcases send_payload hstream hqueued.mss buf h with ⟨e, k', herr, hsame⟩ | ⟨k', hok, hwhole⟩
  · exact .inr ⟨e, k', herr, hsame⟩
  · refine .inl ⟨k', hok, hwhole, ?_⟩
    have hfits := send_fits hqueued.fits buf
    rcases send_frame k buf with ⟨queue, hframe⟩
    rw [hframe] at hfits
    rw [hok] at hframe
    rw [show k' = _ from hframe]
    intro s hs
    exact ⟨(hfits s hs).1, (hfits s hs).2 hstream⟩

theorem send_accepts (hqueued : Queued k) (hstream : k.stream = true)
    (hlen : buf.length ≤ k.tailRoom + 127 * k.mss) :
    (k.send buf).1 = .ok buf.length := by
  have hsize := extendSize_eq k buf
  rcases extendLast_frame k buf with ⟨queue, hextend⟩
  unfold send
  rw [if_pos hstream]
  simp only
  split
  · rename_i hall
    rw [hall]
  · rcases sendRest_payload (k := k.extendLast buf) (by rw [hextend]; exact hqueued.mss)
        (k.extendSize buf) (buf.drop (k.extendSize buf)) with
      ⟨e, _, hbig⟩ | ⟨k', hsend, _⟩
    · rw [hextend, List.length_drop, wndRcv_le_segmentCount_iff hqueued.mss] at hbig
      omega
    · rw [hsend, List.length_drop]
      exact congrArg Except.ok (Nat.add_sub_cancel' (extendSize_le k buf))

end Kcp

/-!
## Pieces
-/

namespace KcpSession

open Bytes
open Fallible

theorem flatten_chunks {window : Nat} (hwindow : 0 < window) (fuel : Nat) {data : List Byte}
    (hfuel : data.length ≤ fuel) : (chunks window fuel data).flatten = data := by
  induction fuel generalizing data with
  | zero =>
    rw [List.length_eq_zero_iff.mp (Nat.le_zero.mp hfuel)]
    rfl
  | succ fuel ih =>
    unfold chunks
    split
    · rename_i hempty
      rw [List.isEmpty_iff.mp hempty]
      rfl
    · rw [List.flatten_cons, ih, List.take_append_drop]
      rw [List.length_drop]
      omega

theorem length_le_of_mem_chunks {window fuel : Nat} {data piece : List Byte}
    (h : piece ∈ chunks window fuel data) : piece.length ≤ window := by
  induction fuel generalizing data with
  | zero =>
    cases h
  | succ fuel ih =>
    unfold chunks at h
    split at h
    · cases h
    · rcases List.mem_cons.mp h with hfirst | hrest
      · rw [hfirst]
        exact List.length_take_le _ _
      · exact ih hrest

theorem sendPieces_accepts {s : KcpSession} (hqueued : Kcp.Queued s.kcp)
    (hstream : s.kcp.stream = true) {pieces : List (List Byte)}
    (hlen : forall piece, piece ∈ pieces -> piece.length ≤ 127 * s.kcp.mss) (sent : Nat) :
    (s.sendPieces sent pieces).1 = .ok (sent + pieces.flatten.length) := by
  induction pieces generalizing s sent with
  | nil =>
    rfl
  | cons piece rest ih =>
    have hpiece : piece.length ≤ s.kcp.tailRoom + 127 * s.kcp.mss :=
      Nat.le_trans (hlen piece List.mem_cons_self) (Nat.le_add_left _ _)
    have hsend : s.send piece = (.ok piece.length, { s with kcp := (s.kcp.send piece).2 }) := by
      unfold send onKcp
      rw [Kcp.send_accepts hqueued hstream hpiece]
      rfl
    rcases Kcp.send_frame s.kcp piece with ⟨queue, hframe⟩
    have hnext := hqueued.send piece
    unfold sendPieces
    rw [hsend, andThen_ok, ih hnext, List.flatten_cons, List.length_append, Nat.add_assoc]
    · rw [hframe]
      exact hstream
    · intro other hother
      show other.length ≤ 127 * (s.kcp.send piece).2.mss
      rw [hframe]
      exact hlen other (List.mem_cons_of_mem _ hother)

theorem sendChunked_accepts {s : KcpSession} (hqueued : Kcp.Queued s.kcp)
    (hstream : s.kcp.stream = true) (data : List Byte) :
    (s.sendChunked data).1 = .ok data.length := by
  have hmss : max s.kcp.mss 1 = s.kcp.mss := Nat.max_eq_left hqueued.mss
  have hwindow : (Kcp.wndRcv.toNat - 1) * max s.kcp.mss 1 = 127 * s.kcp.mss := by
    rw [hmss]
    rfl
  have hpos : 0 < 127 * s.kcp.mss := Nat.mul_pos (by decide) hqueued.mss
  unfold sendChunked
  rw [hwindow, sendPieces_accepts hqueued hstream fun piece => length_le_of_mem_chunks,
    flatten_chunks hpos data.length (Nat.le_refl _), Nat.zero_add]

/-- A stream-mode `send` is all or nothing exactly when the last queued segment is full or the
buffer fits that segment and 127 more; and `send_chunked` on a stream-mode session takes
everything. -/
theorem stream_send_iff {Output : Type} [Kcp.Write Output] {k : Kcp Output} (h : k.Reachable)
    (hstream : k.stream = true) (buf : List Byte) (conv : UInt32) {config : KcpConfig}
    (hconfig : config.stream = true) (readTx : Channel) (events : List SessionEvent)
    (data : List Byte) :
    (k.AllOrNothing buf ↔ k.tailRoom = 0 ∨ buf.length ≤ k.tailRoom + 127 * k.mss) ∧
      ((Run.run step (KcpSession.new conv config readTx) events).sendChunked data).1 =
        .ok data.length := by
  constructor
  · have hqueued := h.queued
    have hcondition : ¬ Kcp.ExtendsThenRejects k buf ↔
        k.tailRoom = 0 ∨ buf.length ≤ k.tailRoom + 127 * k.mss := by
      rw [Kcp.extendsThenRejects_iff hqueued.mss]
      omega
    rw [← hcondition]
    constructor
    · intro hall hrejects
      exact Kcp.not_allOrNothing hstream hrejects hall
    · exact Kcp.allOrNothing hqueued hstream
  · apply sendChunked_accepts
    · exact (run_reachable conv config readTx events).queued
    · rw [run_stream]
      exact hconfig

theorem stream_send_iff_small :
    (Kcp.driven 7 ({} : Kcp.PacketWriter) true Kcp.smallSettings [.send [1]]).stream = true ∧
      (Kcp.driven 7 ({} : Kcp.PacketWriter) true Kcp.smallSettings [.send [1]]).AllOrNothing
        [2, 3] :=
  ⟨rfl, (@stream_send_iff _ _ _ (Kcp.Reachable.driven 7 ({} : Kcp.PacketWriter) true
    Kcp.smallSettings [.send [1]]) rfl [2, 3] 7 ⟨50, true, 10, 2, true, 32, 128, 0, 0, true⟩ rfl
    { capacity := 1 } [] []).1.mpr (.inr (by decide))⟩

/-- One byte is queued and a buffer of 3328 bytes is refused: the first 25 of them have been
queued. -/
theorem refused_send_queues :
    exists k : Kcp Kcp.PacketWriter, k.Reachable ∧ k.stream = true ∧
      exists buf, ¬ k.AllOrNothing buf := by
  refine ⟨Kcp.driven 7 ({} : Kcp.PacketWriter) true Kcp.smallSettings [.send [1]],
    Kcp.Reachable.driven 7 ({} : Kcp.PacketWriter) true Kcp.smallSettings [.send [1]], rfl,
    List.replicate 3328 2, ?_⟩
  apply Kcp.not_allOrNothing
  · rfl
  · rw [Kcp.extendsThenRejects_iff (by decide), List.length_replicate]
    decide

end KcpSession
end FrpRs
