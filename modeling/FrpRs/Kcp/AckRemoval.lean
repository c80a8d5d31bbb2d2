import FrpRs.Kcp.Ack
import FrpRs.Kcp.RoundTripTime

/-!
# Removing an acknowledged segment

`parse_ack` admits a number by its distance from `snd_una` and then scans the send
buffer by plain unsigned comparison.  The scan finds the segment exactly when the
numbers do not wrap between the front of the buffer and the segment.
-/

namespace FrpRs
namespace Kcp

open List Bytes
open Fallible
open Serial

variable {Output : Type}

/-- The second list is the first without its segment numbered `sn`, or the first itself when
there is none. -/
structure Removes (sn : UInt32) (before after : List KcpSegment) : Prop where
  present : sn ∈ sns before -> exists pre seg post,
    before = pre ++ seg :: post ∧ seg.sn = sn ∧ after = pre ++ post
  absent : sn ∉ sns before -> after = before

variable {sn : UInt32}

theorem removeAcked_of_not_mem {segs : List KcpSegment} (h : sn ∉ sns segs) :
    removeAcked sn segs = segs := by
  induction segs with
  | nil =>
    rfl
  | cons seg rest ih =>
    have hhead : sn ≠ seg.sn := fun heq => h (heq ▸ mem_cons_self)
    have hrest : sn ∉ sns rest := fun hmem => h (mem_cons_of_mem _ hmem)
    unfold removeAcked
    rw [if_neg hhead, ih hrest]
    split
    · rfl
    · rfl

theorem removeAcked_split {pre post : List KcpSegment} {seg : KcpSegment}
    (hpre : forall s, s ∈ pre -> s.sn < sn) (hseg : seg.sn = sn) :
    removeAcked sn (pre ++ seg :: post) = pre ++ post := by
  induction pre with
  | nil =>
    exact if_pos hseg.symm
  | cons head pre ih =>
    have hlt := hpre head mem_cons_self
    have hne : sn ≠ head.sn := fun heq => UInt32.lt_irrefl sn (by rw [heq] at hlt ⊢; exact hlt)
    have hge : ¬ sn < head.sn := UInt32.not_lt.mpr (UInt32.le_of_lt hlt)
    rw [cons_append, removeAcked, if_neg hne, if_neg hge,
      ih fun s hs => hpre s (mem_cons_of_mem _ hs)]
    rfl

theorem lt_of_offset_lt {base a b : UInt32} (hle : base ≤ b)
    (h : offset base a < offset base b) : a < b := by
  have hb := b.toNat_lt
  have hoffset : offset base b = b.toNat - base.toNat := UInt32.toNat_sub_of_le _ _ hle
  have ha := @toNat_eq_add_offset base a (by omega)
  rw [UInt32.lt_iff_toNat_lt]
  omega

theorem parseAck_inside {k : Kcp Output} (h : Windowed k)
    (hsn : offset k.sndUna sn < offset k.sndUna k.sndNxt) :
    ¬ (timediff sn k.sndUna < 0 ∨ timediff sn k.sndNxt ≥ 0) := by
  have hsize := h.send.size
  have hw := toNat_lt_of_u16 k.sndWnd
  have hbehind := offset_rebase_lt hsn
  rw [timediff_lt_zero, timediff_nonneg]
  omega

theorem parseAck_sndBuf {k : Kcp Output} (h : Windowed k)
    (hsn : offset k.sndUna sn < offset k.sndUna k.sndNxt) :
    (k.parseAck sn).sndBuf =
      if k.sndUna = sn then k.sndBuf.tail else removeAcked sn k.sndBuf := by
  have hfront := h.send.front
  unfold parseAck
  rw [if_neg (parseAck_inside h hsn)]
  split
  · rename_i hbuf
    rw [hbuf]
    split
    · rfl
    · rfl
  · rename_i front rest hbuf
    rw [hbuf] at hfront ⊢
    rw [show k.sndUna = front.sn from hfront]
    split
    · rfl
    · rfl

theorem not_removes_self {segs : List KcpSegment} (hmem : sn ∈ sns segs) :
    ¬ Removes sn segs segs := by
  intro hremoves
  rcases hremoves.present hmem with ⟨pre, seg, post, hsplit, _, hafter⟩
  have hlength := congrArg length (hsplit.symm.trans hafter)
  simp at hlength

theorem parseAck_keeps_wrapped {k : Kcp Output} (h : Windowed k)
    (hsn : offset k.sndUna sn < offset k.sndUna k.sndNxt) (hwrapped : sn < k.sndUna) :
    (k.parseAck sn).sndBuf = k.sndBuf := by
  have hfront := h.send.front
  have hne : k.sndUna ≠ sn := by
    intro heq
    rw [heq] at hwrapped
    exact UInt32.lt_irrefl sn hwrapped
  rw [parseAck_sndBuf h hsn, if_neg hne]
  cases hbuf : k.sndBuf with
  | nil =>
    rfl
  | cons front rest =>
    rw [hbuf] at hfront
    have hstart : k.sndUna = front.sn := hfront
    rw [hstart] at hne hwrapped
    rw [removeAcked, if_neg hne.symm, if_pos hwrapped]

/-- An acknowledgement of a number in flight removes exactly its segment, unless the segment is
there and its number is below that of the first segment as an unsigned value. -/
theorem parseAck_removes_iff [Write Output] {k : Kcp Output} (h : Reachable k) {sn : UInt32}
    (hsn : offset k.sndUna sn < offset k.sndUna k.sndNxt) :
    Removes sn k.sndBuf (k.parseAck sn).sndBuf ↔ (sn ∈ sns k.sndBuf -> k.sndUna ≤ sn) := by
  have hwindow := h.windowed
  constructor
  · intro hremoves hmem
    apply UInt32.not_lt.mp
    intro hwrapped
    rw [parseAck_keeps_wrapped hwindow hsn hwrapped] at hremoves
    exact not_removes_self hmem hremoves
  · intro hordered
    rw [parseAck_sndBuf hwindow hsn]
    constructor
    · intro hmem
      have hle := hordered hmem
      rcases mem_map.mp hmem with ⟨seg, hseg, hnumber⟩
      rcases append_of_mem hseg with ⟨pre, post, hsplit⟩
      refine ⟨pre, seg, post, hsplit, hnumber, ?_⟩
      have hbelow : forall s, s ∈ pre -> s.sn < sn := by
        intro s hs
        apply lt_of_offset_lt hle
        have hincreasing := hwindow.send.within.increasing
        rw [hsplit, sns, map_append, pairwise_append] at hincreasing
        rw [← hnumber]
        exact hincreasing.2.2 s.sn (mem_map_of_mem hs) seg.sn mem_cons_self
      split
      · rename_i hfirst
        have hfront := hwindow.send.front
        cases pre with
        | nil =>
          rw [hsplit]
          rfl
        | cons head pre =>
          rw [hsplit] at hfront
          have hhead : k.sndUna = head.sn := hfront
          have hlt := hbelow head mem_cons_self
          rw [← hhead, hfirst] at hlt
          exact absurd hlt (UInt32.lt_irrefl sn)
      · rw [hsplit]
        exact removeAcked_split hbelow hnumber
    · intro habsent
      split
      · rename_i hfirst
        have hfront := hwindow.send.front
        cases hbuf : k.sndBuf with
        | nil =>
          rfl
        | cons front rest =>
          rw [hbuf] at hfront habsent
          exact absurd (hfirst ▸ hfront ▸ mem_cons_self) habsent
      · exact removeAcked_of_not_mem habsent

theorem parseAck_removes_second :
    (2 : UInt32) ∈ sns (driven 1 ({} : PacketWriter) true [.nodelay true 10 2 true]
      [.update 0, .send [1], .flush, .send [2], .flush, .send [3], .flush]).sndBuf ∧
    Removes 2 (driven 1 ({} : PacketWriter) true [.nodelay true 10 2 true]
      [.update 0, .send [1], .flush, .send [2], .flush, .send [3], .flush]).sndBuf
      ((driven 1 ({} : PacketWriter) true [.nodelay true 10 2 true]
        [.update 0, .send [1], .flush, .send [2], .flush, .send [3], .flush]).parseAck 2).sndBuf :=
  ⟨by decide, (parseAck_removes_iff (Reachable.driven 1 ({} : PacketWriter) true
    [.nodelay true 10 2 true]
    [.update 0, .send [1], .flush, .send [2], .flush, .send [3], .flush]) (by decide)).mpr
    fun _ => by decide⟩

end Kcp
end FrpRs
