import FrpRs.Kcp.Bounds
import FrpRs.Kcp.Receive

/-!
# Round-trip times under hostile acknowledgements

The timestamp of an acknowledgement is chosen by the peer.  The estimates and the
retransmission timeout stay within the largest timeout whatever it is, and none of
the sums they are computed from leaves 32 bits.  An acknowledgement from the future
is not measured, so a machine whose smallest timeout was raised above the default
one stays below it until the first measurement.
-/

namespace FrpRs
namespace Kcp

open Bytes
open Fallible

variable {Output : Type}

/-- A machine that can occur: between two calls, after its owner has taken what it wrote, and
inside `input` between two segments of a datagram and before the command of a segment is looked
at. -/
inductive Reachable [Write Output] : Kcp Output -> Prop where
  | configured (conv : UInt32) (output : Output) (stream : Bool) (settings : List Setting) :
      Reachable (configured conv output stream settings)
  | call {k : Kcp Output} (op : Op) : Reachable k -> Reachable (k.apply op)
  | drained {k : Kcp Output} (output : Output) :
      Reachable k -> Reachable { k with output := output }
  | common {k : Kcp Output} (hd : SegmentHeader) : Reachable k -> Reachable (k.inputCommon hd)
  | command {k : Kcp Output} (scan : AckScan) (hd : SegmentHeader) (body : List Byte) :
      Reachable k -> Reachable (k.inputCommand scan hd body).2

theorem Reachable.driven [Write Output] (conv : UInt32) (output : Output) (stream : Bool)
    (settings : List Setting) (ops : List Op) :
    Reachable (Kcp.driven conv output stream settings ops) := by
  have hcall : forall k : Kcp Output, forall op, Reachable k -> Reachable (k.apply op) :=
    fun _ op h => Reachable.call op h
  exact Run.run_preserves hcall ops (Reachable.configured conv output stream settings)

theorem Reachable.windowed [Write Output] {k : Kcp Output} (h : Reachable k) : Windowed k := by
  induction h with
  | configured conv output stream settings =>
    exact (configured_fresh conv output stream settings).windowed
  | call op _ ih =>
    exact apply_windowed _ op ih
  | drained output _ ih =>
    exact ⟨ih.send, ih.recv⟩
  | common hd _ ih =>
    exact inputCommon_windowed ih hd
  | command scan hd body _ ih =>
    exact inputCommand_windowed ih scan hd body

/-!
## The timing fields
-/

def timing (k : Kcp Output) : UInt32 × UInt32 × UInt32 × UInt32 :=
  (k.rxSrtt, k.rxRttval, k.rxRto, k.interval)

structure Timed (k : Kcp Output) : Prop extends Smoothed k where
  rto : k.rxRto.toNat ≤ 60000

theorem Timed.of_timing {k k' : Kcp Output} (h : Timed k) (heq : timing k' = timing k) :
    Timed k' := by
  unfold timing at heq
  simp only [Prod.mk.injEq] at heq
  rcases heq with ⟨hsrtt, hrttval, hrto, hinterval⟩
  constructor
  · constructor
    · rw [hsrtt]
      exact h.srtt
    · rw [hrttval]
      exact h.rttval
    · rw [hinterval]
      exact h.interval
  · rw [hrto]
    exact h.rto

theorem bound_toNat_le (lower v upper : UInt32) : (bound lower v upper).toNat ≤ upper.toNat :=
  min_toNat_le _ _

variable {k : Kcp Output}

theorem updateAck_timed (h : Smoothed k) (rtt : UInt32) :
    Timed (k.updateAck rtt) :=
  ⟨(updateAck_checked h rtt).2, bound_toNat_le _ _ rtoMax⟩

theorem growCwnd_timing (k : Kcp Output) (oldUna : UInt32) :
    timing (k.growCwnd oldUna) = timing k := by
  unfold growCwnd
  split
  · rfl
  · rfl

theorem timing_of_readings {k k' : Kcp Output} (h : readings k' = readings k) :
    timing k' = timing k := by
  unfold readings gauges at h
  simp only [Prod.mk.injEq] at h
  rcases h with ⟨⟨hsrtt, hrttval, hinterval, _⟩, hrto⟩
  rw [timing, hsrtt, hrttval, hrto, hinterval, timing]

theorem timed_metered : Metered (@Timed Output) where
  congr h heq := h.of_timing (timing_of_readings heq)
  updateAck h rtt := updateAck_timed h.toSmoothed rtt
  growCwnd h oldUna := h.of_timing (growCwnd_timing _ oldUna)
  flushFinish h _ _ _ := h.of_timing rfl

theorem applySetting_rxRto (k : Kcp Output) (setting : Setting) :
    (k.applySetting setting).rxRto = k.rxRto := by
  cases setting with
  | mtu mtu =>
    show (k.setMtu mtu).2.rxRto = k.rxRto
    unfold setMtu
    split
    · rfl
    · rfl
  | _ => rfl

theorem configured_timed (conv : UInt32) (output : Output) (stream : Bool)
    (settings : List Setting) : Timed (configured conv output stream settings) := by
  have hstep : forall k : Kcp Output, forall setting, Unmeasured k ∧ k.rxRto = rtoDef ->
      Unmeasured (k.applySetting setting) ∧ (k.applySetting setting).rxRto = rtoDef := by
    intro k setting h
    constructor
    · exact applySetting_unmeasured k setting h.1
    · rw [applySetting_rxRto]
      exact h.2
  have hfresh : Unmeasured (construct conv output stream) ∧
      (construct conv output stream).rxRto = rtoDef :=
    ⟨⟨rfl, rfl, rfl, (by decide : intervalDef.toNat ≤ 5000),
      (by decide : 0 < mtuDef - overhead)⟩, rfl⟩
  rcases Run.run_preserves hstep settings hfresh with ⟨hunmeasured, hrto⟩
  constructor
  · exact hunmeasured.bounded.toSmoothed
  · show (Run.run applySetting (construct conv output stream) settings).rxRto.toNat ≤ 60000
    rw [hrto]
    decide

theorem Reachable.timed [Write Output] {k : Kcp Output} (h : Reachable k) : Timed k := by
  induction h with
  | configured conv output stream settings =>
    exact configured_timed conv output stream settings
  | call op _ ih =>
    exact timed_metered.apply _ op ih
  | drained output _ ih =>
    exact ih.of_timing rfl
  | common hd _ ih =>
    exact ih.of_timing rfl
  | command scan hd body _ ih =>
    exact timed_metered.inputCommand ih scan hd body

/-!
## Sequences of acknowledgements
-/

/-- What an acknowledgement does to a machine, from the fields that every segment carries to
the trimmed send buffer. -/
def ackSegment (k : Kcp Output) (hd : SegmentHeader) : Kcp Output :=
  (k.inputCommon hd).inputAck hd

def measuredRtt (k : Kcp Output) (hd : SegmentHeader) : UInt32 :=
  min (timediff k.current hd.ts).toUInt32 rtoMax

def Measured (k : Kcp Output) (hd : SegmentHeader) : Prop :=
  timediff k.current hd.ts ≥ 0

/-- The sums that `update_ack` forms for a measurement fit 32 bits. -/
structure SumsFit (k : Kcp Output) (rtt : UInt32) : Prop where
  rttval : 3 * k.rxRttval.toNat + (absDiff rtt k.rxSrtt).toNat < 4294967296
  srtt : 7 * k.rxSrtt.toNat + rtt.toNat < 4294967296
  rto : (k.smoothRtt rtt).rxSrtt.toNat +
    max (k.smoothRtt rtt).interval.toNat (4 * (k.smoothRtt rtt).rxRttval.toNat) < 4294967296

theorem Smoothed.sumsFit (h : Smoothed k) {rtt : UInt32} (hrtt : rtt.toNat ≤ 60000) :
    SumsFit k rtt := by
  have hsmooth := (smoothRtt_checked h hrtt).2
  have hsrtt := h.srtt
  have hrttval := h.rttval
  have hdelta := absDiff_toNat_le hrtt h.srtt
  have hsrtt' := hsmooth.srtt
  have hrttval' := hsmooth.rttval
  have hinterval' := hsmooth.interval
  constructor
  · omega
  · omega
  · omega

theorem ackSegment_timed (h : Timed k) (hd : SegmentHeader) :
    Timed (k.ackSegment hd) := by
  have hcommon : Timed (k.inputCommon hd) := h.of_timing rfl
  exact timed_metered.inputAck hcommon hd

theorem ackSegment_fixed (k : Kcp Output) (hd : SegmentHeader) :
    (k.ackSegment hd).rxMinrto = k.rxMinrto ∧ (k.ackSegment hd).current = k.current := by
  rcases inputAck_frame (k.inputCommon hd) hd with ⟨srtt, rttval, rto, segs, hack, _⟩
  rw [ackSegment, hack]
  exact ⟨rfl, rfl⟩

theorem le_bound {lower v upper : UInt32} (h : lower.toNat ≤ upper.toNat) :
    lower ≤ bound lower v upper := by
  have hmax : lower ≤ max lower v := by
    show lower ≤ if lower ≤ v then v else lower
    split
    · assumption
    · exact UInt32.le_refl lower
  show lower ≤ if max lower v ≤ upper then max lower v else upper
  split
  · exact hmax
  · exact UInt32.le_iff_toNat_le.mpr h

theorem rxRto_ackSegment_of_measured {hd : SegmentHeader} (h : Measured k hd) :
    (k.ackSegment hd).rxRto =
      ((k.inputCommon hd).updateAck (timediff k.current hd.ts).toUInt32).rxRto := by
  unfold ackSegment inputAck
  simp only
  rw [if_pos (show timediff (k.inputCommon hd).current hd.ts ≥ 0 from h)]
  rcases parseAck_frame ((k.inputCommon hd).updateAck (timediff k.current hd.ts).toUInt32) hd.sn
    with ⟨segs, hack, _⟩
  show (((k.inputCommon hd).updateAck (timediff k.current hd.ts).toUInt32).parseAck hd.sn).rxRto = _
  rw [hack]

theorem rxRto_ackSegment_of_not_measured {hd : SegmentHeader} (h : ¬ Measured k hd) :
    (k.ackSegment hd).rxRto = k.rxRto := by
  unfold ackSegment inputAck
  simp only
  rw [if_neg (show ¬ timediff (k.inputCommon hd).current hd.ts ≥ 0 from h)]
  rcases parseAck_frame (k.inputCommon hd) hd.sn with ⟨segs, hack, _⟩
  rw [hack]
  rfl

theorem ackSegment_minrto_iff (hmin : k.rxMinrto.toNat ≤ 60000) (hd : SegmentHeader) :
    (k.ackSegment hd).rxMinrto ≤ (k.ackSegment hd).rxRto ↔
      k.rxMinrto ≤ k.rxRto ∨ Measured k hd := by
  rw [(ackSegment_fixed k hd).1]
  by_cases hmeasured : Measured k hd
  · rw [rxRto_ackSegment_of_measured hmeasured]
    constructor
    · intro _
      exact Or.inr hmeasured
    · intro _
      rcases smoothRtt_frame (k.inputCommon hd) (min (timediff k.current hd.ts).toUInt32 rtoMax)
        with ⟨srtt, rttval, hsmooth⟩
      unfold updateAck
      rw [hsmooth]
      exact le_bound hmin
  · rw [rxRto_ackSegment_of_not_measured hmeasured]
    constructor
    · exact Or.inl
    · intro h
      rcases h with hle | habsurd
      · exact hle
      · exact absurd habsurd hmeasured

theorem run_ackSegment_minrto_iff (hmin : k.rxMinrto.toNat ≤ 60000) (acks : List SegmentHeader) :
    (Run.run ackSegment k acks).rxMinrto ≤ (Run.run ackSegment k acks).rxRto ↔
      k.rxMinrto ≤ k.rxRto ∨ exists hd, hd ∈ acks ∧ Measured k hd := by
  induction acks generalizing k with
  | nil =>
    simp
  | cons hd acks ih =>
    have hfixed := ackSegment_fixed k hd
    have hsame : forall ack, Measured (k.ackSegment hd) ack ↔ Measured k ack := by
      intro ack
      unfold Measured
      rw [hfixed.2]
    rw [Run.run_cons, ih (by rw [hfixed.1]; exact hmin), ackSegment_minrto_iff hmin]
    simp only [hsame, List.mem_cons, exists_eq_or_imp, or_assoc]

/-- After every acknowledgement of a sequence with arbitrary timestamps the estimates and the
timeout are at most the largest timeout, and the sums they came from did not overflow.  The
timeout is at least the smallest one as soon as one acknowledgement was measured. -/
theorem acks_bounded [Write Output] {k : Kcp Output} (h : Reachable k)
    (hmin : k.rxMinrto.toNat ≤ 60000) (acks : List SegmentHeader) (hd : SegmentHeader) :
    SumsFit (Run.run ackSegment k acks) (measuredRtt (Run.run ackSegment k acks) hd) ∧
      (Run.run ackSegment k (acks ++ [hd])).rxSrtt.toNat ≤ 60000 ∧
      (Run.run ackSegment k (acks ++ [hd])).rxRttval.toNat ≤ 60000 ∧
      (Run.run ackSegment k (acks ++ [hd])).rxRto.toNat ≤ 60000 ∧
      ((Run.run ackSegment k (acks ++ [hd])).rxMinrto ≤
          (Run.run ackSegment k (acks ++ [hd])).rxRto ↔
        k.rxMinrto ≤ k.rxRto ∨ exists ack, ack ∈ acks ++ [hd] ∧ Measured k ack) := by
  have hstep : forall k : Kcp Output, forall hd, Timed k -> Timed (k.ackSegment hd) :=
    fun _ hd hk => ackSegment_timed hk hd
  have hrun : forall acks, Timed (Run.run ackSegment k acks) :=
    fun acks => Run.run_preserves hstep acks h.timed
  have hafter := hrun (acks ++ [hd])
  have hrtt : (measuredRtt (Run.run ackSegment k acks) hd).toNat ≤ 60000 :=
    min_toNat_le _ rtoMax
  exact ⟨(hrun acks).toSmoothed.sumsFit hrtt, hafter.srtt, hafter.rttval, hafter.rto,
    run_ackSegment_minrto_iff hmin (acks ++ [hd])⟩

/-- The header of an acknowledgement of segment 0 with timestamp `ts`. -/
def ackHeader (ts : UInt32) : SegmentHeader where
  conv := 1
  cmd := cmdAck
  frg := 0
  wnd := 32
  ts := ts
  sn := 0
  una := 0
  len := 0

theorem acks_bounded_of_settings :
    (configured 1 ({} : PacketWriter) true [.rxMinrto 300]).rxMinrto.toNat ≤ 60000 ∧
      (Run.run ackSegment (configured 1 ({} : PacketWriter) true [.rxMinrto 300])
        ([ackHeader 1] ++ [ackHeader 0])).rxRto.toNat ≤ 60000 :=
  ⟨by decide, (acks_bounded (Reachable.configured 1 ({} : PacketWriter) true [.rxMinrto 300])
    (by decide) [ackHeader 1] (ackHeader 0)).2.2.2.1⟩

/-- The smallest timeout is set to 300 ms and the first acknowledgement carries a timestamp
ahead of the clock: the timeout is still the initial 200 ms. -/
theorem unmeasured_ack_below_minrto :
    exists k : Kcp PacketWriter, Reachable k ∧ k.rxMinrto.toNat ≤ 60000 ∧
      k.interval.toNat ≤ 5000 ∧
      ¬ (Run.run ackSegment k [ackHeader 1]).rxMinrto ≤
        (Run.run ackSegment k [ackHeader 1]).rxRto :=
  ⟨configured 1 {} true [.rxMinrto 300],
    Reachable.configured 1 ({} : PacketWriter) true [.rxMinrto 300],
    by decide, by decide, by decide⟩

end Kcp
end FrpRs
