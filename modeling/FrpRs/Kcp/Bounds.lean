import FrpRs.Kcp.Checked
import FrpRs.Kcp.Input

/-!
# Bounds on the gauges of a state machine

The round-trip estimates stay at or below the largest timeout, and the interval at or
below its largest setting.  The bounds hold in every reachable state; under them the
round-trip arithmetic never overflows.
-/

namespace FrpRs
namespace Kcp

open Bytes
open Fallible
open Overflow (Guarded)

variable {Output : Type}

theorem addU32_guarded (a b : UInt32) :
    Guarded (Overflow.addU32 a b) (a + b) (a.toNat + b.toNat < 4294967296) :=
  Guarded.guard _ _

theorem mulU32_guarded (a b : UInt32) :
    Guarded (Overflow.mulU32 a b) (a * b) (a.toNat * b.toNat < 4294967296) :=
  Guarded.guard _ _

/-!
## Round-trip times
-/

/-- The bounds that keep the round-trip arithmetic in range. -/
structure Smoothed (k : Kcp Output) : Prop where
  srtt : k.rxSrtt.toNat ≤ 60000
  rttval : k.rxRttval.toNat ≤ 60000
  interval : k.interval.toNat ≤ 5000

theorem absDiff_toNat_le {a b : UInt32} {n : Nat} (ha : a.toNat ≤ n) (hb : b.toNat ≤ n) :
    (absDiff a b).toNat ≤ n := by
  unfold absDiff
  split
  · rename_i hlt
    rw [UInt32.toNat_sub_of_le _ _ (UInt32.le_of_lt hlt)]
    omega
  · rename_i hge
    rw [UInt32.toNat_sub_of_le _ _ (UInt32.not_lt.mp hge)]
    omega

theorem min_toNat_le (a b : UInt32) : (min a b).toNat ≤ b.toNat := by
  show (if a ≤ b then a else b).toNat ≤ b.toNat
  split
  · rename_i h
    exact UInt32.le_iff_toNat_le.mp h
  · exact Nat.le_refl _

theorem max_toNat_le {a b : UInt32} {n : Nat} (ha : a.toNat ≤ n) (hb : b.toNat ≤ n) :
    (max a b).toNat ≤ n := by
  show (if a ≤ b then b else a).toNat ≤ n
  split
  · exact hb
  · exact ha

theorem add_toNat_le {a b : UInt32} {m n : Nat} (ha : a.toNat ≤ m) (hb : b.toNat ≤ n)
    (h : m + n < 4294967296) :
    Overflow.addU32 a b = some (a + b) ∧ (a + b).toNat ≤ m + n := by
  have hfits : a.toNat + b.toNat < 4294967296 := by omega
  refine ⟨(addU32_guarded a b).returns hfits, ?_⟩
  rw [UInt32.toNat_add, Nat.mod_eq_of_lt hfits]
  omega

theorem mul_toNat_le {a b : UInt32} {n : Nat} (hb : b.toNat ≤ n)
    (h : a.toNat * n < 4294967296) :
    Overflow.mulU32 a b = some (a * b) ∧ (a * b).toNat ≤ a.toNat * n := by
  have hle : a.toNat * b.toNat ≤ a.toNat * n := Nat.mul_le_mul_left _ hb
  have hfits : a.toNat * b.toNat < 4294967296 := by omega
  refine ⟨(mulU32_guarded a b).returns hfits, ?_⟩
  rw [UInt32.toNat_mul, Nat.mod_eq_of_lt hfits]
  exact hle

variable {k : Kcp Output}

theorem smoothRtt_checked (h : Smoothed k) {rtt : UInt32} (hrtt : rtt.toNat ≤ 60000) :
    Checked.smoothRtt k rtt = some (k.smoothRtt rtt) ∧ Smoothed (k.smoothRtt rtt) := by
  unfold Checked.smoothRtt smoothRtt
  split
  · refine ⟨rfl, hrtt, ?_, h.interval⟩
    show (rtt / 2).toNat ≤ 60000
    exact Nat.le_trans (Nat.div_le_self _ _) hrtt
  · obtain ⟨htripled, htripledLe⟩ := @mul_toNat_le 3 _ _ h.rttval (by decide)
    obtain ⟨hval, hvalLe⟩ := add_toNat_le htripledLe (absDiff_toNat_le hrtt h.srtt)
      (by decide)
    obtain ⟨hscaled, hscaledLe⟩ := @mul_toNat_le 7 _ _ h.srtt (by decide)
    obtain ⟨hsrtt, hsrttLe⟩ := add_toNat_le hscaledLe hrtt (by decide)
    refine ⟨?_, ?_, ?_, h.interval⟩
    · simp only [htripled, hval, hscaled, hsrtt, Option.bind_some]
    · show (if _ then (1 : UInt32) else _).toNat ≤ 60000
      split
      · decide
      · exact Nat.div_le_of_le_mul hsrttLe
    · show (_ / _ : UInt32).toNat ≤ 60000
      exact Nat.div_le_of_le_mul hvalLe

theorem updateAck_checked (h : Smoothed k) (rtt : UInt32) :
    Checked.updateAck k rtt = some (k.updateAck rtt) ∧ Smoothed (k.updateAck rtt) := by
  obtain ⟨hsmooth, hkept⟩ := smoothRtt_checked h (min_toNat_le rtt rtoMax)
  obtain ⟨hspread, hspreadLe⟩ := @mul_toNat_le 4 _ _ hkept.rttval (by decide)
  have hmax := max_toNat_le (Nat.le_trans hkept.interval (by decide)) hspreadLe
  obtain ⟨hrto, -⟩ := add_toNat_le hkept.srtt hmax (by decide)
  refine ⟨?_, hkept.srtt, hkept.rttval, hkept.interval⟩
  unfold Checked.updateAck updateAck
  rw [hsmooth, Option.bind_some, hspread, Option.bind_some, hrto, Option.bind_some]

/-!
## The bounds
-/

structure Bounded (k : Kcp Output) : Prop extends Smoothed k where
  mss : 0 < k.mss
  incr : k.mss < 4294967296 -> k.incr < (k.cwnd.toNat + 1) * k.mss

def gauges (k : Kcp Output) : UInt32 × UInt32 × UInt32 × Nat × UInt16 × Nat :=
  (k.rxSrtt, k.rxRttval, k.interval, k.mss, k.cwnd, k.incr)

/-!
## Readings
-/

def readings (k : Kcp Output) : (UInt32 × UInt32 × UInt32 × Nat × UInt16 × Nat) × UInt32 :=
  (gauges k, k.rxRto)

theorem parseData_readings (k : Kcp Output) (new : KcpSegment) :
    readings (k.parseData new) = readings k := by
  unfold parseData
  split
  · rfl
  · rfl

theorem inputPush_readings (k : Kcp Output) (hd : SegmentHeader) (body : List Byte) :
    readings (k.inputPush hd body).2 = readings k := by
  rcases inputPush_cases k hd body with
    ⟨_, heq⟩ | ⟨_, _, heq⟩ | ⟨_, _, _, e, heq⟩ | ⟨_, _, _, heq⟩
  · rw [heq]
  · rw [heq]
    rfl
  · rw [heq]
    rfl
  · rw [heq]
    exact parseData_readings _ _

theorem parseAck_readings (k : Kcp Output) (sn : UInt32) :
    readings (k.parseAck sn) = readings k := by
  rcases parseAck_frame k sn with ⟨segs, hack, _⟩
  rw [hack]
  rfl

theorem parseFastack_readings (k : Kcp Output) (sn ts : UInt32) :
    readings (k.parseFastack sn ts) = readings k := by
  unfold parseFastack
  split
  · rfl
  · rfl

theorem recv_readings (k : Kcp Output) (bufLen : Nat) :
    readings (k.recv bufLen).2 = readings k := by
  unfold recv
  split
  · rfl
  · split
    · rfl
    · split
      · rfl
      · simp only
        split
        · rfl
        · rfl

theorem send_readings (k : Kcp Output) (buf : List Byte) :
    readings (k.send buf).2 = readings k := by
  rcases send_frame k buf with ⟨queue, hsend⟩
  rw [hsend]
  rfl

theorem ControlOnly.readings_eq {k k' : Kcp Output} (h : ControlOnly k k') :
    readings k' = readings k := by
  rcases h with ⟨out, buf, acks, probe, tsProbe, probeWait, rfl⟩
  rfl

theorem ResendOnly.readings_eq {k k' : Kcp Output} {todo : List KcpSegment}
    (h : ResendOnly k k' todo) : readings k' = readings k := by
  rcases h with ⟨xmit, state, segs, hcontrol, _⟩
  exact hcontrol.readings_eq

theorem fillWindow_readings (wnd cwnd : UInt16) (queue : List KcpSegment) (k : Kcp Output)
    (count : UInt32) : readings (fillWindow wnd cwnd queue k count).1 = readings k := by
  induction queue generalizing k count with
  | nil =>
    rfl
  | cons seg rest ih =>
    unfold fillWindow
    split
    · exact ih _ _
    · rfl

/-- A property of the readings that holds again after each step that changes them: a
measurement, the growth of the window and the end of a flush. -/
structure Metered (P : Kcp Output -> Prop) : Prop where
  congr : forall {k k' : Kcp Output}, P k -> readings k' = readings k -> P k'
  updateAck : forall {k : Kcp Output}, P k -> forall rtt, P (k.updateAck rtt)
  growCwnd : forall {k : Kcp Output}, P k -> forall oldUna, P (k.growCwnd oldUna)
  flushFinish : forall {k : Kcp Output}, P k -> forall cwnd resent scan,
    P (k.flushFinish cwnd resent scan)

/-!
## Calls keep what is metered
-/

namespace Metered

variable {P : Kcp Output -> Prop} (h : Metered P)

include h

theorem inputAck (hk : P k) (hd : SegmentHeader) : P (k.inputAck hd) := by
  unfold Kcp.inputAck
  simp only
  split
  · exact h.congr (h.updateAck hk _) (parseAck_readings _ hd.sn)
  · exact h.congr hk (parseAck_readings k hd.sn)

theorem inputCommand (hk : P k) (scan : AckScan) (hd : SegmentHeader) (body : List Byte) :
    P (k.inputCommand scan hd body).2 := by
  unfold Kcp.inputCommand
  split
  · exact h.inputAck hk hd
  · split
    · apply andThen_state
      · exact h.congr hk (inputPush_readings k hd body)
      · intro _ _ _ hk'
        exact hk'
    · split
      · exact h.congr hk rfl
      · exact hk

theorem inputSegment (hk : P k) (scan : AckScan) (hd : SegmentHeader) (body : List Byte) :
    P (k.inputSegment scan hd body).2 := by
  apply andThen_state
  · rcases adoptConv_frame k hd.conv with ⟨conv, inputConv, hadopt⟩
    rw [hadopt]
    exact h.congr hk rfl
  · intro _ k' _ hk'
    split
    · exact hk'
    · split
      · exact hk'
      · have hcommon : P (k'.inputCommon hd) := h.congr hk' rfl
        exact h.inputCommand hcommon scan hd body

theorem inputLoop (hk : P k) (fuel : Nat) (scan : AckScan) (buf : List Byte) :
    P (Kcp.inputLoop fuel k scan buf).2 := by
  induction fuel generalizing k scan buf with
  | zero =>
    exact hk
  | succ fuel ih =>
    unfold Kcp.inputLoop
    split
    · exact hk
    · apply andThen_state
      · exact h.inputSegment hk scan (readHeader buf) (buf.drop overhead)
      · intro scan' _ _ hk'
        exact ih hk' scan' _

theorem inputFinish (hk : P k) (scan : AckScan) (oldUna : UInt32) :
    P (k.inputFinish scan oldUna) := by
  unfold Kcp.inputFinish
  split
  · exact h.growCwnd (h.congr hk (parseFastack_readings k _ _)) oldUna
  · exact h.growCwnd hk oldUna

theorem input (hk : P k) (buf : List Byte) : P (k.input buf).2 := by
  unfold Kcp.input
  split
  · exact hk
  · apply andThen_state
    · exact h.inputLoop hk buf.length {} buf
    · intro scanned _ _ hk'
      exact h.inputFinish hk' scanned.1 k.sndUna

section Flushing

variable [Write Output]

theorem flushData (hk : P k) (wnd : UInt16) : P (k.flushData wnd).2 := by
  have hfill : P (fillWindow wnd k.effectiveCwnd k.sndQueue k 0).1 :=
    h.congr hk (fillWindow_readings wnd k.effectiveCwnd k.sndQueue k 0)
  apply andThen_state
  · exact h.congr hfill (resendLoop_frame _ _ _ [] _).readings_eq
  · intro scan k' _ hk'
    apply andThen_state
    · exact h.congr hk' (flushBuf_frame k').readings_eq
    · intro _ k'' _ hk''
      exact h.flushFinish hk'' _ _ scan

theorem flush (hk : P k) : P k.flush.2 := by
  unfold Kcp.flush
  split
  · exact hk
  · apply andThen_state
    · exact h.congr hk (flushAcks_frame k _).readings_eq
    · intro segment k' _ hk'
      apply andThen_state
      · exact h.congr (h.congr hk' (probeWndSize_frame k').readings_eq)
          (flushProbeCommands_frame _ segment).readings_eq
      · intro _ k'' _ hk''
        exact h.flushData hk'' segment.wnd

theorem update (hk : P k) (current : UInt32) : P (k.update current).2 := by
  rcases update_cases k current with ⟨tsFlush, hupdate⟩
  have hclock : P (k.withClock current tsFlush) := h.congr hk rfl
  rcases hupdate with hstop | hflush
  · rw [hstop]
    exact hclock
  · rw [hflush]
    exact h.flush hclock

theorem apply (k : Kcp Output) (op : Op) (hk : P k) : P (k.apply op) := by
  cases op with
  | send buf => exact h.congr hk (send_readings k buf)
  | update current => exact h.update hk current
  | flush => exact h.flush hk
  | recv bufLen => exact h.congr hk (recv_readings k bufLen)
  | input datagram => exact h.input hk datagram

end Flushing

end Metered

/-!
## Calls keep the bounds
-/

/-- A machine that was only configured: it has measured nothing yet. -/
structure Unmeasured (k : Kcp Output) : Prop where
  srtt : k.rxSrtt = 0
  rttval : k.rxRttval = 0
  incr : k.incr = 0
  interval : k.interval.toNat ≤ 5000
  mss : 0 < k.mss

theorem Unmeasured.bounded (h : Unmeasured k) : Bounded k := by
  refine ⟨⟨?_, ?_, h.interval⟩, h.mss, ?_⟩
  · rw [h.srtt]
    decide
  · rw [h.rttval]
    decide
  · intro _
    rw [h.incr]
    exact Nat.mul_pos (Nat.succ_pos _) h.mss

theorem nodelayInterval_le (interval : Int32) :
    (if interval < 10 then (10 : UInt32)
      else if interval > 5000 then 5000 else interval.toUInt32).toNat ≤ 5000 := by
  split
  · decide
  · split
    · decide
    · rename_i hlow hhigh
      have hpos : 0 ≤ interval :=
        Int32.le_trans (by decide) (Int32.not_lt.mp hlow)
      have hle : interval.toUInt32 ≤ (5000 : Int32).toUInt32 :=
        Int32.toUInt32_le hpos (Int32.not_lt.mp hhigh)
      exact UInt32.le_iff_toNat_le.mp hle

theorem applySetting_unmeasured (k : Kcp Output) (setting : Setting) (h : Unmeasured k) :
    Unmeasured (k.applySetting setting) := by
  cases setting with
  | mtu mtu =>
    show Unmeasured (k.setMtu mtu).2
    unfold setMtu
    split
    · exact h
    · rename_i hmtu
      refine ⟨h.srtt, h.rttval, h.incr, h.interval, ?_⟩
      show 0 < mtu - overhead
      unfold overhead
      omega
  | nodelay nodelay interval resend nc =>
    exact ⟨h.srtt, h.rttval, h.incr, nodelayInterval_le interval, h.mss⟩
  | interval interval =>
    exact ⟨h.srtt, h.rttval, h.incr, min_toNat_le _ 5000, h.mss⟩
  | _ => exact ⟨h.srtt, h.rttval, h.incr, h.interval, h.mss⟩

end Kcp
end FrpRs
