import FrpRs.Kcp.Receive

/-!
# Acknowledged data

`input` puts the number of a data segment on the acknowledgement list before it
looks at the fragment number and the length.  This module follows every number
put on the list to where it is when `input` returns, and names the one way in
which it is nowhere: the segment was refused inside the window and its number was
not held before.
-/

namespace FrpRs
namespace Kcp

open List Bytes
open Fallible
open Serial

variable {Output : Type}

/-- Every number a call put on the acknowledgement list is below `rcv_nxt` or
held in the reassembly buffer when the call returns. -/
def AcksHeld (k k' : Kcp Output) : Prop :=
  forall ack, ack ∈ k'.acklist.drop k.acklist.length ->
    timediff ack.1 k'.rcvNxt < 0 ∨ ack.1 ∈ sns k'.rcvBuf

instance (k k' : Kcp Output) : Decidable (AcksHeld k k') :=
  decidableBAll _ _

/-!
## Where a number is

Positions are distances from the `rcv_nxt` the call started with: a number is held
in the buffer, or was passed by `rcv_nxt` during the call, or lay behind the
window all along.
-/

def Accounted (base : UInt32) (k : Kcp Output) (sn : UInt32) : Prop :=
  sn ∈ sns k.rcvBuf ∨ offset base sn < offset base k.rcvNxt

def Settled (base : UInt32) (k : Kcp Output) (sn : UInt32) : Prop :=
  Accounted base k sn ∨ 2147483648 + k.rcvWnd.toNat ≤ offset base sn

structure Progress (k0 k : Kcp Output) : Prop where
  windowed : Windowed k
  rcvWnd : k.rcvWnd = k0.rcvWnd
  stream : k.stream = k0.stream
  mss : k.mss = k0.mss
  advance : offset k0.rcvNxt k.rcvNxt + k0.rcvQueue.length ≤ k.rcvQueue.length
  held : forall sn, sn ∈ sns k0.rcvBuf -> Accounted k0.rcvNxt k sn
  acks : exists new, k.acklist = k0.acklist ++ new ∧
    forall ack, ack ∈ new -> Settled k0.rcvNxt k ack.1

theorem Progress.refl {k : Kcp Output} (h : Windowed k) : Progress k k where
  windowed := h
  rcvWnd := rfl
  stream := rfl
  mss := rfl
  advance := by
    rw [offset_self]
    omega
  held := fun _ hsn => .inl hsn
  acks := ⟨[], by simp, fun _ hack => by cases hack⟩

variable {k0 k : Kcp Output}

theorem Progress.advance_le (h : Progress k0 k) :
    offset k0.rcvNxt k.rcvNxt + k0.rcvQueue.length ≤ k.rcvWnd.toNat :=
  Nat.le_trans h.advance h.windowed.recv.queue

theorem Progress.same {k0 k k' : Kcp Output} (h : Progress k0 k)
    (hk : SameReceive k k') (hwindow : Windowed k') : Progress k0 k' where
  windowed := hwindow
  rcvWnd := hk.rcvWnd.trans h.rcvWnd
  stream := hk.stream.trans h.stream
  mss := hk.mss.trans h.mss
  advance := by
    rw [hk.rcvNxt, hk.rcvQueue]
    exact h.advance
  held := by
    intro sn hsn
    unfold Accounted
    rw [hk.rcvBuf, hk.rcvNxt]
    exact h.held sn hsn
  acks := by
    unfold Settled Accounted
    rw [hk.acklist, hk.rcvBuf, hk.rcvNxt, hk.rcvWnd]
    exact h.acks

theorem Progress.settled (h : Progress k0 k) {sn : UInt32} (hsn : Settled k0.rcvNxt k sn) :
    timediff sn k.rcvNxt < 0 ∨ sn ∈ sns k.rcvBuf := by
  have hle := h.advance_le
  have hw := toNat_lt_of_u16 k.rcvWnd
  rcases hsn with (hheld | hpassed) | hstale
  · exact .inr hheld
  · left
    rw [timediff_lt_zero, offset_rebase_lt hpassed]
    omega
  · left
    rw [timediff_lt_zero, @offset_rebase k0.rcvNxt _ _ (by omega)]
    omega

theorem Progress.acksHeld (h : Progress k0 k) : AcksHeld k0 k := by
  obtain ⟨new, hnew, hsettled⟩ := h.acks
  intro ack hack
  rw [hnew, drop_left] at hack
  exact h.settled (hsettled ack hack)

theorem Progress.push (h : Progress k0 k) {sn : UInt32} (ts : UInt32) (hsn : Settled k0.rcvNxt k sn) :
    Progress k0 (k.ackPush sn ts) where
  windowed := ⟨h.windowed.send, h.windowed.recv⟩
  rcvWnd := h.rcvWnd
  stream := h.stream
  mss := h.mss
  advance := h.advance
  held := h.held
  acks := by
    obtain ⟨new, hnew, hsettled⟩ := h.acks
    refine ⟨new ++ [(sn, ts)], ?_, ?_⟩
    · show k.acklist ++ [(sn, ts)] = _
      rw [hnew, append_assoc]
    · intro ack hack
      rcases mem_append.mp hack with hold | hlast
      · exact hsettled ack hold
      · rw [mem_singleton.mp hlast]
        exact hsn

/-- Storing a segment of the window accounts for its number and keeps every
number accounted for. -/
theorem Progress.store (h : Progress k0 k) (new : KcpSegment) (ts : UInt32)
    (hupper : timediff new.sn (k.rcvNxt + k.rcvWnd.toUInt32) < 0)
    (hlower : timediff new.sn k.rcvNxt ≥ 0) :
    Progress k0 ((k.ackPush new.sn ts).parseData new) := by
  have hpush : Windowed (k.ackPush new.sn ts) := ⟨h.windowed.send, h.windowed.recv⟩
  have hwindow := parseData_windowed hpush new
  have hlimits := parseData_received (k.ackPush new.sn ts) new
  have hacklist := parseData_acklist (k.ackPush new.sn ts) new
  obtain ⟨moved, hmoved⟩ := parseData_moved (k := k.ackPush new.sn ts) hupper hlower
  generalize (k.ackPush new.sn ts).parseData new = k' at hwindow hlimits hacklist hmoved ⊢
  have hwnd : k'.rcvWnd = k.rcvWnd := hlimits.rcvWnd
  obtain ⟨hstep, hmovedLe⟩ := hmoved.offset_next hwindow
  change offset k.rcvNxt k'.rcvNxt = _ at hstep
  have hmovedWnd : moved.length ≤ k.rcvWnd.toNat := by
    rw [← hwnd]
    exact hmovedLe
  have hle := h.advance_le
  have hw := toNat_lt_of_u16 k.rcvWnd
  have hnext : offset k0.rcvNxt k'.rcvNxt =
      offset k0.rcvNxt k.rcvNxt + moved.length := by
    rw [offset_trans (b := k.rcvNxt) (by omega), hstep]
  have hinsert : forall sn, sn = new.sn ∨ sn ∈ sns k.rcvBuf ->
      Accounted k0.rcvNxt k' sn := by
    intro sn hsn
    have hmem := sns_insertData hsn
    have hsplit : insertData new k.rcvBuf =
        moved ++ k'.rcvBuf := hmoved.buffer
    rw [hsplit, sns, map_append, mem_append] at hmem
    rcases hmem with hfront | hrest
    · right
      have hlt := hmoved.numbers.offset_lt (by simp [sns]; omega) sn hfront
      rw [sns, length_map] at hlt
      change offset k.rcvNxt sn < moved.length at hlt
      rw [hnext, offset_trans (b := k.rcvNxt) (by omega)]
      omega
    · exact .inl hrest
  have haccounted : forall sn, Accounted k0.rcvNxt k sn ->
      Accounted k0.rcvNxt k' sn := by
    rintro sn (hheld | hpassed)
    · exact hinsert sn (.inr hheld)
    · right
      omega
  refine ⟨hwindow, hwnd.trans h.rcvWnd, hlimits.stream.trans h.stream,
    hlimits.mss.trans h.mss, ?_, ?_, ?_⟩
  · rw [hnext, hmoved.queue, length_append]
    have hadvance := h.advance
    show offset k0.rcvNxt k.rcvNxt + moved.length + k0.rcvQueue.length ≤
      k.rcvQueue.length + moved.length
    omega
  · exact fun sn hsn => haccounted sn (h.held sn hsn)
  · obtain ⟨acks, hacks, hsettled⟩ := h.acks
    refine ⟨acks ++ [(new.sn, ts)], ?_, ?_⟩
    · rw [hacklist]
      show k.acklist ++ [(new.sn, ts)] = _
      rw [hacks, append_assoc]
    · intro ack hack
      rcases mem_append.mp hack with hold | hlast
      · rcases hsettled ack hold with hacc | hstale
        · exact .inl (haccounted _ hacc)
        · right
          rw [hwnd]
          exact hstale
      · rw [mem_singleton.mp hlast]
        exact .inl (hinsert _ (.inl rfl))

theorem settled_below {sn : UInt32}
    (hupper : timediff sn (k.rcvNxt + k.rcvWnd.toUInt32) < 0) (hlower : ¬ timediff sn k.rcvNxt ≥ 0) :
    Settled k0.rcvNxt k sn := by
  have hadd := offset_add_u16 k.rcvNxt k.rcvWnd
  have hw := toNat_lt_of_u16 k.rcvWnd
  rw [timediff_nonneg] at hlower
  rw [timediff_lt_zero, @offset_rebase k.rcvNxt _ _ (by omega), hadd] at hupper
  rcases Nat.lt_or_ge (offset k0.rcvNxt k.rcvNxt + offset k.rcvNxt sn) 4294967296
    with hlt | hwrap
  · right
    rw [offset_trans (b := k.rcvNxt) hlt]
    omega
  · exact .inl (.inr (offset_trans_wrap hwrap))

/-!
## The branch that loses a segment
-/

/-- The segment loop reads this data segment and refuses it inside the window,
while its number is not held. -/
def AcksFresh (k : Kcp Output) (hd : SegmentHeader) (body : List Byte) : Prop :=
  (k.adoptConv hd.conv).1 = .ok () ∧ hd.len ≤ body.length ∧ hd.cmd = cmdPush ∧
    timediff hd.sn (k.rcvNxt + k.rcvWnd.toUInt32) < 0 ∧
    timediff hd.sn k.rcvNxt ≥ 0 ∧ Malformed k hd ∧ hd.sn ∉ sns k.rcvBuf

variable {hd : SegmentHeader}

theorem inputPush_progress (h : Progress k0 k) (body : List Byte)
    (hfresh : timediff hd.sn (k.rcvNxt + k.rcvWnd.toUInt32) < 0 ->
      timediff hd.sn k.rcvNxt ≥ 0 -> Malformed k hd -> hd.sn ∈ sns k.rcvBuf) :
    Progress k0 (k.inputPush hd body).2 := by
  rcases inputPush_cases k hd body with
    ⟨_, heq⟩ | ⟨hupper, hlower, heq⟩ | ⟨hupper, hlower, hbad, e, heq⟩ |
      ⟨hupper, hlower, _, heq⟩
  · rw [heq]
    exact h
  · rw [heq]
    exact h.push hd.ts (settled_below hupper hlower)
  · rw [heq]
    exact h.push hd.ts (.inl (.inl (hfresh hupper hlower hbad)))
  · rw [heq]
    exact h.store (receivedSegment hd (body.take hd.len)) hd.ts hupper hlower

theorem inputCommand_progress (h : Progress k0 k) (scan : AckScan)
    (body : List Byte)
    (hfresh : hd.cmd = cmdPush -> timediff hd.sn (k.rcvNxt + k.rcvWnd.toUInt32) < 0 ->
      timediff hd.sn k.rcvNxt ≥ 0 -> Malformed k hd -> hd.sn ∈ sns k.rcvBuf) :
    Progress k0 (k.inputCommand scan hd body).2 := by
  unfold inputCommand
  split
  · exact h.same (inputAck_sameReceive k hd) (inputAck_windowed h.windowed hd)
  · split
    · rename_i hpush
      apply andThen_state
      · exact inputPush_progress h body (hfresh hpush)
      · intro _ _ _ hk'
        exact hk'
    · split
      · exact h.same ⟨rfl, rfl, rfl, rfl, rfl, rfl, rfl⟩
          ⟨h.windowed.send, h.windowed.recv⟩
      · exact h

theorem adoptConv_windowed (h : Windowed k) (conv : UInt32) :
    Windowed (k.adoptConv conv).2 := by
  obtain ⟨conv', wait, hadopt⟩ := adoptConv_frame k conv
  rw [hadopt]
  exact ⟨h.send, h.recv⟩

theorem inputSegment_progress {k0 k : Kcp Output} (h : Progress k0 k) (scan : AckScan)
    {hd : SegmentHeader} {body : List Byte} (hfresh : ¬ AcksFresh k hd body) :
    Progress k0 (k.inputSegment scan hd body).2 := by
  have hsame := adoptConv_sameReceive k hd.conv
  have hadopted := h.same hsame (adoptConv_windowed h.windowed hd.conv)
  unfold inputSegment
  rcases hadopt : k.adoptConv hd.conv with ⟨res, k1⟩
  rw [hadopt] at hsame hadopted
  cases res with
  | error e => exact hadopted
  | ok _ =>
    split
    · exact hadopted
    · rename_i hlen
      split
      · exact hadopted
      · have hcommon := inputCommon_sameReceive k1 hd
        have hboth := hsame.trans hcommon
        apply inputCommand_progress
          (hadopted.same hcommon (inputCommon_windowed hadopted.windowed hd))
        intro hpush hupper hlower hbad
        rw [hboth.rcvNxt, hboth.rcvWnd] at hupper
        rw [hboth.rcvNxt] at hlower
        rw [hboth.malformed] at hbad
        rw [hboth.rcvBuf]
        by_cases hheld : hd.sn ∈ sns k.rcvBuf
        · exact hheld
        · exact absurd ⟨by rw [hadopt], by omega, hpush, hupper, hlower, hbad, hheld⟩
            hfresh

theorem inputSegment_refuses (scan : AckScan) {body : List Byte} (h : AcksFresh k hd body) :
    exists e k', k.inputSegment scan hd body = (.error e, k') ∧
      k'.acklist = k.acklist ++ [(hd.sn, hd.ts)] ∧
      ¬ timediff hd.sn k'.rcvNxt < 0 ∧ hd.sn ∉ sns k'.rcvBuf := by
  obtain ⟨hconv, hlen, hpush, hupper, hlower, hbad, hnot⟩ := h
  have hsame := adoptConv_sameReceive k hd.conv
  unfold inputSegment
  rcases hadopt : k.adoptConv hd.conv with ⟨res, k1⟩
  rw [hadopt] at hsame hconv
  obtain rfl : res = _ := hconv
  have hboth := hsame.trans (inputCommon_sameReceive k1 hd)
  have hknown : ¬ knownCmd hd.cmd = false := by
    rw [hpush]
    decide
  have hnotAck : ¬ hd.cmd = cmdAck := by
    rw [hpush]
    decide
  have hcases := inputPush_cases (k1.inputCommon hd) hd body
  rw [hboth.rcvNxt, hboth.rcvWnd, hboth.malformed] at hcases
  rcases hcases with ⟨hout, _⟩ | ⟨_, hbelow, _⟩ | ⟨_, _, _, e, heq⟩ | ⟨_, _, hgood, _⟩
  · exact absurd hupper hout
  · exact absurd hlower hbelow
  · refine ⟨e, (k1.inputCommon hd).ackPush hd.sn hd.ts, ?_, ?_, ?_, ?_⟩
    · rw [andThen_ok, if_neg (by omega), if_neg hknown]
      unfold inputCommand
      rw [if_neg hnotAck, if_pos hpush, heq, andThen_error]
    · show (k1.inputCommon hd).acklist ++ [(hd.sn, hd.ts)] = _
      rw [hboth.acklist]
    · show ¬ timediff hd.sn (k1.inputCommon hd).rcvNxt < 0
      rw [hboth.rcvNxt, timediff_lt_zero]
      rw [timediff_nonneg] at hlower
      omega
    · show hd.sn ∉ sns (k1.inputCommon hd).rcvBuf
      rw [hboth.rcvBuf]
      exact hnot
  · exact absurd hbad hgood

theorem inputPush_acklist (k : Kcp Output) (hd : SegmentHeader) (body : List Byte) :
    k.acklist <+: (k.inputPush hd body).2.acklist := by
  have hack : k.acklist <+: (k.ackPush hd.sn hd.ts).acklist := prefix_append _ _
  rcases inputPush_cases k hd body with
    ⟨_, heq⟩ | ⟨_, _, heq⟩ | ⟨_, _, _, e, heq⟩ | ⟨_, _, _, heq⟩
  · rw [heq]
  · rw [heq]
    exact hack
  · rw [heq]
    exact hack
  · rw [heq, parseData_acklist]
    exact hack

theorem inputCommand_acklist (k : Kcp Output) (scan : AckScan) (hd : SegmentHeader)
    (body : List Byte) : k.acklist <+: (k.inputCommand scan hd body).2.acklist := by
  unfold inputCommand
  split
  · rw [(inputAck_sameReceive k hd).acklist]
  · split
    · apply andThen_state (P := fun s : Kcp Output => k.acklist <+: s.acklist)
      · exact inputPush_acklist k hd body
      · intro _ _ _ hk'
        exact hk'
    · split
      · exact prefix_rfl
      · exact prefix_rfl

theorem inputSegment_acklist (k : Kcp Output) (scan : AckScan) (hd : SegmentHeader)
    (body : List Byte) : k.acklist <+: (k.inputSegment scan hd body).2.acklist := by
  have hadopt := (adoptConv_sameReceive k hd.conv).acklist
  apply andThen_state (P := fun s : Kcp Output => k.acklist <+: s.acklist)
  · rw [hadopt]
  · intro _ k' _ hk'
    split
    · exact hk'
    · split
      · exact hk'
      · exact hk'.trans (inputCommand_acklist (k'.inputCommon hd) scan hd body)

/-!
## The segment loop
-/

/-- Some round of the segment loop refuses a data segment of the window whose
number is not held. -/
def refusesFresh : Nat -> Kcp Output -> AckScan -> List Byte -> Prop
  | 0, _, _, _ => False
  | fuel + 1, k, scan, buf =>
    ¬ buf.length < overhead ∧
      (AcksFresh k (readHeader buf) (buf.drop overhead) ∨
        exists scan' k',
          k.inputSegment scan (readHeader buf) (buf.drop overhead) = (.ok scan', k') ∧
            refusesFresh fuel k' scan'
              ((buf.drop overhead).drop (readHeader buf).len))

def RefusesFresh (k : Kcp Output) (datagram : List Byte) : Prop :=
  refusesFresh datagram.length k {} datagram

variable {buf : List Byte}

theorem inputLoop_progress (fuel : Nat) (h : Progress k0 k) (scan : AckScan)
    (hfresh : ¬ refusesFresh fuel k scan buf) :
    Progress k0 (inputLoop fuel k scan buf).2 := by
  induction fuel generalizing k scan buf with
  | zero =>
    exact h
  | succ fuel ih =>
    by_cases hlong : buf.length < overhead
    · unfold inputLoop
      rw [if_pos hlong]
      exact h
    · have hsegment := @inputSegment_progress _ _ _ h scan (readHeader buf) (buf.drop overhead)
        (fun hacks => hfresh ⟨hlong, .inl hacks⟩)
      rw [inputLoop_succ hlong]
      apply andThen_state
      · exact hsegment
      · intro scan' k' heq hk'
        apply ih hk'
        intro hrest
        exact hfresh ⟨hlong, .inr ⟨scan', k', heq, hrest⟩⟩

theorem inputLoop_refuses (fuel : Nat) (scan : AckScan) (h : refusesFresh fuel k scan buf) :
    exists e k' ack, inputLoop fuel k scan buf = (.error e, k') ∧
      ack ∈ k'.acklist.drop k.acklist.length ∧
      ¬ timediff ack.1 k'.rcvNxt < 0 ∧ ack.1 ∉ sns k'.rcvBuf := by
  induction fuel generalizing k scan buf with
  | zero =>
    cases h
  | succ fuel ih =>
    obtain ⟨hlong, hcases⟩ := h
    rw [inputLoop_succ hlong]
    rcases hcases with hfresh | ⟨scan', k1, heq, hrest⟩
    · obtain ⟨e, k', heq, hacks, hnot⟩ := inputSegment_refuses scan hfresh
      refine ⟨e, k', ((readHeader buf).sn, (readHeader buf).ts), ?_, ?_, hnot⟩
      · rw [heq, andThen_error]
      · rw [hacks, drop_left]
        exact mem_singleton.mpr rfl
    · obtain ⟨e, k', ack, hloop, hack, hnot⟩ := ih scan' hrest
      have hgrown := inputSegment_acklist k scan (readHeader buf) (buf.drop overhead)
      rw [heq] at hgrown
      refine ⟨e, k', ack, ?_, ?_, hnot⟩
      · rw [heq, andThen_ok]
        exact hloop
      · have hle : k.acklist.length ≤ k1.acklist.length := hgrown.length_le
        have hsplit : k1.acklist.length =
            k.acklist.length + (k1.acklist.length - k.acklist.length) := by
          omega
        rw [hsplit, ← drop_drop] at hack
        exact mem_of_mem_drop hack

theorem input_acksHeld_iff (h : Windowed k) (datagram : List Byte) :
    AcksHeld k (k.input datagram).2 ↔ ¬ RefusesFresh k datagram := by
  constructor
  · intro hheld hrefuses
    obtain ⟨e, k', ack, hloop, hack, hbelow, hnot⟩ :=
      inputLoop_refuses datagram.length {} hrefuses
    have hlong : ¬ datagram.length < overhead := by
      intro hshort
      unfold RefusesFresh at hrefuses
      cases hlen : datagram.length with
      | zero =>
        rw [hlen] at hrefuses
        exact hrefuses
      | succ fuel =>
        rw [hlen] at hrefuses
        exact hrefuses.1 hshort
    have hinput : (k.input datagram).2 = k' := by
      unfold input
      rw [if_neg hlong, hloop, andThen_error]
    rw [hinput] at hheld
    exact (hheld ack hack).elim hbelow hnot
  · intro hclean
    have hprogress : Progress k (k.input datagram).2 := by
      unfold input
      split
      · exact Progress.refl h
      · apply andThen_state
        · exact inputLoop_progress datagram.length (Progress.refl h) {} hclean
        · intro scanned k' _ hk'
          exact hk'.same (inputFinish_sameReceive k' scanned.1 k.sndUna)
            (inputFinish_windowed hk'.windowed scanned.1 k.sndUna)
    exact hprogress.acksHeld

/-!
## A condition on the state before the call

The refusal branch is out of reach when every malformed data segment of the
datagram carries a number that was delivered or held before, or one so far ahead
that the window cannot get there during the call.
-/

def headers : Nat -> List Byte -> List SegmentHeader
  | 0, _ => []
  | fuel + 1, buf =>
    if buf.length < overhead then []
    else readHeader buf ::
      headers fuel ((buf.drop overhead).drop (readHeader buf).len)

def Harmless (k : Kcp Output) (hd : SegmentHeader) : Prop :=
  hd.cmd = cmdPush -> Malformed k hd ->
    timediff hd.sn k.rcvNxt < 0 ∨ hd.sn ∈ sns k.rcvBuf ∨
      k.rcvWnd.toNat + (k.rcvWnd.toNat - k.rcvQueue.length) ≤ offset k.rcvNxt hd.sn

instance (k : Kcp Output) (hd : SegmentHeader) : Decidable (Harmless k hd) :=
  inferInstanceAs (Decidable (_ -> _ -> _))

def HarmlessDatagram (k : Kcp Output) (datagram : List Byte) : Prop :=
  forall hd, hd ∈ headers datagram.length datagram -> Harmless k hd

instance (k : Kcp Output) (datagram : List Byte) :
    Decidable (HarmlessDatagram k datagram) :=
  decidableBAll _ _

theorem Progress.not_acksFresh (h : Progress k0 k) (body : List Byte) (hharmless : Harmless k0 hd) :
    ¬ AcksFresh k hd body := by
  rintro ⟨-, -, hpush, hupper, hlower, hbad, hnot⟩
  have hle := h.advance_le
  have hw := toNat_lt_of_u16 k.rcvWnd
  have hinside : offset k.rcvNxt hd.sn < k.rcvWnd.toNat := by
    apply offset_lt_of_window_tests
    · rw [timediff_nonneg]
      rw [timediff_lt_zero] at hupper
      omega
    · rw [timediff_lt_zero]
      rw [timediff_nonneg] at hlower
      omega
  have hbad' : Malformed k0 hd := by
    unfold Malformed
    rw [← h.stream, ← h.mss]
    exact hbad
  rcases hharmless hpush hbad' with hbelow | hheld | hfar
  · rw [timediff_lt_zero] at hbelow
    rw [@offset_rebase k0.rcvNxt _ _ (by omega)] at hinside
    omega
  · rcases h.held hd.sn hheld with hmem | hpassed
    · exact hnot hmem
    · rw [offset_rebase_lt hpassed] at hinside
      omega
  · rw [← h.rcvWnd] at hfar
    rw [@offset_rebase k0.rcvNxt _ _ (by omega)] at hinside
    omega

theorem not_refusesFresh (fuel : Nat) (h : Progress k0 k) (scan : AckScan)
    (hharmless : forall hd, hd ∈ headers fuel buf -> Harmless k0 hd) :
    ¬ refusesFresh fuel k scan buf := by
  induction fuel generalizing k scan buf with
  | zero =>
    exact not_false
  | succ fuel ih =>
    rintro ⟨hlong, hcases⟩
    unfold headers at hharmless
    rw [if_neg hlong] at hharmless
    have hfirst := h.not_acksFresh (buf.drop overhead)
      (hharmless (readHeader buf) (by simp))
    rcases hcases with hfresh | ⟨scan', k', heq, hrest⟩
    · exact hfirst hfresh
    · have hnext := inputSegment_progress h scan hfirst
      rw [heq] at hnext
      exact ih hnext scan' (fun hd hhd => hharmless hd (mem_cons_of_mem _ hhd)) hrest

/-- In every reachable state, a datagram whose malformed data segments are harmless
leaves no acknowledged number behind; and exactly the datagrams that reach the
refusal branch with a number that is not held do leave one behind. -/
theorem driven_acksHeld [Write Output] (conv : UInt32) (output : Output) (stream : Bool)
    (settings : List Setting) (ops : List Op) (datagram : List Byte) :
    (HarmlessDatagram (driven conv output stream settings ops) datagram ->
      AcksHeld (driven conv output stream settings ops)
        ((driven conv output stream settings ops).input datagram).2) ∧
    (AcksHeld (driven conv output stream settings ops)
        ((driven conv output stream settings ops).input datagram).2 ↔
      ¬ RefusesFresh (driven conv output stream settings ops) datagram) := by
  have hwindow : Windowed (driven conv output stream settings ops) :=
    Run.run_preserves apply_windowed ops
      (configured_fresh conv output stream settings).windowed
  have hiff := input_acksHeld_iff hwindow datagram
  refine ⟨?_, hiff⟩
  intro hharmless
  exact hiff.mpr (not_refusesFresh datagram.length (Progress.refl hwindow) {} hharmless)

/-- A repeated segment that claims to be a fragment is harmless: its number was
delivered before. -/
theorem driven_acksHeld_repeat :
    let segment : KcpSegment := { cmd := cmdPush, data := [104, 105] }
    let k := driven 0 ({} : PacketWriter) true [] [.input segment.encode]
    let datagram := ({ segment with frg := 1 } : KcpSegment).encode
    (k.input datagram).2.acklist ≠ k.acklist ∧ HarmlessDatagram k datagram ∧
      AcksHeld k (k.input datagram).2 :=
  ⟨by decide, by decide,
    (driven_acksHeld 0 ({} : PacketWriter) true [] _ _).1 (by decide)⟩

/-- The first segment of a stream, marked as a fragment, is acknowledged and
dropped. -/
theorem fragment_acked_not_held :
    ¬ AcksHeld (driven 0 ({} : PacketWriter) true [] [])
      ((driven 0 ({} : PacketWriter) true [] []).input
        ({ cmd := cmdPush, frg := 1, data := [104, 105] } : KcpSegment).encode).2 := by
  decide

end Kcp
end FrpRs
