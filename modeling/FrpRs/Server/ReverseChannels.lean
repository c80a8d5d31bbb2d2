import FrpRs.Data.Run
import FrpRs.Data.Table

/-!
# Reverse channels of an SSH session

The routing table of `forwarded-tcpip` channels in `frp-server/src/ssh_gateway/session.rs`.  A peer
that ends a channel before its sender is registered leaves a tombstone, a sender whose receiver is
already gone, in the table that holds the live senders.
-/

namespace FrpRs
namespace Server
namespace ReverseChannels

abbrev ChannelId := Nat

/-- The sending half of a channel to a bridge, or of one whose receiver was dropped at once. -/
inductive Sender where
  | bridge (id : Nat)
  | tombstone
deriving DecidableEq

structure Routes where
  dataTx : Table ChannelId Sender
  openInFlight : Bool
  /-- the bridges that dropped their receiver -/
  exited : List Nat
  /-- what the bridges were handed -/
  received : List (Nat × List UInt8)

def maxInFlightTombstones : Nat := 64

namespace Routes

variable (s : Routes)

def isClosed : Sender -> Bool
  | .bridge id => s.exited.contains id
  | .tombstone => true

def tombstoneCount : Nat :=
  s.dataTx.weight fun _ tx => (s.isClosed tx).toNat

def deliver (channel : ChannelId) (data : List UInt8) : Routes :=
  match s.dataTx.lookup channel with
  | some (.bridge id) =>
    if s.isClosed (.bridge id) then s else { s with received := s.received ++ [(id, data)] }
  | _ => s

def beginOpen : Routes :=
  { s with openInFlight := true }

def finishOpen : Routes :=
  { s with openInFlight := false, dataTx := s.dataTx.retain fun _ tx => !s.isClosed tx }

def register (channel : ChannelId) (tx : Sender) : Routes :=
  let dataTx := s.dataTx.insert channel tx
  match s.dataTx.lookup channel with
  | some previous =>
    if s.isClosed previous then { s with dataTx := dataTx.erase channel }
    else { s with dataTx := dataTx }
  | none => { s with dataTx := dataTx }

/-- The first closed entry goes, in the order in which the table is iterated. -/
def evictTombstone (order : List ChannelId) : Routes :=
  match order.find? fun c => (s.dataTx.lookup c).any s.isClosed with
  | some evicted => { s with dataTx := s.dataTx.erase evicted }
  | none => s

def ended (channel : ChannelId) (order : List ChannelId) : Routes × Bool :=
  let removed := { s with dataTx := s.dataTx.erase channel }
  if (s.dataTx.lookup channel).any (!s.isClosed ·) then (removed, true)
  else if s.openInFlight then
    let roomy :=
      if maxInFlightTombstones ≤ removed.tombstoneCount then removed.evictTombstone order
      else removed
    ({ roomy with dataTx := roomy.dataTx.insert channel .tombstone }, true)
  else (removed, false)

def discard (channel : ChannelId) : Routes :=
  { s with dataTx := s.dataTx.erase channel }

/-- The bridge of a sender drops its receiver. -/
def bridgeExit (id : Nat) : Routes :=
  { s with exited := id :: s.exited }

end Routes

/-!
## Sessions

The work-connection task opens one channel after another.  Beside the table, a session remembers
how far the current open is and which channels were registered.
-/

inductive Opening where
  | idle
  | begun
  | registered
deriving DecidableEq

structure Session where
  routes : Routes
  opening : Opening
  registered : List ChannelId

def Session.init : Session :=
  ⟨⟨∅, false, [], []⟩, .idle, []⟩

inductive Op where
  | beginOpen
  | register (channel : ChannelId) (id : Nat)
  | finishOpen
  | ended (channel : ChannelId) (order : List ChannelId)
  | discard (channel : ChannelId)
  | deliver (channel : ChannelId) (data : List UInt8)
  | bridgeExit (id : Nat)
deriving DecidableEq

namespace Session

def step (s : Session) : Op -> Session
  | .beginOpen => { s with routes := s.routes.beginOpen, opening := .begun }
  | .register channel id =>
    ⟨s.routes.register channel (.bridge id), .registered, channel :: s.registered⟩
  | .finishOpen => { s with routes := s.routes.finishOpen, opening := .idle }
  | .ended channel order => { s with routes := (s.routes.ended channel order).1 }
  | .discard channel => { s with routes := s.routes.discard channel }
  | .deliver channel data => { s with routes := s.routes.deliver channel data }
  | .bridgeExit id => { s with routes := s.routes.bridgeExit id }

/-- Opens follow one another, a channel is registered once and discarded only afterwards, and an
end iterates over what the table then holds. -/
def Allowed (s : Session) : Op -> Prop
  | .beginOpen => s.opening = .idle
  | .register channel _ => s.opening = .begun ∧ channel ∉ s.registered
  | .finishOpen => s.opening ≠ .idle
  | .ended channel order => forall c, c ∈ order <-> c ∈ s.routes.dataTx.erase channel
  | .discard channel => channel ∈ s.registered
  | .deliver _ _ => True
  | .bridgeExit _ => True

def run (s : Session) (ops : List Op) : Session :=
  Run.run step s ops

def Legal (s : Session) (ops : List Op) : Prop :=
  Run.Along step Allowed s ops

end Session

/-!
## The entries of a table
-/

namespace Routes

variable {s : Routes}

theorem exists_closed_of_pos (h : 0 < s.tombstoneCount) :
    exists c tx, s.dataTx.lookup c = some tx ∧ s.isClosed tx = true := by
  by_contra hnone
  have hzero : forall n, n ∈ (s.dataTx.entries.map fun e => (s.isClosed e.2).toNat) -> n = 0 := by
    intro n hn
    obtain ⟨e, he, rfl⟩ := List.mem_map.mp hn
    rw [Bool.toNat_eq_zero]
    by_contra hclosed
    exact hnone ⟨e.1, e.2, AList.mem_lookup_iff.mpr he, Bool.of_not_eq_false hclosed⟩
  have hsum := List.sum_eq_zero hzero
  rw [tombstoneCount, Table.weight, hsum] at h
  exact Nat.lt_irrefl 0 h

theorem evictTombstone_spec {order : List ChannelId} (horder : forall c, c ∈ order <-> c ∈ s.dataTx)
    (h : 0 < s.tombstoneCount) :
    exists c tx, s.dataTx.lookup c = some tx ∧ s.isClosed tx = true ∧
      s.evictTombstone order = { s with dataTx := s.dataTx.erase c } := by
  rw [evictTombstone]
  cases hfind : order.find? fun c => (s.dataTx.lookup c).any s.isClosed with
  | none =>
    obtain ⟨c, tx, hlookup, hclosed⟩ := exists_closed_of_pos h
    have hmem : c ∈ order := (horder c).mpr (AList.lookup_isSome.mp (by rw [hlookup]; rfl))
    have hnot := List.find?_eq_none.mp hfind c hmem
    rw [hlookup] at hnot
    exact absurd hclosed hnot
  | some c =>
    have hclosed := List.find?_some hfind
    cases hlookup : s.dataTx.lookup c with
    | none =>
      rw [hlookup] at hclosed
      cases hclosed
    | some tx =>
      rw [hlookup] at hclosed
      exact ⟨c, tx, hlookup, hclosed, rfl⟩

theorem tombstoneCount_erase (s : Routes) (c : ChannelId) :
    s.tombstoneCount = ((s.dataTx.lookup c).map fun tx => (s.isClosed tx).toNat).getD 0 +
      { s with dataTx := s.dataTx.erase c }.tombstoneCount :=
  Table.weight_erase _ _ c

/-- What an end of `channel` does: a live sender goes, or a tombstone takes the place of at most
one closed entry, or nothing but a closed entry of the channel itself goes. -/
theorem ended_cases (s : Routes) (channel : ChannelId) {order : List ChannelId}
    (horder : forall c, c ∈ order <-> c ∈ s.dataTx.erase channel) :
    (exists tx, s.dataTx.lookup channel = some tx ∧ s.isClosed tx = false ∧
      s.ended channel order = ({ s with dataTx := s.dataTx.erase channel }, true)) ∨
    (forall tx, s.dataTx.lookup channel = some tx -> s.isClosed tx = true) ∧
      (s.openInFlight = false ∧
        s.ended channel order = ({ s with dataTx := s.dataTx.erase channel }, false) ∨
      s.openInFlight = true ∧
        ({ s with dataTx := s.dataTx.erase channel }.tombstoneCount < maxInFlightTombstones ∧
          s.ended channel order =
            ({ s with dataTx := (s.dataTx.erase channel).insert channel .tombstone }, true) ∨
        maxInFlightTombstones ≤ { s with dataTx := s.dataTx.erase channel }.tombstoneCount ∧
          exists c tx, (s.dataTx.erase channel).lookup c = some tx ∧ s.isClosed tx = true ∧
            s.ended channel order =
              ({ s with dataTx := ((s.dataTx.erase channel).erase c).insert channel .tombstone },
                true))) := by
  rw [ended]
  by_cases hlive : (s.dataTx.lookup channel).any (!s.isClosed ·) = true
  · left
    rw [if_pos hlive]
    cases hlookup : s.dataTx.lookup channel with
    | none =>
      rw [hlookup] at hlive
      cases hlive
    | some tx =>
      rw [hlookup] at hlive
      exact ⟨tx, rfl, by simpa using hlive, rfl⟩
  · right
    rw [if_neg hlive]
    refine ⟨?_, ?_⟩
    · intro tx hlookup
      rw [hlookup] at hlive
      simpa using hlive
    · cases hflight : s.openInFlight with
      | false => exact .inl ⟨rfl, rfl⟩
      | true =>
        refine .inr ⟨rfl, ?_⟩
        rw [if_pos rfl]
        by_cases hfull : maxInFlightTombstones ≤
            { s with dataTx := s.dataTx.erase channel }.tombstoneCount
        · right
          obtain ⟨c, tx, hlookup, hclosed, hevict⟩ :=
            evictTombstone_spec (s := { s with dataTx := s.dataTx.erase channel }) horder
              (Nat.lt_of_lt_of_le (by decide) hfull)
          refine ⟨hfull, c, tx, hlookup, hclosed, ?_⟩
          simp only [hflight] at hfull hevict
          rw [if_pos hfull, hevict]
        · left
          refine ⟨Nat.lt_of_not_le hfull, ?_⟩
          simp only [hflight] at hfull
          rw [if_neg hfull]

end Routes

/-!
## One step
-/

namespace Session

variable {s : Session}

/-- What holds between the operations of a session. -/
structure Inv (s : Session) : Prop where
  inFlight : s.routes.openInFlight = true <-> s.opening ≠ .idle
  known : forall c id, s.routes.dataTx.lookup c = some (.bridge id) -> c ∈ s.registered

theorem lookup_register (s : Routes) (channel : ChannelId) (tx : Sender) (c : ChannelId) :
    (s.register channel tx).dataTx.lookup c =
      if c = channel then
        (if (s.dataTx.lookup channel).any s.isClosed then none else some tx)
      else s.dataTx.lookup c := by
  rw [Routes.register]
  cases hlookup : s.dataTx.lookup channel with
  | none => simp [Table.lookup_insert_eq]
  | some previous =>
    cases hclosed : s.isClosed previous with
    | true =>
      simp only [hclosed, if_true, Table.lookup_erase_eq, Table.lookup_insert_eq, Option.any_some]
      split_ifs <;> rfl
    | false => simp [hclosed, Table.lookup_insert_eq]

theorem lookup_finishOpen (s : Routes) (c : ChannelId) :
    s.finishOpen.dataTx.lookup c = (s.dataTx.lookup c).filter (!s.isClosed ·) :=
  Table.lookup_retain _ _ c

theorem deliver_dataTx (s : Routes) (channel : ChannelId) (data : List UInt8) :
    (s.deliver channel data).dataTx = s.dataTx ∧
      (s.deliver channel data).openInFlight = s.openInFlight := by
  rw [Routes.deliver]
  split
  · split_ifs <;> exact ⟨rfl, rfl⟩
  · exact ⟨rfl, rfl⟩

variable {c : ChannelId} {order : List ChannelId}

/-- An end never adds a sender of a bridge. -/
theorem lookup_bridge_of_ended {s : Routes} {channel : ChannelId}
    (horder : forall c, c ∈ order <-> c ∈ s.dataTx.erase channel) {id : Nat}
    (h : (s.ended channel order).1.dataTx.lookup c = some (.bridge id)) :
    s.dataTx.lookup c = some (.bridge id) := by
  have hkept {t : Table ChannelId Sender} {k : ChannelId}
      (h : (t.erase k).lookup c = some (.bridge id)) : t.lookup c = some (.bridge id) := by
    rw [Table.lookup_erase_eq] at h
    split_ifs at h
    exact h
  have hother {t : Table ChannelId Sender}
      (h : (t.insert channel .tombstone).lookup c = some (.bridge id)) :
      t.lookup c = some (.bridge id) := by
    rw [Table.lookup_insert_eq] at h
    split_ifs at h
    · cases h
    · exact h
  rcases Routes.ended_cases s channel horder with
    ⟨tx, -, -, heq⟩ | ⟨-, ⟨-, heq⟩ | ⟨-, ⟨-, heq⟩ | ⟨-, c', tx, -, -, heq⟩⟩⟩
  · rw [heq] at h
    exact hkept h
  · rw [heq] at h
    exact hkept h
  · rw [heq] at h
    exact hkept (hother h)
  · rw [heq] at h
    exact hkept (hkept (hother h))

theorem openInFlight_ended (s : Routes) (channel : ChannelId) (order : List ChannelId) :
    (s.ended channel order).1.openInFlight = s.openInFlight := by
  rw [Routes.ended]
  split_ifs
  · rfl
  · rw [Routes.evictTombstone]
    split <;> rfl
  · rfl
  · rfl

theorem Inv.step {op : Op} (h : s.Inv) (hop : s.Allowed op) : (s.step op).Inv := by
  obtain ⟨hflight, hknown⟩ := h
  cases op with
  | beginOpen => exact ⟨by simp [Session.step, Routes.beginOpen], hknown⟩
  | register channel id =>
    refine ⟨?_, ?_⟩
    · have hopen : (s.routes.register channel (.bridge id)).openInFlight = s.routes.openInFlight := by
        rw [Routes.register]
        split
        · split_ifs <;> rfl
        · rfl
      rw [Session.step, hopen, hflight, hop.1]
      simp
    · intro c id' hlookup
      rw [Session.step, lookup_register] at hlookup
      split_ifs at hlookup with hc
      · exact hc ▸ List.mem_cons_self
      · exact List.mem_cons_of_mem _ (hknown c id' hlookup)
  | finishOpen =>
    refine ⟨by simp [Session.step, Routes.finishOpen], ?_⟩
    intro c id hlookup
    rw [Session.step, lookup_finishOpen] at hlookup
    exact hknown c id (Option.eq_some_of_filter_eq_some hlookup)
  | ended channel order =>
    refine ⟨?_, ?_⟩
    · rw [Session.step, openInFlight_ended]
      exact hflight
    · intro c id hlookup
      exact hknown c id (lookup_bridge_of_ended hop hlookup)
  | discard channel =>
    refine ⟨hflight, ?_⟩
    intro c id hlookup
    rw [Session.step, Routes.discard, Table.lookup_erase_eq] at hlookup
    split_ifs at hlookup
    exact hknown c id hlookup
  | deliver channel data =>
    obtain ⟨hdata, hopen⟩ := deliver_dataTx s.routes channel data
    refine ⟨?_, ?_⟩
    · rw [Session.step, hopen]
      exact hflight
    · intro c id hlookup
      rw [Session.step, hdata] at hlookup
      exact hknown c id hlookup
  | bridgeExit id => exact ⟨hflight, hknown⟩

theorem inv_run {ops : List Op} (h : Legal init ops) : (run init ops).Inv :=
  Run.run_invariant (fun _ _ => Inv.step) ⟨by decide, by simp [init]⟩ h

/-!
## Senders and tombstones
-/

theorem live_kept {op : Op} (h : s.Inv) (hop : s.Allowed op) {tx : Sender}
    (hlookup : s.routes.dataTx.lookup c = some tx) (hlive : s.routes.isClosed tx = false) :
    (s.step op).routes.dataTx.lookup c = some tx ∨ op = .discard c ∨
      exists order, op = .ended c order := by
  have hknown : c ∈ s.registered := by
    cases tx with
    | bridge id => exact h.known c id hlookup
    | tombstone => cases hlive
  cases op with
  | beginOpen => exact .inl hlookup
  | register channel id =>
    have hne : c ≠ channel := by
      rintro rfl
      exact hop.2 hknown
    left
    rw [Session.step, lookup_register, if_neg hne, hlookup]
  | finishOpen =>
    left
    rw [Session.step, lookup_finishOpen, hlookup, Option.filter_some, hlive]
    rfl
  | ended channel order =>
    rcases eq_or_ne c channel with rfl | hne
    · exact .inr (.inr ⟨order, rfl⟩)
    · left
      rw [Session.step]
      rcases Routes.ended_cases s.routes channel hop with
        ⟨tx', -, -, heq⟩ | ⟨-, ⟨-, heq⟩ | ⟨-, ⟨-, heq⟩ | ⟨-, c', tx', hevicted, hclosed, heq⟩⟩⟩
      · rw [heq, Table.lookup_erase_eq, if_neg hne, hlookup]
      · rw [heq, Table.lookup_erase_eq, if_neg hne, hlookup]
      · rw [heq, Table.lookup_insert_eq, if_neg hne, Table.lookup_erase_eq, if_neg hne, hlookup]
      · have hne' : c ≠ c' := by
          rintro rfl
          rw [Table.lookup_erase_eq, if_neg hne, hlookup] at hevicted
          cases hevicted
          rw [hlive] at hclosed
          cases hclosed
        rw [heq, Table.lookup_insert_eq, if_neg hne, Table.lookup_erase_eq, if_neg hne',
          Table.lookup_erase_eq, if_neg hne, hlookup]
  | discard channel =>
    rcases eq_or_ne c channel with rfl | hne
    · exact .inr (.inl rfl)
    · left
      rw [Session.step, Routes.discard, Table.lookup_erase_eq, if_neg hne, hlookup]
  | deliver channel data =>
    left
    rw [Session.step, (deliver_dataTx _ _ _).1, hlookup]
  | bridgeExit id => exact .inl hlookup

theorem tombstoneCount_ended {channel : ChannelId} (hop : s.Allowed (.ended channel order)) :
    (s.step (.ended channel order)).routes.tombstoneCount ≤
      max maxInFlightTombstones s.routes.tombstoneCount := by
  obtain ⟨f, hf⟩ : exists f, f = fun (_ : ChannelId) tx => (s.routes.isClosed tx).toNat := ⟨_, rfl⟩
  have hcount (t : Table ChannelId Sender) :
      { s.routes with dataTx := t }.tombstoneCount = t.weight f := by
    rw [hf]
    rfl
  have hone : f channel .tombstone = 1 := by
    rw [hf]
    rfl
  have hbefore : s.routes.tombstoneCount = s.routes.dataTx.weight f := hcount _
  have herase := Table.weight_erase f s.routes.dataTx channel
  simp only [Session.step]
  rcases Routes.ended_cases s.routes channel hop with
    ⟨tx, -, -, heq⟩ | ⟨-, ⟨-, heq⟩ | ⟨-, ⟨hfew, heq⟩ | ⟨-, c, tx, hlookup, hclosed, heq⟩⟩⟩
  · rw [heq, hcount]
    omega
  · rw [heq, hcount]
    omega
  · have hagain := Table.weight_erase f (s.routes.dataTx.erase channel) channel
    rw [hcount] at hfew
    rw [heq, hcount, Table.weight_insert, hone]
    omega
  · have hevict := Table.weight_erase f (s.routes.dataTx.erase channel) c
    have hagain := Table.weight_erase f ((s.routes.dataTx.erase channel).erase c) channel
    have hc : f c tx = 1 := by
      simp [hf, hclosed]
    rw [hlookup, Option.map_some, Option.getD_some, hc] at hevict
    rw [heq, hcount, Table.weight_insert, hone]
    omega

/-- The table holds a closed sender of the channel. -/
def Ended (c : ChannelId) (s : Session) : Prop :=
  exists tx, s.routes.dataTx.lookup c = some tx ∧ s.routes.isClosed tx = true

theorem Ended.of_ended (h : s.Inv) (hop : s.Allowed (.ended c order)) (hopening : s.opening ≠ .idle)
    (hc : c ∉ s.registered) :
    Ended c (s.step (.ended c order)) := by
  refine ⟨.tombstone, ?_, rfl⟩
  rw [Session.step]
  rcases Routes.ended_cases s.routes c hop with
    ⟨tx, hlookup, hlive, -⟩ | ⟨-, ⟨hidle, -⟩ | ⟨-, ⟨-, heq⟩ | ⟨-, c', tx', -, -, heq⟩⟩⟩
  · cases tx with
    | bridge id => exact absurd (h.known c id hlookup) hc
    | tombstone => cases hlive
  · rw [h.inFlight.mpr hopening] at hidle
    cases hidle
  · rw [heq, Table.lookup_insert_eq, if_pos rfl]
  · rw [heq, Table.lookup_insert_eq, if_pos rfl]

theorem Ended.step {op : Op} (h : Ended c s) (hinv : s.Inv) (hop : s.Allowed op)
    (hopening : s.opening ≠ .idle) (hc : c ∉ (s.step op).registered) (hfinish : op ≠ .finishOpen)
    (hfew : s.routes.tombstoneCount < maxInFlightTombstones) : Ended c (s.step op) := by
  obtain ⟨tx, hlookup, hclosed⟩ := h
  cases op with
  | beginOpen => exact ⟨tx, hlookup, hclosed⟩
  | register channel id =>
    have hne : c ≠ channel := by
      rintro rfl
      exact hc List.mem_cons_self
    refine ⟨tx, ?_, ?_⟩
    · rw [Session.step, lookup_register, if_neg hne, hlookup]
    · rw [Session.step, Routes.register]
      split
      · split_ifs <;> exact hclosed
      · exact hclosed
  | finishOpen => exact absurd rfl hfinish
  | ended channel order =>
    rcases eq_or_ne c channel with rfl | hne
    · exact Ended.of_ended hinv hop hopening hc
    · refine ⟨tx, ?_, ?_⟩
      · have herase := Routes.tombstoneCount_erase s.routes channel
        rw [Session.step]
        rcases Routes.ended_cases s.routes channel hop with
          ⟨tx', -, -, heq⟩ | ⟨-, ⟨-, heq⟩ | ⟨-, ⟨-, heq⟩ | ⟨hfull, -⟩⟩⟩
        · rw [heq, Table.lookup_erase_eq, if_neg hne, hlookup]
        · rw [heq, Table.lookup_erase_eq, if_neg hne, hlookup]
        · rw [heq, Table.lookup_insert_eq, if_neg hne, Table.lookup_erase_eq, if_neg hne, hlookup]
        · omega
      · rw [Session.step]
        rcases Routes.ended_cases s.routes channel hop with
          ⟨tx', -, -, heq⟩ | ⟨-, ⟨-, heq⟩ | ⟨-, ⟨-, heq⟩ | ⟨-, c', tx', -, -, heq⟩⟩⟩ <;>
          · rw [heq]
            exact hclosed
  | discard channel =>
    have hne : c ≠ channel := by
      rintro rfl
      exact hc hop
    refine ⟨tx, ?_, hclosed⟩
    rw [Session.step, Routes.discard, Table.lookup_erase_eq, if_neg hne, hlookup]
  | deliver channel data =>
    refine ⟨tx, ?_, ?_⟩
    · rw [Session.step, (deliver_dataTx _ _ _).1, hlookup]
    · rw [Session.step, Routes.deliver]
      split
      · split_ifs <;> exact hclosed
      · exact hclosed
  | bridgeExit id =>
    refine ⟨tx, hlookup, ?_⟩
    cases tx with
    | bridge id' =>
      have hmem : id' ∈ s.routes.exited := List.contains_iff_mem.mp hclosed
      exact List.contains_iff_mem.mpr (List.mem_cons_of_mem id hmem)
    | tombstone => rfl

/-!
## Windows
-/

theorem registered_step (s : Session) (op : Op) : s.registered ⊆ (s.step op).registered := by
  cases op with
  | register channel id => exact List.subset_cons_self _ _
  | beginOpen => exact List.Subset.refl _
  | finishOpen => exact List.Subset.refl _
  | ended channel order => exact List.Subset.refl _
  | discard channel => exact List.Subset.refl _
  | deliver channel data => exact List.Subset.refl _
  | bridgeExit id => exact List.Subset.refl _

theorem registered_run (s : Session) (ops : List Op) : s.registered ⊆ (run s ops).registered := by
  induction ops generalizing s with
  | nil => exact List.Subset.refl _
  | cons op ops ih => exact List.Subset.trans (registered_step s op) (ih (s.step op))

theorem opening_step {op : Op} (h : s.opening ≠ .idle) (hfinish : op ≠ .finishOpen) :
    (s.step op).opening ≠ .idle := by
  cases op with
  | register channel id => simp [Session.step]
  | beginOpen => simp [Session.step]
  | finishOpen => exact absurd rfl hfinish
  | ended channel order => exact h
  | discard channel => exact h
  | deliver channel data => exact h
  | bridgeExit id => exact h

/-- An end of the channel is still in the table when the window closes. -/
theorem ended_run {c : ChannelId} {ops : List Op} (hinv : s.Inv) (hopening : s.opening ≠ .idle)
    (hlegal : Legal s ops) (hfinish : .finishOpen ∉ ops) (hc : c ∉ (run s ops).registered)
    (hfew : forall pre, pre <+: ops -> (run s pre).routes.tombstoneCount < maxInFlightTombstones)
    (h : Ended c s ∨ exists order, .ended c order ∈ ops) : Ended c (run s ops) := by
  induction ops generalizing s with
  | nil => exact h.resolve_right (by simp)
  | cons op ops ih =>
    obtain ⟨hop, hrest⟩ := hlegal
    rw [List.mem_cons, not_or] at hfinish
    have hc' : c ∉ (s.step op).registered := fun hmem => hc (registered_run _ ops hmem)
    apply ih (hinv.step hop) (opening_step hopening (Ne.symm hfinish.1)) hrest hfinish.2 hc
    · intro pre hpre
      exact hfew (op :: pre) ((List.prefix_cons_inj op).mpr hpre)
    · rcases h with hended | ⟨order, hmem⟩
      · exact .inl (hended.step hinv hop hopening hc' (Ne.symm hfinish.1)
          (hfew [] List.nil_prefix))
      · rcases List.mem_cons.mp hmem with rfl | hmem
        · exact .inl (Ended.of_ended hinv hop hopening fun hmem => hc' (registered_step s _ hmem))
        · exact .inr ⟨order, hmem⟩

theorem register_after_end {mid : List Op} {id : Nat} (hinv : s.Inv)
    (hlegal : Legal s (.beginOpen :: (mid ++ [.register c id]))) (hfinish : .finishOpen ∉ mid)
    (hend : exists order, .ended c order ∈ mid)
    (hfew : forall pre, pre <+: mid ->
      (run s (.beginOpen :: pre)).routes.tombstoneCount < maxInFlightTombstones) :
    (run s (.beginOpen :: (mid ++ [.register c id]))).routes.dataTx.lookup c = none := by
  obtain ⟨hbegin, hlegal⟩ := hlegal
  obtain ⟨hmid, hregister, -⟩ := Run.along_append.mp hlegal
  have hended : Ended c (run (s.step .beginOpen) mid) :=
    ended_run (hinv.step hbegin) (by simp [Session.step]) hmid hfinish hregister.2 hfew
      (.inr hend)
  obtain ⟨tx, hlookup, hclosed⟩ := hended
  have hrun : (run s (.beginOpen :: (mid ++ [.register c id]))).routes =
      (run (s.step .beginOpen) mid).routes.register c (.bridge id) := by
    exact congrArg Session.routes (Run.run_append _ _ mid _)
  rw [hrun, lookup_register, if_pos rfl, hlookup, Option.any_some, if_pos hclosed]

end Session

open Session

theorem reverseChannels_safe {ops : List Op} (h : Legal init ops) :
    (forall mid c id, Legal (run init ops) (.beginOpen :: (mid ++ [.register c id])) ->
      Op.finishOpen ∉ mid -> (exists order, Op.ended c order ∈ mid) ->
      (forall pre, pre <+: mid -> (run (run init ops) (.beginOpen :: pre)).routes.tombstoneCount <
        maxInFlightTombstones) ->
      (run (run init ops) (.beginOpen :: (mid ++ [.register c id]))).routes.dataTx.lookup c =
        none) ∧
    (forall op c tx, (run init ops).Allowed op ->
      (run init ops).routes.dataTx.lookup c = some tx ->
      (run init ops).routes.isClosed tx = false ->
      ((run init ops).step op).routes.dataTx.lookup c = some tx ∨ op = .discard c ∨
        exists order, op = .ended c order) ∧
    (forall c order, (run init ops).opening ≠ .idle -> (run init ops).Allowed (.ended c order) ->
      ((run init ops).step (.ended c order)).routes.tombstoneCount ≤
        max maxInFlightTombstones (run init ops).routes.tombstoneCount) ∧
    ((run init ops).Allowed .finishOpen -> forall c tx,
      ((run init ops).step .finishOpen).routes.dataTx.lookup c = some tx ->
      ((run init ops).step .finishOpen).routes.isClosed tx = false) := by
  refine ⟨?_, ?_, ?_, ?_⟩
  · intro mid c id hlegal hfinish hend hfew
    exact register_after_end (inv_run h) hlegal hfinish hend hfew
  · intro op c tx hop hlookup hlive
    exact live_kept (inv_run h) hop hlookup hlive
  · intro c order _ hop
    exact tombstoneCount_ended hop
  · intro _ c tx hlookup
    rw [Session.step, lookup_finishOpen] at hlookup
    obtain ⟨-, hopen⟩ := Option.filter_eq_some_iff.mp hlookup
    exact Bool.not_eq_true' _ ▸ hopen

/-- The peer of channel 7 is gone before the channel is registered. -/
theorem reverseChannels_safe_early_end :
    (run (run init []) [.beginOpen, .ended 7 [], .register 7 0]).routes.dataTx.lookup 7 = none := by
  refine (@reverseChannels_safe [] trivial).1 [.ended 7 []] 7 0 ?_ (by decide)
    ⟨[], List.mem_singleton.mpr rfl⟩ ?_
  · exact ⟨rfl, fun c => Iff.rfl, ⟨rfl, by decide⟩, trivial⟩
  · intro pre hpre
    rcases List.prefix_cons_iff.mp hpre with rfl | ⟨rest, rfl, hrest⟩
    · decide
    · rw [List.prefix_nil.mp hrest]
      decide

end ReverseChannels
end Server
end FrpRs
