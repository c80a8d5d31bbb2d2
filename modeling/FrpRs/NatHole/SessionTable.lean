import FrpRs.Data.Run
import FrpRs.Data.Table
import FrpRs.Data.Weight

/-!
# The sharded session table

`SessionTable` of `frp-server/src/nathole/controller.rs`: sixteen independently
locked maps and one atomic counter that reserves slots against a global cap.  A slot
is reserved before the shard lock is awaited; an insert that lands consumes its
reservation, one that replaces an entry or is cancelled gives it back, and a removal
counts down after the entry has left its shard.  All these are separate steps, and the
steps of different calls interleave in any order.
-/

namespace FrpRs
namespace NatHole

open List Weight

variable {S : Type}

def maxSessions : Nat := 256

def sessionShards : Nat := 16

structure SessionTable (S : Type) where
  shards : List (Table String S)
  length_eq : shards.length = sessionShards
  total : Nat

namespace SessionTable

def new : SessionTable S where
  shards := replicate sessionShards ∅
  length_eq := length_replicate
  total := 0

def entries (t : SessionTable S) : Nat :=
  weight Table.size t.shards

/-!
## Atomic actions
-/

/-- `fetch_update`: takes a slot unless the table is at its cap. -/
def reserve (t : SessionTable S) : Option (SessionTable S) :=
  if t.total < maxSessions then some { t with total := t.total + 1 } else none

/-- `fetch_sub(1)` on a 64-bit counter, which wraps. -/
def release (t : SessionTable S) : SessionTable S :=
  { t with total := if t.total = 0 then 2 ^ 64 - 1 else t.total - 1 }

section Shards

variable (hash : String -> Nat)

def shardIndex (sid : String) : Nat :=
  hash sid % sessionShards

def shard (t : SessionTable S) (sid : String) : Table String S :=
  t.shards.getD (shardIndex hash sid) ∅

def setShard (t : SessionTable S) (sid : String) (entries : Table String S) :
    SessionTable S where
  shards := t.shards.set (shardIndex hash sid) entries
  length_eq := length_set.trans t.length_eq
  total := t.total

def get (t : SessionTable S) (sid : String) : Option S :=
  (t.shard hash sid).lookup sid

/-- The map insert under the shard's write lock; the flag says that an entry was
replaced. -/
def put (t : SessionTable S) (sid : String) (session : S) : Bool × SessionTable S :=
  ((t.get hash sid).isSome, t.setShard hash sid ((t.shard hash sid).insert sid session))

def takeOut (t : SessionTable S) (sid : String) : Option S × SessionTable S :=
  (t.get hash sid, t.setShard hash sid ((t.shard hash sid).erase sid))

end Shards

end SessionTable

/-!
## Calls in flight
-/

/-- Where a call stands between two of its steps. -/
inductive Call (S : Type) where
  /-- An insert that holds a reservation and waits for its shard lock. -/
  | waiting (sid : String) (session : S)
  /-- An insert whose entry is in its shard and whose reservation is not dropped yet. -/
  | landed (replaced : Bool)
  /-- A removal that has taken its entry out and has not counted down yet. -/
  | taken
  | finished

structure Calls (S : Type) where
  table : SessionTable S
  calls : List (Call S)

inductive CallStep (S : Type) where
  | insert (sid : String) (session : S)
  | land (call : Nat)
  | dropSlot (call : Nat)
  | cancel (call : Nat)
  | remove (sid : String)
  | countDown (call : Nat)

namespace Calls

def new : Calls S where
  table := SessionTable.new
  calls := []

def advance (s : Calls S) (call : Nat) (next : Call S) (table : SessionTable S) : Calls S where
  table := table
  calls := s.calls.set call next

/-- One step of one call; a step that its call cannot take changes nothing. -/
def step (hash : String -> Nat) (s : Calls S) : CallStep S -> Calls S
  | .insert sid session =>
    match s.table.reserve with
    | none => s
    | some table => { table := table, calls := s.calls ++ [.waiting sid session] }
  | .land call =>
    match s.calls[call]? with
    | some (.waiting sid session) =>
      let put := s.table.put hash sid session
      s.advance call (.landed put.1) put.2
    | _ => s
  | .dropSlot call =>
    match s.calls[call]? with
    | some (.landed replaced) =>
      s.advance call .finished (if replaced then s.table.release else s.table)
    | _ => s
  | .cancel call =>
    match s.calls[call]? with
    | some (.waiting _ _) => s.advance call .finished s.table.release
    | _ => s
  | .remove sid =>
    let taken := s.table.takeOut hash sid
    match taken.1 with
    | none => { s with table := taken.2 }
    | some _ => { table := taken.2, calls := s.calls ++ [.taken] }
  | .countDown call =>
    match s.calls[call]? with
    | some .taken => s.advance call .finished s.table.release
    | _ => s

/-- The step counts the total down. -/
def releases (s : Calls S) : CallStep S -> Bool
  | .dropSlot call =>
    match s.calls[call]? with
    | some (.landed replaced) => replaced
    | _ => false
  | .cancel call =>
    match s.calls[call]? with
    | some (.waiting _ _) => true
    | _ => false
  | .countDown call =>
    match s.calls[call]? with
    | some .taken => true
    | _ => false
  | _ => false

end Calls

def Call.reservation : Call S -> Nat
  | .waiting _ _ => 1
  | .landed true => 1
  | _ => 0

def Call.pending : Call S -> Nat
  | .taken => 1
  | _ => 0

def Calls.reservations (s : Calls S) : Nat := weight Call.reservation s.calls

def Calls.pendings (s : Calls S) : Nat := weight Call.pending s.calls

/-!
## Shards
-/

namespace SessionTable

variable (hash : String -> Nat)

variable (t : SessionTable S)

theorem shards_get (sid : String) :
    t.shards[shardIndex hash sid]? = some (t.shard hash sid) := by
  have hlt : shardIndex hash sid < t.shards.length := by
    rw [t.length_eq]
    exact Nat.mod_lt _ (by decide)
  rw [shard, getD_eq_getElem?_getD, List.getElem?_eq_getElem hlt]
  rfl

theorem entries_new : (new : SessionTable S).entries = 0 := by
  rw [entries, new, weight_replicate]
  rfl

theorem entries_setShard (sid : String) (entries : Table String S) :
    (t.setShard hash sid entries).entries + (t.shard hash sid).size
      = t.entries + entries.size :=
  weight_set Table.size entries (t.shards_get hash sid)

theorem entries_put (sid : String) (session : S) :
    (t.put hash sid session).2.entries + (Call.landed (S := S) (t.put hash sid session).1).reservation
      = t.entries + 1 := by
  have hset := t.entries_setShard hash sid ((t.shard hash sid).insert sid session)
  rw [Table.size_insert] at hset
  cases hget : (t.shard hash sid).lookup sid with
  | none =>
    rw [Table.size_erase_of_none hget] at hset
    have hput : (t.put hash sid session).1 = false := by
      simp [put, get, hget]
    rw [hput]
    simp only [put, Call.reservation]
    omega
  | some old =>
    have hsize := Table.size_erase_of_some hget
    have hput : (t.put hash sid session).1 = true := by
      simp [put, get, hget]
    rw [hput]
    simp only [put, Call.reservation]
    omega

theorem entries_takeOut_none {t : SessionTable S} {sid : String}
    (h : t.get hash sid = none) : (t.takeOut hash sid).2.entries = t.entries := by
  have hset := t.entries_setShard hash sid ((t.shard hash sid).erase sid)
  rw [Table.size_erase_of_none h] at hset
  exact Nat.add_right_cancel hset

theorem entries_takeOut_some {t : SessionTable S} {sid : String} {session : S}
    (h : t.get hash sid = some session) :
    (t.takeOut hash sid).2.entries + 1 = t.entries := by
  have hset := t.entries_setShard hash sid ((t.shard hash sid).erase sid)
  have hsize := Table.size_erase_of_some h
  simp only [takeOut]
  omega

theorem shard_setShard (sid a : String) (entries : Table String S) :
    (t.setShard hash sid entries).shard hash a =
      if shardIndex hash a = shardIndex hash sid then entries else t.shard hash a := by
  have hget := (t.setShard hash sid entries).shards_get hash a
  have hlt : shardIndex hash sid < t.shards.length := (List.getElem?_eq_some_iff.mp
    (t.shards_get hash sid)).1
  rw [setShard, List.getElem?_set] at hget
  split
  · rename_i hsame
    rw [if_pos hsame.symm, if_pos hlt] at hget
    exact (Option.some.inj hget).symm
  · rename_i hother
    rw [if_neg (Ne.symm hother), t.shards_get hash a] at hget
    exact (Option.some.inj hget).symm

theorem get_put (sid a : String) (session : S) :
    (t.put hash sid session).2.get hash a = if a = sid then some session else t.get hash a := by
  rw [get, put, shard_setShard]
  split
  · rename_i hshard
    rw [Table.lookup_insert_eq, shard, ← hshard]
    rfl
  · rename_i hshard
    have hne : a ≠ sid := by
      intro hsame
      exact hshard (congrArg (shardIndex hash) hsame)
    rw [if_neg hne]
    rfl

theorem get_takeOut (sid a : String) :
    (t.takeOut hash sid).2.get hash a = if a = sid then none else t.get hash a := by
  rw [get, takeOut, shard_setShard]
  split
  · rename_i hshard
    rw [Table.lookup_erase_eq, shard, ← hshard]
    rfl
  · rename_i hshard
    have hne : a ≠ sid := by
      intro hsame
      exact hshard (congrArg (shardIndex hash) hsame)
    rw [if_neg hne]
    rfl

theorem get_congr {t u : SessionTable S} (h : t.shards = u.shards) (sid : String) :
    t.get hash sid = u.get hash sid := by
  rw [get, get, shard, shard, h]

theorem shards_reserve : (t.reserve.getD t).shards = t.shards := by
  rw [reserve]
  split
  · rfl
  · rfl

theorem reserve_eq_some {t reserved : SessionTable S} (h : t.reserve = some reserved) :
    t.total < maxSessions ∧ reserved.total = t.total + 1 ∧ reserved.entries = t.entries := by
  rw [reserve] at h
  split at h
  · rename_i hroom
    cases h
    exact ⟨hroom, rfl, rfl⟩
  · cases h

theorem entries_release : t.release.entries = t.entries := rfl

theorem release_total {t : SessionTable S} (hpos : 0 < t.total) :
    t.release.total + 1 = t.total := by
  rw [release, if_neg (Nat.ne_of_gt hpos)]
  exact Nat.sub_add_cancel hpos

end SessionTable

/-!
## The counter over every interleaving
-/

namespace Calls

def counted (s : Calls S) : Nat :=
  s.table.entries + s.reservations + s.pendings

structure Balanced (s : Calls S) : Prop where
  total_eq : s.table.total = s.counted
  total_le : s.table.total ≤ maxSessions

theorem new_balanced : (new : Calls S).Balanced := by
  constructor
  · rw [counted, new, SessionTable.entries_new]
    rfl
  · exact Nat.zero_le _

variable {s : Calls S}

theorem advance_counted {call : Nat} {before : Call S} (next : Call S) (table : SessionTable S)
    (h : s.calls[call]? = some before) :
    (s.advance call next table).counted
        + (s.table.entries + before.reservation + before.pending)
      = s.counted + (table.entries + next.reservation + next.pending) := by
  have hreservations := weight_set Call.reservation next h
  have hpendings := weight_set Call.pending next h
  simp only [counted, reservations, pendings, advance]
  omega

theorem start_counted (s : Calls S) (table : SessionTable S) (next : Call S) :
    counted { table := table, calls := s.calls ++ [next] } + s.table.entries
      = s.counted + (table.entries + next.reservation + next.pending) := by
  simp only [counted, reservations, pendings, weight_append, weight_cons, weight_nil]
  omega

theorem Balanced.total_pos (hs : s.Balanced) {call : Nat} {c : Call S} (h : s.calls[call]? = some c)
    (hc : 0 < c.reservation + c.pending) : 0 < s.table.total := by
  have hreservation := weight_get_le Call.reservation h
  have hpending := weight_get_le Call.pending h
  rw [hs.total_eq, counted, reservations, pendings]
  omega

theorem Balanced.release (hs : s.Balanced) {call : Nat} {c : Call S} (h : s.calls[call]? = some c)
    (hc : c.reservation + c.pending = 1) :
    (s.advance call .finished s.table.release).Balanced := by
  have hpos := hs.total_pos h (by omega)
  have hreleased := SessionTable.release_total hpos
  have hcounted := advance_counted .finished s.table.release h
  have hentries := s.table.entries_release
  have hfinished : (Call.finished (S := S)).reservation + Call.finished (S := S).pending = 0 := rfl
  have htotal := hs.total_eq
  have hle := hs.total_le
  constructor
  · show s.table.release.total = _
    omega
  · show s.table.release.total ≤ _
    omega

theorem releases_total_pos (hs : s.Balanced) {e : CallStep S} (h : s.releases e = true) :
    0 < s.table.total := by
  cases e with
  | insert sid session =>
    cases h
  | land call =>
    cases h
  | remove sid =>
    cases h
  | dropSlot call =>
    simp only [releases] at h
    split at h
    · rename_i replaced hcall
      rw [h] at hcall
      exact hs.total_pos hcall Nat.one_pos
    · cases h
  | cancel call =>
    simp only [releases] at h
    split at h
    · rename_i hcall
      exact hs.total_pos hcall Nat.one_pos
    · cases h
  | countDown call =>
    simp only [releases] at h
    split at h
    · rename_i hcall
      exact hs.total_pos hcall Nat.one_pos
    · cases h

theorem step_insert_balanced (hash : String -> Nat) (hs : s.Balanced) (sid : String) (session : S) :
    (s.step hash (.insert sid session)).Balanced := by
  simp only [step]
  split
  · exact hs
  · rename_i table hreserve
    obtain ⟨hroom, htotal, hentries⟩ := SessionTable.reserve_eq_some hreserve
    have hcounted := start_counted s table (.waiting sid session)
    have hwaiting :
        (Call.waiting sid session).reservation + (Call.waiting sid session).pending = 1 := rfl
    have hbefore := hs.total_eq
    constructor
    · show table.total = _
      omega
    · show table.total ≤ _
      omega

theorem step_land_balanced (hash : String -> Nat) (hs : s.Balanced) (call : Nat) :
    (s.step hash (.land call)).Balanced := by
  simp only [step]
  split
  · rename_i sid session hcall
    have hput := s.table.entries_put hash sid session
    have hcounted := advance_counted (.landed (s.table.put hash sid session).1)
      (s.table.put hash sid session).2 hcall
    have hwaiting :
        (Call.waiting sid session).reservation + (Call.waiting sid session).pending = 1 := rfl
    have hlanded : (Call.landed (S := S) (s.table.put hash sid session).1).pending = 0 := rfl
    have htotal := hs.total_eq
    constructor
    · show s.table.total = _
      omega
    · exact hs.total_le
  · exact hs

theorem step_dropSlot_balanced (hash : String -> Nat) (hs : s.Balanced) (call : Nat) :
    (s.step hash (.dropSlot call)).Balanced := by
  simp only [step]
  split
  · rename_i replaced hcall
    cases replaced with
    | true =>
      exact hs.release hcall rfl
    | false =>
      have hcounted := advance_counted .finished s.table hcall
      have hsame : (s.advance call .finished s.table).counted = s.counted :=
        Nat.add_right_cancel hcounted
      constructor
      · exact hs.total_eq.trans hsame.symm
      · exact hs.total_le
  · exact hs

theorem step_remove_balanced (hash : String -> Nat) (hs : s.Balanced) (sid : String) :
    (s.step hash (.remove sid)).Balanced := by
  have htotal := hs.total_eq
  simp only [step]
  split
  · rename_i hget
    have hentries := SessionTable.entries_takeOut_none hash hget
    constructor
    · show s.table.total = _
      simp only [counted, reservations, pendings] at htotal ⊢
      omega
    · exact hs.total_le
  · rename_i session hget
    have hentries := SessionTable.entries_takeOut_some hash hget
    have hcounted := start_counted s (s.table.takeOut hash sid).2 .taken
    have htaken : (Call.taken (S := S)).reservation + (Call.taken (S := S)).pending = 1 := rfl
    constructor
    · show s.table.total = _
      omega
    · exact hs.total_le

theorem step_balanced (hash : String -> Nat) (s : Calls S) (e : CallStep S)
    (hs : s.Balanced) : (s.step hash e).Balanced := by
  cases e with
  | insert sid session =>
    exact step_insert_balanced hash hs sid session
  | land call =>
    exact step_land_balanced hash hs call
  | dropSlot call =>
    exact step_dropSlot_balanced hash hs call
  | cancel call =>
    simp only [step]
    split
    · rename_i hcall
      exact hs.release hcall rfl
    · exact hs
  | remove sid =>
    exact step_remove_balanced hash hs sid
  | countDown call =>
    simp only [step]
    split
    · rename_i hcall
      exact hs.release hcall rfl
    · exact hs

theorem run_balanced (hash : String -> Nat) (es : List (CallStep S)) :
    (Run.run (step hash) new es).Balanced :=
  Run.run_preserves (step_balanced hash) es new_balanced

theorem Balanced.entries_le (hs : s.Balanced) : s.table.entries ≤ maxSessions := by
  have htotal := hs.total_eq
  have hle := hs.total_le
  rw [counted] at htotal
  omega

end Calls

/-- Whatever the interleaving, the counter equals the entries, the open reservations and
the removals that have not counted down; no step counts down from zero; and the table
stays within its cap. -/
theorem session_count_exact (hash : String -> Nat) (es : List (CallStep S)) :
    let s := Run.run (Calls.step hash) Calls.new es
    s.table.total = s.table.entries + s.reservations + s.pendings
      ∧ (forall e, s.releases e = true -> 0 < s.table.total)
      ∧ s.table.entries ≤ maxSessions := by
  have hs := Calls.run_balanced hash es
  refine ⟨hs.total_eq, ?_, hs.entries_le⟩
  intro e he
  exact Calls.releases_total_pos hs he

end NatHole
end FrpRs
