import FrpRs.Data.Run
import FrpRs.Data.Table
import FrpRs.Udp.Native

/-!
# Login throttle

`check_login_throttle` and `is_login_throttled` of `frp-server/src/state.rs`.

Failed logins are counted for each address in a window that its first counted failure opens.  The
main table has room for 512 addresses; the addresses that come when it is full are counted in an
overflow table.  The gate reads both tables, and the count goes to one of them.
-/

namespace FrpRs
namespace Server
namespace LoginThrottle

open List

open Udp (IpAddr)

/-!
## The tables
-/

def secs (n : Nat) : Nat :=
  n * 1000000000

structure Attempts where
  count : Nat
  windowStart : Nat
deriving DecidableEq, Repr

abbrev Rows := Table IpAddr Attempts

structure Throttle where
  loginThrottle : Rows
  loginThrottleOverflow : Rows

def Throttle.new : Throttle where
  loginThrottle := ∅
  loginThrottleOverflow := ∅

/-- A `HashMap` is iterated in an order of its own. -/
structure Iteration where
  rows : Rows -> List (Sigma fun _ : IpAddr => Attempts)
  perm : forall t, (rows t).Perm t.entries

def cleanup (now : Nat) (t : Rows) : Rows :=
  t.retain fun _ row => now - row.windowStart < secs 90

/-- An attempt is counted and let through, unless the window has its `most` attempts. -/
def attempt (most : Nat) (ip : IpAddr) (now : Nat) (t : Rows) : Bool × Rows :=
  let row := (t.lookup ip).getD ⟨0, now⟩
  if secs 60 < now - row.windowStart then (true, t.insert ip ⟨1, now⟩)
  else if most ≤ row.count then (false, t.insert ip row)
  else (true, t.insert ip ⟨row.count + 1, row.windowStart⟩)

def oldestIp (now : Nat) (rows : List (Sigma fun _ : IpAddr => Attempts)) : Option IpAddr :=
  (rows.foldl (fun (oldest : Option IpAddr × Nat) row =>
    if oldest.1.isNone || row.2.windowStart < oldest.2 then (some row.1, row.2.windowStart)
    else oldest) (none, now)).1

/-- A full overflow table drops its old rows, or the oldest one. -/
def makeRoom (iter : Iteration) (ip : IpAddr) (now : Nat) (overflow : Rows) : Rows :=
  if (overflow.lookup ip).isNone ∧ 4096 ≤ overflow.size then
    let kept := cleanup now overflow
    if 4096 ≤ kept.size then
      match oldestIp now (iter.rows kept) with
      | none => kept
      | some oldest => kept.erase oldest
    else kept
  else overflow

/-!
## Counting and asking
-/

/-- Whether a failed login is let through. -/
def checkLoginThrottle (iter : Iteration) (addr : Udp.SocketAddr) (now : Nat) (s : Throttle) :
    Bool × Throttle :=
  let main := cleanup now s.loginThrottle
  if (main.lookup addr.ip).isNone ∧ 512 ≤ main.size then
    let r := attempt 50 addr.ip now (makeRoom iter addr.ip now s.loginThrottleOverflow)
    (r.1, ⟨main, r.2⟩)
  else
    let r := attempt 5 addr.ip now main
    (r.1, ⟨r.2, s.loginThrottleOverflow⟩)

/-- A window that is open and has its `most` attempts. -/
def spent (most now : Nat) (row : Attempts) : Bool :=
  now - row.windowStart ≤ secs 60 && most ≤ row.count

def isLoginThrottled (addr : Option Udp.SocketAddr) (now : Nat) (s : Throttle) : Bool :=
  match addr with
  | none => false
  | some addr =>
    (s.loginThrottle.lookup addr.ip).any (spent 5 now) ||
      (s.loginThrottleOverflow.lookup addr.ip).any (spent 50 now)

/-!
## The gate and the count
-/

theorem attempt_refused_iff {most : Nat} (hmost : 0 < most) (ip : IpAddr) (now : Nat) (t : Rows) :
    (attempt most ip now t).1 = false ↔ (t.lookup ip).any (spent most now) = true := by
  rw [attempt]
  cases t.lookup ip with
  | none =>
    have hopen : ¬ secs 60 < now - now := by
      rw [Nat.sub_self]
      exact Nat.not_lt_zero _
    dsimp only [Option.getD_none]
    rw [if_neg hopen, if_neg (Nat.not_le.mpr hmost)]
    constructor
    · intro h
      cases h
    · intro h
      cases h
  | some row =>
    dsimp only [Option.getD_some]
    rw [Option.any_some, spent, Bool.and_eq_true, decide_eq_true_eq, decide_eq_true_eq]
    by_cases hopen : secs 60 < now - row.windowStart
    · rw [if_pos hopen]
      constructor
      · intro h
        cases h
      · intro h
        exact absurd hopen (Nat.not_lt.mpr h.1)
    · rw [if_neg hopen]
      by_cases hfull : most ≤ row.count
      · rw [if_pos hfull]
        exact ⟨fun _ => ⟨Nat.not_lt.mp hopen, hfull⟩, fun _ => rfl⟩
      · rw [if_neg hfull]
        constructor
        · intro h
          cases h
        · intro h
          exact absurd h.2 hfull

theorem lookup_cleanup (now : Nat) (t : Rows) (ip : IpAddr) :
    (cleanup now t).lookup ip =
      (t.lookup ip).filter fun row => now - row.windowStart < secs 90 :=
  Table.lookup_retain _ t ip

theorem any_spent_cleanup (most now : Nat) (t : Rows) (ip : IpAddr) :
    ((cleanup now t).lookup ip).any (spent most now) = (t.lookup ip).any (spent most now) := by
  rw [lookup_cleanup]
  cases t.lookup ip with
  | none => rfl
  | some row =>
    rw [Option.any_some, Option.filter_some]
    by_cases hrecent : now - row.windowStart < secs 90
    · rw [if_pos (decide_eq_true hrecent), Option.any_some]
    · have hclosed : spent most now row = false := by
        have hlate : ¬ now - row.windowStart ≤ secs 60 := by
          rw [secs] at hrecent ⊢
          omega
        rw [spent, decide_eq_false hlate, Bool.false_and]
      rw [if_neg fun h => hrecent (of_decide_eq_true h), hclosed]
      rfl

variable (iter : Iteration)

theorem lookup_makeRoom (ip : IpAddr) (now : Nat) (overflow : Rows) :
    (makeRoom iter ip now overflow).lookup ip = overflow.lookup ip := by
  rw [makeRoom]
  split
  · rename_i hfull
    have hnone : overflow.lookup ip = none := Option.isNone_iff_eq_none.mp hfull.1
    have hkept : (cleanup now overflow).lookup ip = none := by
      rw [lookup_cleanup, hnone]
      rfl
    dsimp only
    split
    · split
      · rw [hkept, hnone]
      · rw [Table.lookup_erase_eq, hkept, hnone, ite_self]
    · rw [hkept, hnone]
  · rfl

/-- An overflow row that has its attempts is not read where the main table counts: it also has its
attempts in the main table, or the main table is full of other addresses. -/
def Agrees (now : Nat) (ip : IpAddr) (s : Throttle) : Prop :=
  (s.loginThrottleOverflow.lookup ip).any (spent 50 now) = true ->
    (s.loginThrottle.lookup ip).any (spent 5 now) = true ∨
      ((cleanup now s.loginThrottle).lookup ip = none ∧ 512 ≤ (cleanup now s.loginThrottle).size)

theorem check_refused_iff (addr : Udp.SocketAddr) (now : Nat) (s : Throttle) :
    (checkLoginThrottle iter addr now s).1 = false ↔
      (s.loginThrottle.lookup addr.ip).any (spent 5 now) = true ∨
        ((s.loginThrottleOverflow.lookup addr.ip).any (spent 50 now) = true ∧
          (cleanup now s.loginThrottle).lookup addr.ip = none ∧
          512 ≤ (cleanup now s.loginThrottle).size) := by
  have hmain := any_spent_cleanup 5 now s.loginThrottle addr.ip
  rw [checkLoginThrottle]
  split
  · rename_i hfull
    have hnone := Option.isNone_iff_eq_none.mp hfull.1
    rw [hnone] at hmain
    rw [attempt_refused_iff (by decide), lookup_makeRoom, <- hmain]
    constructor
    · intro h
      exact .inr ⟨h, hnone, hfull.2⟩
    · intro h
      rcases h with h | h
      · cases h
      · exact h.1
  · rename_i hroom
    rw [attempt_refused_iff (by decide), hmain]
    constructor
    · exact .inl
    · intro h
      rcases h with h | h
      · exact h
      · exact absurd ⟨Option.isNone_iff_eq_none.mpr h.2.1, h.2.2⟩ hroom

theorem throttled_iff_refused (addr : Udp.SocketAddr) (now : Nat) (s : Throttle) :
    (isLoginThrottled (some addr) now s = true ↔
      (checkLoginThrottle iter addr now s).1 = false) ↔ Agrees now addr.ip s := by
  rw [check_refused_iff, isLoginThrottled, Agrees, Bool.or_eq_true]
  constructor
  · intro h hoverflow
    rcases h.mp (.inr hoverflow) with hmain | hfull
    · exact .inl hmain
    · exact .inr hfull.2
  · intro h
    constructor
    · intro hthrottled
      rcases hthrottled with hmain | hoverflow
      · exact .inl hmain
      · rcases h hoverflow with hmain | hfull
        · exact .inl hmain
        · exact .inr ⟨hoverflow, hfull⟩
    · intro hrefused
      rcases hrefused with hmain | hoverflow
      · exact .inl hmain
      · exact .inr hoverflow.1

/-!
## The size of the tables
-/

theorem size_cleanup_le (now : Nat) (t : Rows) : (cleanup now t).size ≤ t.size :=
  length_filter_le _ t.entries

theorem size_insert_le (t : Rows) (ip : IpAddr) (row : Attempts) {bound : Nat}
    (hsize : t.size ≤ bound) (hroom : t.lookup ip = none -> t.size < bound) :
    Table.size (t.insert ip row) ≤ bound := by
  rw [Table.size_insert]
  cases hlookup : t.lookup ip with
  | none =>
    rw [Table.size_erase_of_none hlookup]
    exact hroom hlookup
  | some old =>
    rw [Table.size_erase_of_some hlookup]
    exact hsize

theorem size_attempt_le (most : Nat) (ip : IpAddr) (now : Nat) (t : Rows) {bound : Nat}
    (hsize : t.size ≤ bound) (hroom : t.lookup ip = none -> t.size < bound) :
    (attempt most ip now t).2.size ≤ bound := by
  rw [attempt]
  split
  · exact size_insert_le t ip _ hsize hroom
  · split
    · exact size_insert_le t ip _ hsize hroom
    · exact size_insert_le t ip _ hsize hroom

theorem oldestIp_mem {now : Nat} {rows : List (Sigma fun _ : IpAddr => Attempts)}
    (hne : rows ≠ []) : exists row, row ∈ rows ∧ oldestIp now rows = some row.1 := by
  have hfold : forall (later : List (Sigma fun _ : IpAddr => Attempts))
      (oldest : Option IpAddr × Nat),
      (exists row, row ∈ rows ∧ oldest.1 = some row.1) -> (forall row, row ∈ later -> row ∈ rows) ->
      exists row, row ∈ rows ∧ (later.foldl (fun (oldest : Option IpAddr × Nat) row =>
        if oldest.1.isNone || row.2.windowStart < oldest.2 then (some row.1, row.2.windowStart)
        else oldest) oldest).1 = some row.1 := by
    intro later
    induction later with
    | nil =>
      intro oldest holdest _
      exact holdest
    | cons row later ih =>
      intro oldest holdest hlater
      rw [foldl_cons]
      refine ih _ ?_ fun row' hmem => hlater row' (mem_cons_of_mem row hmem)
      split
      · exact ⟨row, hlater row mem_cons_self, rfl⟩
      · exact holdest
  cases rows with
  | nil => exact absurd rfl hne
  | cons row later =>
    exact hfold later _ ⟨row, mem_cons_self, rfl⟩
      fun row' hmem => mem_cons_of_mem row hmem

theorem size_makeRoom (ip : IpAddr) (now : Nat) {overflow : Rows} (hsize : overflow.size ≤ 4096) :
    (makeRoom iter ip now overflow).size ≤ 4096 ∧
      ((makeRoom iter ip now overflow).lookup ip = none ->
        (makeRoom iter ip now overflow).size < 4096) := by
  have hcleanup := size_cleanup_le now overflow
  have hlookup := lookup_makeRoom iter ip now overflow
  rw [hlookup]
  rw [makeRoom]
  split
  · dsimp only
    have hsmall : forall t : Rows, t.size < 4096 ->
        t.size ≤ 4096 ∧ (overflow.lookup ip = none -> t.size < 4096) :=
      fun t ht => ⟨Nat.le_of_lt ht, fun _ => ht⟩
    split
    · rename_i hmany
      have hne : iter.rows (cleanup now overflow) ≠ [] := by
        intro hnil
        have hlength := (iter.perm (cleanup now overflow)).length_eq
        rw [hnil, <- Table.size, length_nil] at hlength
        omega
      rcases @oldestIp_mem now _ hne with ⟨row, hrow, holdest⟩
      have hsome : (cleanup now overflow).lookup row.1 = some row.2 :=
        AList.mem_lookup_iff.mpr ((iter.perm _).mem_iff.mp hrow)
      have herase := Table.size_erase_of_some hsome
      rw [holdest]
      apply hsmall
      dsimp only
      omega
    · rename_i hfew
      exact hsmall _ (Nat.not_le.mp hfew)
  · rename_i hroom
    refine ⟨hsize, fun hnone => ?_⟩
    rw [hnone] at hroom
    exact Nat.not_le.mp fun hfull => hroom ⟨rfl, hfull⟩

/-- The tables have the room they are given. -/
structure Bounded (s : Throttle) : Prop where
  main : s.loginThrottle.size ≤ 512
  overflow : s.loginThrottleOverflow.size ≤ 4096

variable {s : Throttle}

theorem Bounded.check (h : Bounded s) (iter : Iteration) (addr : Udp.SocketAddr) (now : Nat) :
    Bounded (checkLoginThrottle iter addr now s).2 := by
  have hcleanup := (size_cleanup_le now s.loginThrottle).trans h.main
  rw [checkLoginThrottle]
  split
  · rcases size_makeRoom iter addr.ip now h.overflow with ⟨hsize, hroom⟩
    exact ⟨hcleanup, size_attempt_le 50 addr.ip now _ hsize hroom⟩
  · rename_i hroom
    refine ⟨size_attempt_le 5 addr.ip now _ hcleanup fun hnone => ?_, h.overflow⟩
    rw [hnone] at hroom
    exact Nat.not_le.mp fun hfull => hroom ⟨rfl, hfull⟩

/-!
## Windows of the main table
-/

/-- What an attempt does with the row of its address. -/
inductive Counted (most now : Nat) (row : Attempts) : Bool -> Attempts -> Prop
  | opened (h : secs 60 < now - row.windowStart) : Counted most now row true ⟨1, now⟩
  | refused (h : most ≤ row.count) : Counted most now row false row
  | counted (h : row.count < most) :
      Counted most now row true ⟨row.count + 1, row.windowStart⟩

theorem attempt_counted (most : Nat) (ip : IpAddr) (now : Nat) (t : Rows) :
    exists row, (attempt most ip now t).2 = t.insert ip row ∧
      Counted most now ((t.lookup ip).getD ⟨0, now⟩) (attempt most ip now t).1 row := by
  rw [attempt]
  split
  · rename_i hlate
    exact ⟨_, rfl, .opened hlate⟩
  · split
    · rename_i hfull
      exact ⟨_, rfl, .refused hfull⟩
    · rename_i hroom
      exact ⟨_, rfl, .counted (Nat.not_le.mp hroom)⟩

def remaining (window : Nat) : Option Attempts -> Nat
  | none => 5
  | some row =>
    if row.windowStart = window then 5 - row.count
    else if row.windowStart < window then 5
    else 0

/-- The attempts of an address that one window of the main table lets through, as long as the
address stays there. -/
def letThrough (iter : Iteration) (ip : IpAddr) (window : Nat) :
    Throttle -> List (Nat × Udp.SocketAddr) -> Nat
  | _, [] => 0
  | s, (now, addr) :: later =>
    let r := checkLoginThrottle iter addr now s
    match r.2.loginThrottle.lookup ip with
    | none => 0
    | some row =>
      (if addr.ip = ip ∧ r.1 = true ∧ row.windowStart = window then 1 else 0) +
        letThrough iter ip window r.2 later

variable {row : Attempts}

theorem remaining_opened {window now : Nat} (h : secs 60 < now - row.windowStart) :
    (if now = window then 1 else 0) + remaining window (some ⟨1, now⟩) ≤
      remaining window (some row) := by
  rw [remaining, remaining]
  dsimp only
  split
  · rename_i heq
    rw [if_neg (by omega), if_pos (by omega)]
  · split
    · rw [if_neg (by omega), if_pos (by omega)]
    · exact Nat.zero_le _

theorem remaining_new (window now : Nat) :
    (if now = window then 1 else 0) + remaining window (some ⟨1, now⟩) ≤ remaining window none := by
  rw [remaining, remaining]
  split
  · exact Nat.le_refl 5
  · split
    · exact Nat.le_refl 5
    · exact Nat.zero_le 5

theorem remaining_counted {window : Nat} (h : row.count < 5) :
    (if row.windowStart = window then 1 else 0) +
        remaining window (some ⟨row.count + 1, row.windowStart⟩) ≤
      remaining window (some row) := by
  rw [remaining, remaining]
  dsimp only
  split
  · omega
  · exact Nat.le_of_eq (Nat.zero_add _)

theorem Counted.of_none {now : Nat} {passed : Bool}
    (h : Counted 5 now ((none : Option Attempts).getD ⟨0, now⟩) passed row) :
    passed = true ∧ row = ⟨1, now⟩ := by
  cases h with
  | opened hlate => exact ⟨rfl, rfl⟩
  | refused hfull => exact absurd hfull (Nat.not_succ_le_zero 4)
  | counted hroom => exact ⟨rfl, rfl⟩

theorem Counted.remaining_le {window now : Nat} {old : Option Attempts} {passed : Bool}
    (h : Counted 5 now ((old.filter fun row => now - row.windowStart < secs 90).getD ⟨0, now⟩)
      passed row) :
    (if passed = true ∧ row.windowStart = window then 1 else 0) + remaining window (some row) ≤
      remaining window old := by
  cases old with
  | none =>
    rcases Counted.of_none h with ⟨hpassed, hrow⟩
    rw [hpassed, hrow]
    simp only [true_and]
    exact remaining_new window now
  | some old =>
    rw [Option.filter_some] at h
    by_cases hrecent : now - old.windowStart < secs 90
    · rw [if_pos (decide_eq_true hrecent), Option.getD_some] at h
      cases h with
      | opened hlate =>
        simp only [true_and]
        exact remaining_opened hlate
      | refused hfull =>
        rw [if_neg fun hpassed => Bool.false_ne_true hpassed.1, Nat.zero_add]
      | counted hroom =>
        simp only [true_and]
        exact remaining_counted hroom
    · have hlate : secs 60 < now - old.windowStart := by
        rw [secs] at hrecent ⊢
        omega
      rw [if_neg fun hdecide => hrecent (of_decide_eq_true hdecide)] at h
      rcases Counted.of_none h with ⟨hpassed, hrow⟩
      rw [hpassed, hrow]
      simp only [true_and]
      exact remaining_opened hlate

theorem lookup_of_cleanup {now : Nat} {t : Rows} {ip : IpAddr}
    (h : (cleanup now t).lookup ip = some row) : t.lookup ip = some row := by
  rw [lookup_cleanup, Option.filter_eq_some_iff] at h
  exact h.1

theorem letThrough_step {ip : IpAddr} (window now : Nat) (addr : Udp.SocketAddr) (s : Throttle)
    (h : (checkLoginThrottle iter addr now s).2.loginThrottle.lookup ip = some row) :
    (if addr.ip = ip ∧ (checkLoginThrottle iter addr now s).1 = true ∧ row.windowStart = window
      then 1 else 0) + remaining window (some row) ≤
        remaining window (s.loginThrottle.lookup ip) := by
  rw [checkLoginThrottle] at h ⊢
  dsimp only at h ⊢
  by_cases hfull : ((cleanup now s.loginThrottle).lookup addr.ip).isNone ∧
      512 ≤ (cleanup now s.loginThrottle).size
  · rw [if_pos hfull] at h ⊢
    have hother : addr.ip ≠ ip := by
      intro heq
      rw [heq, show (cleanup now s.loginThrottle).lookup ip = some row from h] at hfull
      cases hfull.1
    rw [if_neg fun hsame => hother hsame.1, lookup_of_cleanup h, Nat.zero_add]
  · rw [if_neg hfull] at h ⊢
    rcases attempt_counted 5 addr.ip now (cleanup now s.loginThrottle) with ⟨row', hrows, hcounted⟩
    rw [hrows, Table.lookup_insert_eq] at h
    by_cases heq : ip = addr.ip
    · rw [if_pos heq] at h
      cases h
      rw [lookup_cleanup] at hcounted
      rw [heq]
      simp only [true_and]
      exact hcounted.remaining_le
    · rw [if_neg heq] at h
      rw [if_neg fun hsame => heq hsame.1.symm, lookup_of_cleanup h, Nat.zero_add]

theorem letThrough_le_remaining (ip : IpAddr) (window : Nat) (s : Throttle)
    (failures : List (Nat × Udp.SocketAddr)) :
    letThrough iter ip window s failures ≤ remaining window (s.loginThrottle.lookup ip) := by
  induction failures generalizing s with
  | nil => exact Nat.zero_le _
  | cons f later ih =>
    rcases f with ⟨now, addr⟩
    rw [letThrough]
    split
    · exact Nat.zero_le _
    · rename_i row hrow
      have hlater := ih (checkLoginThrottle iter addr now s).2
      have hstep := letThrough_step iter window now addr s hrow
      rw [hrow] at hlater
      omega

theorem remaining_le (window : Nat) (row : Option Attempts) : remaining window row ≤ 5 := by
  cases row with
  | none => exact Nat.le_refl 5
  | some row =>
    rw [remaining]
    split
    · exact Nat.sub_le 5 row.count
    · split
      · exact Nat.le_refl 5
      · exact Nat.zero_le 5

/-!
## Histories
-/

def fail (iter : Iteration) (s : Throttle) (f : Nat × Udp.SocketAddr) : Throttle :=
  (checkLoginThrottle iter f.2 f.1 s).2

theorem bounded_run (failures : List (Nat × Udp.SocketAddr)) :
    Bounded (Run.run (fail iter) .new failures) := by
  refine Run.run_invariant (fun s f hs _ => hs.check iter f.2 f.1) ⟨Nat.zero_le _, Nat.zero_le _⟩
    (@Run.along_of_forall _ _ _ (fun _ _ => True) _ _ fun _ _ _ => trivial)

/-- After any failed logins, the gate turns an address away exactly when its next failure would be
refused, if and only if the tables agree about it.  The tables stay within their room, and no
window of the main table lets more than five failures through. -/
theorem throttle_history (iter : Iteration) (failures : List (Nat × Udp.SocketAddr)) (now : Nat)
    (addr : Udp.SocketAddr) :
    ((isLoginThrottled (some addr) now (Run.run (fail iter) .new failures) = true ↔
        (checkLoginThrottle iter addr now (Run.run (fail iter) .new failures)).1 = false) ↔
      Agrees now addr.ip (Run.run (fail iter) .new failures)) ∧
    Bounded (Run.run (fail iter) .new failures) ∧
    forall (ip : IpAddr) (window : Nat) (later : List (Nat × Udp.SocketAddr)),
      letThrough iter ip window (Run.run (fail iter) .new failures) later ≤ 5 := by
  refine ⟨throttled_iff_refused iter addr now _, bounded_run iter failures, ?_⟩
  intro ip window later
  exact (letThrough_le_remaining iter ip window _ later).trans (remaining_le window _)

/-- Address number `i` of a network. -/
def host (i : Nat) : Udp.SocketAddr :=
  .v4 ⟨10, 0, UInt8.ofNat (i / 256), UInt8.ofNat i⟩ 7000

theorem host_ip_ne {i j : Nat} (hij : i < j) (hj : j < 65536) : (host i).ip ≠ (host j).ip := by
  intro heq
  injection heq with heq
  injection heq with _ _ hhigh hlow
  have hhigh' := congrArg UInt8.toNat hhigh
  have hlow' := congrArg UInt8.toNat hlow
  rw [UInt8.toNat_ofNat', UInt8.toNat_ofNat'] at hhigh' hlow'
  omega

/-- The main table after the first `n` hosts failed once, at the start. -/
structure Filled (n : Nat) (s : Throttle) : Prop where
  rows : forall ip row, s.loginThrottle.lookup ip = some row -> row = ⟨1, 0⟩ ∧
    exists i, i < n ∧ ip = (host i).ip
  size : s.loginThrottle.size = n

theorem cleanup_eq_self {n now : Nat} {s : Throttle} (h : Filled n s) (hnow : now < secs 90) :
    cleanup now s.loginThrottle = s.loginThrottle := by
  apply Table.retain_eq_self
  intro ip row hrow
  rw [(h.rows ip row hrow).1, Nat.sub_zero]
  exact decide_eq_true hnow

theorem Filled.fail {n : Nat} (h : Filled n s) (hn : n < 512) (iter : Iteration) :
    Filled (n + 1) (LoginThrottle.fail iter s (0, host n)) := by
  have hnone : s.loginThrottle.lookup (host n).ip = none := by
    rw [Option.eq_none_iff_forall_not_mem]
    intro row hrow
    rcases (h.rows _ row hrow).2 with ⟨i, hi, heq⟩
    exact host_ip_ne hi (by omega) heq.symm
  have hcleanup : cleanup 0 s.loginThrottle = s.loginThrottle := cleanup_eq_self h (by decide)
  have hmain : (LoginThrottle.fail iter s (0, host n)).loginThrottle =
      s.loginThrottle.insert (host n).ip ⟨1, 0⟩ := by
    rw [LoginThrottle.fail, checkLoginThrottle]
    rw [hcleanup, if_neg fun hfull => absurd hfull.2 (by rw [h.size]; omega), attempt, hnone]
    rfl
  constructor
  · intro ip row hrow
    rw [hmain, Table.lookup_insert_eq] at hrow
    by_cases heq : ip = (host n).ip
    · rw [if_pos heq] at hrow
      cases hrow
      exact ⟨rfl, n, Nat.lt_succ_self n, heq⟩
    · rw [if_neg heq] at hrow
      rcases h.rows ip row hrow with ⟨hrow', i, hi, hip⟩
      exact ⟨hrow', i, Nat.lt_succ_of_lt hi, hip⟩
  · rw [hmain, Table.size_insert, Table.size_erase_of_none hnone, h.size]

def hostFailures (n : Nat) : List (Nat × Udp.SocketAddr) :=
  (range n).map fun i => (0, host i)

theorem filled_run {n : Nat} (hn : n ≤ 512) :
    Filled n (Run.run (fail iter) .new (hostFailures n)) := by
  induction n with
  | zero =>
    constructor
    · intro ip row hrow
      cases hrow
    · rfl
  | succ n ih =>
    rw [hostFailures, range_succ, map_append, Run.run_append]
    exact (ih (by omega)).fail (by omega) iter

def stranger : Udp.SocketAddr :=
  .v4 ⟨192, 0, 2, 1⟩ 7000

theorem stranger_ip_ne (i : Nat) : stranger.ip ≠ (host i).ip := by
  intro heq
  injection heq with heq
  injection heq with hfirst
  exact absurd hfirst (by decide)

theorem Filled.lookup_stranger {n : Nat} (h : Filled n s) :
    s.loginThrottle.lookup stranger.ip = none := by
  rw [Option.eq_none_iff_forall_not_mem]
  intro row hrow
  rcases (h.rows _ row hrow).2 with ⟨i, _, heq⟩
  exact stranger_ip_ne i heq

/-- The overflow row after `k` failures of the stranger. -/
structure Overflowed (k : Nat) (s : Throttle) : Prop where
  filled : Filled 512 s
  row : (s.loginThrottleOverflow.lookup stranger.ip).getD ⟨0, secs 85⟩ = ⟨k, secs 85⟩

theorem Overflowed.fail {k : Nat} (h : Overflowed k s) (hk : k < 50) (iter : Iteration) :
    Overflowed (k + 1) (LoginThrottle.fail iter s (secs 85, stranger)) := by
  have hcleanup : cleanup (secs 85) s.loginThrottle = s.loginThrottle :=
    cleanup_eq_self h.filled (by decide)
  have hfull : (s.loginThrottle.lookup stranger.ip).isNone ∧ 512 ≤ s.loginThrottle.size := by
    rw [h.filled.lookup_stranger, h.filled.size]
    exact ⟨rfl, Nat.le_refl 512⟩
  have hfail : LoginThrottle.fail iter s (secs 85, stranger) = ⟨s.loginThrottle, (attempt 50
      stranger.ip (secs 85) (makeRoom iter stranger.ip (secs 85) s.loginThrottleOverflow)).2⟩ := by
    rw [LoginThrottle.fail, checkLoginThrottle]
    rw [hcleanup, if_pos hfull]
  rw [hfail]
  refine ⟨⟨h.filled.rows, h.filled.size⟩, ?_⟩
  rw [attempt, lookup_makeRoom, h.row]
  rw [Nat.sub_self, if_neg (Nat.not_lt_zero _), if_neg (Nat.not_le.mpr hk),
    Table.lookup_insert_eq, if_pos rfl, Option.getD_some]

theorem overflowed_run (h : Overflowed 0 s) {k : Nat} (hk : k ≤ 50) :
    Overflowed k (Run.run (fail iter) s (replicate k (secs 85, stranger))) := by
  induction k with
  | zero => exact h
  | succ k ih =>
    rw [replicate_succ', Run.run_append]
    exact (ih (by omega)).fail (by omega) iter

theorem overflow_run_filled {n : Nat} (hn : n ≤ 512) :
    (Run.run (fail iter) .new (hostFailures n)).loginThrottleOverflow = ∅ := by
  induction n with
  | zero => rfl
  | succ n ih =>
    have hfilled := filled_run iter (Nat.le_of_succ_le hn)
    have hcleanup := @cleanup_eq_self n 0 _ hfilled (by decide)
    rw [hostFailures, range_succ, map_append, Run.run_append, <- hostFailures]
    rw [map_singleton, Run.run_cons, Run.run_nil, fail, checkLoginThrottle]
    rw [hcleanup, if_neg fun hfull => absurd hfull.2 (by rw [hfilled.size]; omega)]
    exact ih (by omega)

def stored : Iteration where
  rows t := t.entries
  perm _ := .refl _

def crowdedFailures : List (Nat × Udp.SocketAddr) :=
  hostFailures 512 ++ replicate 50 (secs 85, stranger)

/-- When the rows of the main table are old, the stranger's next failure is let through there, and
the gate still turns the stranger away. -/
theorem stranger_turned_away :
    ¬ (isLoginThrottled (some stranger) (secs 91) (Run.run (fail stored) .new crowdedFailures) =
        true ↔
      (checkLoginThrottle stored stranger (secs 91)
        (Run.run (fail stored) .new crowdedFailures)).1 = false) := by
  have hoverflowed : Overflowed 50 (Run.run (fail stored) .new crowdedFailures) := by
    rw [crowdedFailures, Run.run_append]
    refine overflowed_run stored ⟨filled_run stored (Nat.le_refl 512), ?_⟩ (Nat.le_refl 50)
    rw [overflow_run_filled stored (Nat.le_refl 512)]
    rfl
  generalize Run.run (fail stored) .new crowdedFailures = s at hoverflowed ⊢
  have hrow : s.loginThrottleOverflow.lookup stranger.ip = some ⟨50, secs 85⟩ := by
    have hgetD := hoverflowed.row
    cases hlookup : s.loginThrottleOverflow.lookup stranger.ip with
    | none =>
      rw [hlookup] at hgetD
      exact absurd (congrArg Attempts.count hgetD) (by decide)
    | some row =>
      rw [hlookup, Option.getD_some] at hgetD
      rw [hgetD]
  have hold : (cleanup (secs 91) s.loginThrottle).size = 0 := by
    rw [Table.size, length_eq_zero_iff, cleanup, Table.retain, filter_eq_nil_iff]
    intro e he
    rw [(hoverflowed.filled.rows e.1 e.2 (AList.mem_lookup_iff.mpr he)).1]
    decide
  rw [throttled_iff_refused, Agrees, hoverflowed.filled.lookup_stranger, hrow, hold]
  intro hagrees
  rcases hagrees (by decide) with hmain | hfull
  · cases hmain
  · exact absurd hfull.2 (by decide)

end LoginThrottle
end Server
end FrpRs
