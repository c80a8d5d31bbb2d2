import FrpRs.Data.Tasks
import FrpRs.Vnet.Router

/-!
# Visitor routes of the client

`ClientVnetController` of `frp-vnet/src/controller.rs`: a visitor tunnel has a route in the
default net and a packet channel under its name.  The two stand behind different locks.  A
registration takes the route lock first; the cleanup of an old tunnel first looks whether the
channel is still its own, and a call gives way at every lock.
-/

namespace FrpRs
namespace Vnet

open Tasks

variable {Tx : Type}

/-!
## Calls
-/

/-- The channels are compared by `same_channel`. -/
structure ClientVnetController (Tx : Type) where
  routes : RouteTable
  visitorTxs : Table String Tx

namespace ClientVnetController

inductive Outcome where
  | registered
  | refused (text : String)
  | unregistered
  | matched (removed : Bool)
deriving DecidableEq, Repr

/-- Where a call stands: the lock it takes next, or what it returned. -/
inductive Task (Tx : Type) where
  | registering (name cidr : String) (tx : Tx)
  | storing (name : String) (tx : Tx)
  | unregistering (name : String)
  | dropping (name : String)
  | matching (name : String) (tx : Tx)
  | removing (name : String)
  | returned (outcome : Outcome)
deriving DecidableEq, Repr

inductive Operation (Tx : Type) where
  | registerVisitorRoute (name cidr : String) (tx : Tx)
  | unregisterVisitorRoute (name : String)
  | unregisterVisitorRouteIfMatches (name : String) (tx : Tx)
deriving DecidableEq, Repr

def begin : Operation Tx -> Task Tx
  | .registerVisitorRoute name cidr tx => .registering name cidr tx
  | .unregisterVisitorRoute name => .unregistering name
  | .unregisterVisitorRouteIfMatches name tx => .matching name tx

def insertRoute (search : Ranked.Search) (c : ClientVnetController Tx) (name cidr : String)
    (tx : Tx) : ClientVnetController Tx × Task Tx :=
  match c.routes.insert search "" name cidr with
  | (routes, .error text) => ({ c with routes := routes }, .returned (.refused text))
  | (routes, .ok ()) => ({ c with routes := routes }, .storing name tx)

def removeRoute (c : ClientVnetController Tx) (name : String) : ClientVnetController Tx :=
  { c with routes := c.routes.remove "" name }

def insertTx (c : ClientVnetController Tx) (name : String) (tx : Tx) : ClientVnetController Tx :=
  { c with visitorTxs := c.visitorTxs.insert name tx }

def removeTx (c : ClientVnetController Tx) (name : String) : ClientVnetController Tx :=
  { c with visitorTxs := c.visitorTxs.erase name }

def advance [DecidableEq Tx] (search : Ranked.Search) (_ : Unit) (c : ClientVnetController Tx) :
    Task Tx -> ClientVnetController Tx × Task Tx
  | .registering name cidr tx => c.insertRoute search name cidr tx
  | .storing name tx => (c.insertTx name tx, .returned .registered)
  | .unregistering name => (c.removeRoute name, .dropping name)
  | .dropping name => (c.removeTx name, .returned .unregistered)
  | .matching name tx =>
    if c.visitorTxs.lookup name = some tx then (c.removeTx name, .removing name)
    else (c, .returned (.matched false))
  | .removing name => (c.removeRoute name, .returned (.matched true))
  | .returned outcome => (c, .returned outcome)

def program [DecidableEq Tx] (search : Ranked.Search) :
    Program (ClientVnetController Tx) (Operation Tx) (Task Tx) Unit where
  begin := begin
  advance := advance search

def handover (c : ClientVnetController Tx) (name cidr : String) (oldTx newTx : Tx) :
    System (ClientVnetController Tx) (Task Tx) where
  state := c
  tasks := [begin (.unregisterVisitorRouteIfMatches name oldTx),
    begin (.registerVisitorRoute name cidr newTx)]

namespace Task

def isReturned : Task Tx -> Bool
  | .returned _ => true
  | _ => false

def isStoring (name : String) : Task Tx -> Bool
  | .storing name' _ => name' = name
  | _ => false

def isRemoving (name : String) : Task Tx -> Bool
  | .removing name' => name' = name
  | _ => false

end Task

def Completed (s : System (ClientVnetController Tx) (Task Tx)) : Prop :=
  forall t, t ∈ s.tasks -> t.isReturned = true

instance (s : System (ClientVnetController Tx) (Task Tx)) : Decidable (Completed s) :=
  inferInstanceAs (Decidable (forall t, t ∈ s.tasks -> t.isReturned = true))

def HasRoute (c : ClientVnetController Tx) (name cidr : String) : Prop :=
  exists net, Net.parse cidr = some net ∧ (net, name) ∈ c.routes.entry ""

def Accepts (c : ClientVnetController Tx) (name cidr : String) : Prop :=
  exists net, Net.parse cidr = some net ∧
    forall route, route ∈ c.routes.entry "" -> route.1 = net -> route.2 = name

/-- No call starts while the other is between its two locks: a registration not while a cleanup is
about to remove the route, a cleanup not while the channel is its own and a registration is about
to replace it. -/
def apart [DecidableEq Tx] (s : System (ClientVnetController Tx) (Task Tx)) (_ : Unit) :
    Task Tx -> Bool
  | .matching name tx =>
    s.state.visitorTxs.lookup name ≠ some tx || s.tasks.all fun t => !t.isStoring name
  | .registering name _ _ => s.tasks.all fun t => !t.isRemoving name
  | _ => true

def turn [DecidableEq Tx] (search : Ranked.Search)
    (s : System (ClientVnetController Tx) (Task Tx)) (i : Nat) :
    System (ClientVnetController Tx) (Task Tx) :=
  (program search).step s (.advance i ())

def TurnApart [DecidableEq Tx] (s : System (ClientVnetController Tx) (Task Tx)) (i : Nat) : Prop :=
  s.Steps (fun s u t => apart s u t = true)
    (.advance i () : Tasks.Event (Operation Tx) Unit)

instance [DecidableEq Tx] (s : System (ClientVnetController Tx) (Task Tx)) (i : Nat) :
    Decidable (TurnApart s i) :=
  inferInstanceAs (Decidable (s.Steps (fun s u t => apart s u t = true)
    (.advance i () : Tasks.Event (Operation Tx) Unit)))

/-!
## Single locks
-/

theorem not_hasRoute_removeRoute (c : ClientVnetController Tx) (name cidr : String) :
    ¬ (c.removeRoute name).HasRoute name cidr := by
  intro h
  rcases h with ⟨net, _, hmem⟩
  exact (RouteTable.mem_remove.mp hmem).2 ⟨rfl, rfl⟩

theorem accepts_removeRoute (c : ClientVnetController Tx) (name cidr : String) :
    (c.removeRoute name).Accepts name cidr ↔ c.Accepts name cidr := by
  constructor
  · intro h
    rcases h with ⟨net, hparse, hfree⟩
    refine ⟨net, hparse, fun route hmem heq => ?_⟩
    by_contra hne
    exact hne (hfree route (RouteTable.mem_remove.mpr ⟨hmem, fun hkey => hne hkey.2⟩) heq)
  · intro h
    rcases h with ⟨net, hparse, hfree⟩
    refine ⟨net, hparse, fun route hmem heq => ?_⟩
    exact hfree route (RouteTable.mem_remove.mp hmem).1 heq

variable (search : Ranked.Search)

theorem insertRoute_cases (c : ClientVnetController Tx) (name cidr : String) (tx : Tx) :
    (c.insertRoute search name cidr tx).1.visitorTxs = c.visitorTxs ∧
      ((c.Accepts name cidr ∧ (c.insertRoute search name cidr tx).1.HasRoute name cidr ∧
          (c.insertRoute search name cidr tx).2 = .storing name tx) ∨
        (¬ c.Accepts name cidr ∧
          exists text, (c.insertRoute search name cidr tx).2 = .returned (.refused text))) := by
  have hcases := c.routes.insert_cases search "" name cidr
  rw [insertRoute]
  generalize c.routes.insert search "" name cidr = inserted at hcases
  rcases inserted with ⟨routes, result⟩
  rcases hcases with ⟨text, hresult, _, htaken⟩ | ⟨net, hparse, hresult, hfree, hentry⟩
  · cases hresult
    refine ⟨rfl, .inr ⟨?_, text, rfl⟩⟩
    intro haccepts
    rcases haccepts with ⟨net, hparse, hfree⟩
    rcases htaken net hparse with ⟨route, hmem, hne, heq⟩
    exact hne (hfree route hmem heq)
  · cases hresult
    refine ⟨rfl, .inl ⟨⟨net, hparse, hfree⟩, ⟨net, hparse, ?_⟩, rfl⟩⟩
    exact (hentry "" (net, name)).mpr (.inl ⟨rfl, rfl⟩)

/-!
## The handover
-/

inductive OldAt (name : String) (oldTx : Tx) : Task Tx -> Prop where
  | matching : OldAt name oldTx (.matching name oldTx)
  | removing : OldAt name oldTx (.removing name)
  | returned (removed : Bool) : OldAt name oldTx (.returned (.matched removed))

/-- What holds while the successor stands at a place of its call.  Once it has its route, the
calls kept apart exactly if the route is there and the old call will not remove it. -/
inductive NewAt (accepted : Prop) (name cidr : String) (newTx : Tx) (met : Prop)
    (c : ClientVnetController Tx) (old : Task Tx) : Task Tx -> Prop where
  | registering (hmet : met) (haccepts : c.Accepts name cidr ↔ accepted)
      (hfresh : c.visitorTxs.lookup name ≠ some newTx) :
      NewAt accepted name cidr newTx met c old (.registering name cidr newTx)
  | storing (haccepted : accepted)
      (hmet : met ↔ c.HasRoute name cidr ∧ old.isRemoving name = false) :
      NewAt accepted name cidr newTx met c old (.storing name newTx)
  | registered (haccepted : accepted)
      (hmet : met ↔ c.HasRoute name cidr ∧ old.isRemoving name = false)
      (htx : c.visitorTxs.lookup name = some newTx) :
      NewAt accepted name cidr newTx met c old (.returned .registered)
  | refused (text : String) (hrefused : ¬ accepted)
      (hfresh : c.visitorTxs.lookup name ≠ some newTx) :
      NewAt accepted name cidr newTx met c old (.returned (.refused text))

variable {accepted met : Prop} {c : ClientVnetController Tx}
  {name cidr : String} {oldTx newTx : Tx} {old new : Task Tx}

theorem NewAt.congr (h : NewAt accepted name cidr newTx met c old new) {met' : Prop}
    {old' : Task Tx} (hmet : met' ↔ met)
    (hremoving : old'.isRemoving name = old.isRemoving name) :
    NewAt accepted name cidr newTx met' c old' new := by
  cases h with
  | registering hall haccepts hfresh => exact .registering (hmet.mpr hall) haccepts hfresh
  | storing haccepted hiff =>
    refine .storing haccepted ?_
    rw [hmet, hremoving]
    exact hiff
  | registered haccepted hiff htx =>
    refine .registered haccepted ?_ htx
    rw [hmet, hremoving]
    exact hiff
  | refused text hrefused hfresh => exact .refused text hrefused hfresh

theorem NewAt.removeTx (h : NewAt accepted name cidr newTx met c (.matching name oldTx) new)
    (hne : newTx ≠ oldTx) (howner : c.visitorTxs.lookup name = some oldTx) :
    NewAt accepted name cidr newTx
      (met ∧ ([.matching name oldTx, new] : List (Task Tx)).all (fun t => !t.isStoring name) = true)
      (c.removeTx name) (.removing name) new := by
  have hgone : (c.removeTx name).visitorTxs.lookup name ≠ some newTx := by
    intro habs
    rw [ClientVnetController.removeTx, AList.lookup_erase] at habs
    cases habs
  cases h with
  | registering hall haccepts hfresh => exact .registering ⟨hall, rfl⟩ haccepts hgone
  | storing haccepted hiff =>
    refine .storing haccepted ?_
    simp [Task.isStoring, Task.isRemoving]
  | registered haccepted hiff htx =>
    rw [howner] at htx
    cases htx
    exact absurd rfl hne
  | refused text hrefused hfresh => exact .refused text hrefused hgone

theorem NewAt.removeRoute (h : NewAt accepted name cidr newTx met c (.removing name) new)
    (removed : Bool) :
    NewAt accepted name cidr newTx met (c.removeRoute name) (.returned (.matched removed)) new := by
  have hnone := c.not_hasRoute_removeRoute name cidr
  have hremoving : ((.removing name : Task Tx).isRemoving name) = true := decide_eq_true rfl
  cases h with
  | registering hall haccepts hfresh =>
    refine .registering hall ?_ hfresh
    rw [accepts_removeRoute]
    exact haccepts
  | storing haccepted hiff =>
    refine .storing haccepted ?_
    rw [hiff, hremoving]
    simp [hnone]
  | registered haccepted hiff htx =>
    refine .registered haccepted ?_ htx
    rw [hiff, hremoving]
    simp [hnone]
  | refused text hrefused hfresh => exact .refused text hrefused hfresh

def Handing (accepted : Prop) (name cidr : String) (oldTx newTx : Tx) (met : Prop)
    (s : System (ClientVnetController Tx) (Task Tx)) : Prop :=
  exists old new, s.tasks = [old, new] ∧ OldAt name oldTx old ∧
    NewAt accepted name cidr newTx met s.state old new

theorem handing_done {s : System (ClientVnetController Tx) (Task Tx)}
    (h : Handing accepted name cidr oldTx newTx met s) (hdone : Completed s) :
    (s.state.HasRoute name cidr ∧ s.state.visitorTxs.lookup name = some newTx) ↔
      accepted ∧ met := by
  rcases h with ⟨old, new, htasks, hold, hnew⟩
  have hold' : old.isReturned = true := hdone old (by rw [htasks]; exact List.mem_cons_self)
  have hnew' : new.isReturned = true := by
    apply hdone new
    rw [htasks]
    exact List.mem_cons_of_mem old List.mem_cons_self
  have hremoving : old.isRemoving name = false := by
    cases hold with
    | matching => rfl
    | removing => cases hold'
    | returned removed => rfl
  cases hnew with
  | registering hmet haccepts hfresh => cases hnew'
  | storing haccepted hiff => cases hnew'
  | registered haccepted hiff htx =>
    rw [hiff, hremoving]
    exact ⟨fun hboth => ⟨haccepted, hboth.1, rfl⟩, fun hboth => ⟨hboth.2.1, htx⟩⟩
  | refused text hrefused hfresh =>
    exact ⟨fun hboth => absurd hboth.2 hfresh, fun hboth => absurd hboth.1 hrefused⟩

variable [DecidableEq Tx]

theorem NewAt.old_turn (hold : OldAt name oldTx old)
    (h : NewAt accepted name cidr newTx met c old new) (hne : newTx ≠ oldTx) :
    OldAt name oldTx (advance search () c old).2 ∧
      NewAt accepted name cidr newTx (met ∧ apart ⟨c, [old, new]⟩ () old = true)
        (advance search () c old).1 (advance search () c old).2 new := by
  cases hold with
  | matching =>
    rw [advance, apart]
    by_cases howner : c.visitorTxs.lookup name = some oldTx
    · rw [if_pos howner]
      refine ⟨.removing, (h.removeTx hne howner).congr ?_ rfl⟩
      rw [decide_eq_false (not_not.mpr howner), Bool.false_or]
    · rw [if_neg howner]
      refine ⟨.returned false, h.congr ?_ rfl⟩
      rw [decide_eq_true howner, Bool.true_or]
      exact and_iff_left rfl
  | removing =>
    exact ⟨.returned true, (h.removeRoute true).congr (and_iff_left rfl) rfl⟩
  | returned removed =>
    exact ⟨.returned removed, h.congr (and_iff_left rfl) rfl⟩

theorem NewAt.new_turn (h : NewAt accepted name cidr newTx met c old new) :
    NewAt accepted name cidr newTx (met ∧ apart ⟨c, [old, new]⟩ () new = true)
      (advance search () c new).1 old (advance search () c new).2 := by
  cases h with
  | registering hall haccepts hfresh =>
    rcases c.insertRoute_cases search name cidr newTx with
      ⟨htxs, ⟨hfree, hroute, htask⟩ | ⟨htaken, text, htask⟩⟩
    · rw [advance, htask]
      refine .storing (haccepts.mp hfree) ?_
      have hapart : apart ⟨c, [old, .registering name cidr newTx]⟩ ()
          (.registering name cidr newTx) = !old.isRemoving name := by
        simp [apart, Task.isRemoving]
      rw [hapart, Bool.not_eq_true']
      exact ⟨fun hmet => ⟨hroute, hmet.2⟩, fun hmet => ⟨hall, hmet.2⟩⟩
    · rw [advance, htask]
      refine .refused text (fun haccepted => htaken (haccepts.mpr haccepted)) ?_
      rw [htxs]
      exact hfresh
  | storing haccepted hiff =>
    refine .registered haccepted ?_ (AList.lookup_insert c.visitorTxs)
    exact (and_iff_left rfl).trans hiff
  | registered haccepted hiff htx =>
    exact .registered haccepted ((and_iff_left rfl).trans hiff) htx
  | refused text hrefused hfresh => exact .refused text hrefused hfresh

theorem handing_turn (hne : newTx ≠ oldTx) {s : System (ClientVnetController Tx) (Task Tx)}
    (h : Handing accepted name cidr oldTx newTx met s) (i : Nat) :
    Handing accepted name cidr oldTx newTx (met ∧ TurnApart s i) (turn search s i) := by
  rcases h with ⟨old, new, htasks, hold, hnew⟩
  rcases s with ⟨c, tasks⟩
  cases htasks
  have happly : forall {t : Task Tx}, [old, new][i]? = some t ->
      (TurnApart ⟨c, [old, new]⟩ i ↔ apart ⟨c, [old, new]⟩ () t = true) := by
    intro t ht
    constructor
    · intro hall
      exact hall t ht
    · intro hapart t' ht'
      rw [ht] at ht'
      cases ht'
      exact hapart
  cases i with
  | zero =>
    rcases hnew.old_turn search hold hne with ⟨hold', hnew'⟩
    exact ⟨_, new, rfl, hold', hnew'.congr (and_congr_right fun _ => happly rfl) rfl⟩
  | succ i =>
    cases i with
    | zero =>
      have hnew' := hnew.new_turn search
      exact ⟨old, _, rfl, hold, hnew'.congr (and_congr_right fun _ => happly rfl) rfl⟩
    | succ i =>
      refine ⟨old, new, rfl, hold, hnew.congr (and_iff_left ?_) rfl⟩
      intro t ht
      cases ht

/-- Once both calls returned, the route and the channel of the successor are there exactly if the
table could take the route and neither call started between the two locks of the other. -/
theorem handover_iff (search : Ranked.Search) (c : ClientVnetController Tx) (name cidr : String)
    (oldTx newTx : Tx) (hne : newTx ≠ oldTx) (hfresh : c.visitorTxs.lookup name ≠ some newTx)
    (schedule : List Nat)
    (hdone : Completed (Run.run (turn search) (handover c name cidr oldTx newTx) schedule)) :
    ((Run.run (turn search) (handover c name cidr oldTx newTx) schedule).state.HasRoute name cidr ∧
        (Run.run (turn search) (handover c name cidr oldTx newTx) schedule).state.visitorTxs.lookup
          name = some newTx) ↔
      c.Accepts name cidr ∧
        Run.Along (turn search) TurnApart (handover c name cidr oldTx newTx) schedule := by
  have hstart : Handing (c.Accepts name cidr) name cidr oldTx newTx True
      (handover c name cidr oldTx newTx) :=
    ⟨_, _, rfl, .matching, .registering trivial Iff.rfl hfresh⟩
  have hend := @Run.run_invariant_along _ _ (turn search) TurnApart
    (Handing (c.Accepts name cidr) name cidr oldTx newTx)
    (fun _ _ i hs => handing_turn search hne hs i) _ _ hstart schedule
  rw [handing_done hend hdone, true_and]

/-- A tunnel `v` with the channel 0, registered by a call that was alone. -/
def tunnel : ClientVnetController Nat :=
  (Run.run (turn Ranked.Search.first)
    ⟨⟨RouteTable.new, ∅⟩, [begin (.registerVisitorRoute "v" "10.0.0.1/32" 0)]⟩ [0, 0]).state

theorem tunnel_accepts : tunnel.Accepts "v" "10.0.0.1/32" := by
  have hroutes : tunnel.routes.entry "" =
      [(.v4 (IpNet.new 167772161#32 32 (Nat.le_refl 32)), "v")] := by decide
  refine ⟨.v4 (IpNet.new 167772161#32 32 (Nat.le_refl 32)), by decide, ?_⟩
  intro route hmem _
  rw [hroutes, List.mem_singleton] at hmem
  rw [hmem]

/-- The old call ends before the successor starts. -/
theorem handover_in_turn :
    (Run.run (turn Ranked.Search.first) (handover tunnel "v" "10.0.0.1/32" 0 1)
        [0, 0, 1, 1]).state.HasRoute "v" "10.0.0.1/32" ∧
      (Run.run (turn Ranked.Search.first) (handover tunnel "v" "10.0.0.1/32" 0 1)
        [0, 0, 1, 1]).state.visitorTxs.lookup "v" = some 1 :=
  (handover_iff Ranked.Search.first tunnel "v" "10.0.0.1/32" 0 1 (by decide) (by decide)
    [0, 0, 1, 1] (by decide)).mpr ⟨tunnel_accepts, by decide⟩

/-- The successor registers between the two locks of the old call: its route is gone while both
calls report success. -/
theorem handover_loses_route :
    (Run.run (turn Ranked.Search.first) (handover tunnel "v" "10.0.0.1/32" 0 1)
        [0, 1, 1, 0]).tasks = [.returned (.matched true), .returned .registered] ∧
      ¬ ((Run.run (turn Ranked.Search.first) (handover tunnel "v" "10.0.0.1/32" 0 1)
            [0, 1, 1, 0]).state.HasRoute "v" "10.0.0.1/32" ∧
          (Run.run (turn Ranked.Search.first) (handover tunnel "v" "10.0.0.1/32" 0 1)
            [0, 1, 1, 0]).state.visitorTxs.lookup "v" = some 1) := by
  refine ⟨by decide, ?_⟩
  intro h
  rcases h.1 with ⟨net, _, hmem⟩
  have hroutes : (Run.run (turn Ranked.Search.first) (handover tunnel "v" "10.0.0.1/32" 0 1)
      [0, 1, 1, 0]).state.routes.entry "" = [] := by decide
  cases hmem

end ClientVnetController

end Vnet
end FrpRs
