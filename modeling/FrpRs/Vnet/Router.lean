import FrpRs.Data.Lines
import FrpRs.Data.Ranked
import FrpRs.Data.Run
import FrpRs.Udp.NetText
import FrpRs.Vnet.Server

/-!
# The client's route table

`RouteTable`, `RoutePrefixes` and `PrecompiledSubnet` of `frp-vnet/src/router.rs`.  The routes
of a virtual net stand in descending order of their prefix length.  Beside the table, a run
records for each proxy and address family the route that was accepted last and not removed.
-/

namespace FrpRs
namespace Vnet

open List Bytes
open Udp (Ipv4Addr Ipv6Addr IpAddr)

/-!
## Addresses as numbers
-/

/-- `u32::from`: the octets, high octet first. -/
def ipv4ToBits (ip : Ipv4Addr) : BitVec 32 :=
  BitVec.ofNat 32 (ofBeBytes ip.octets)

def ipv4OfBits (bits : BitVec 32) : Ipv4Addr :=
  let octets := beBytes 4 bits.toNat
  { a := octets.getD 0 0
    b := octets.getD 1 0
    c := octets.getD 2 0
    d := octets.getD 3 0 }

/-- `u128::from`. -/
def ipv6ToBits (ip : Ipv6Addr) : BitVec 128 :=
  BitVec.ofNat 128 (ofBeBytes ip.octets)

def ipv6OfBits (bits : BitVec 128) : Ipv6Addr where
  octets := beBytes 16 bits.toNat
  length_eq := beBytes_length 16 bits.toNat

theorem bits_of_octets {w n : Nat} (hw : 2 ^ w = 256 ^ n) (bits : BitVec w) :
    BitVec.ofNat w (ofBeBytes (beBytes n bits.toNat)) = bits := by
  have hlt := bits.isLt
  rw [hw] at hlt
  rw [ofBeBytes_beBytes, Nat.mod_eq_of_lt hlt, BitVec.ofNat_toNat, BitVec.setWidth_eq]

theorem ipv4ToBits_ofBits (bits : BitVec 32) : ipv4ToBits (ipv4OfBits bits) = bits :=
  bits_of_octets (by decide : 2 ^ 32 = 256 ^ 4) bits

theorem ipv6ToBits_ofBits (bits : BitVec 128) : ipv6ToBits (ipv6OfBits bits) = bits :=
  bits_of_octets (by decide : 2 ^ 128 = 256 ^ 16) bits

/-- `str::parse::<Ipv4Addr>`. -/
def parseIpv4 (text : List Char) : Option Ipv4Addr :=
  match IpText.readIpv4 text with
  | some (octets, []) => some (Udp.ipv4OfOctets octets)
  | _ => none

/-- `str::parse::<Ipv6Addr>`. -/
def parseIpv6 (text : List Char) : Option Ipv6Addr :=
  match IpText.readIpv6 text with
  | some (groups, []) => Udp.ipv6OfGroups groups
  | _ => none

/-!
## Networks
-/

def maskOf (w prefixLen : Nat) : BitVec w :=
  if prefixLen = 0 then 0 else BitVec.allOnes w <<< (w - prefixLen)

/-- `Ipv4Net` and `Ipv6Net`: the address has no bit outside the mask. -/
structure IpNet (w : Nat) where
  addr : BitVec w
  prefixLen : Nat
  mask : BitVec w
  prefixLen_le : prefixLen ≤ w
  mask_eq : mask = maskOf w prefixLen
  masked : addr &&& mask = addr
deriving DecidableEq, Repr

namespace IpNet

variable {w : Nat}

def new (addr : BitVec w) (prefixLen : Nat) (h : prefixLen ≤ w) : IpNet w where
  addr := addr &&& maskOf w prefixLen
  prefixLen := prefixLen
  mask := maskOf w prefixLen
  prefixLen_le := h
  mask_eq := rfl
  masked := by rw [BitVec.and_assoc, BitVec.and_self]

def contains (net : IpNet w) (ip : BitVec w) : Bool :=
  ip &&& net.mask = net.addr

theorem eq_of_contains {net other : IpNet w} (hlen : net.prefixLen = other.prefixLen)
    {ip : BitVec w} (hnet : net.contains ip = true) (hother : other.contains ip = true) :
    net = other := by
  have hmask : net.mask = other.mask := by rw [net.mask_eq, other.mask_eq, hlen]
  have haddr : net.addr = other.addr := by
    rw [<- of_decide_eq_true hnet, <- of_decide_eq_true hother, hmask]
  cases net
  cases other
  cases hlen
  cases hmask
  cases haddr
  rfl

theorem contains_addr (net : IpNet w) : net.contains net.addr = true :=
  decide_eq_true net.masked

end IpNet

inductive Net where
  | v4 (net : IpNet 32)
  | v6 (net : IpNet 128)
deriving DecidableEq, Repr

namespace Net

def parse (cidr : String) : Option Net :=
  match Lines.cut '/' cidr.toList with
  | none => none
  | some (ipStr, lenStr) =>
    match Server.parseU8 lenStr with
    | none => none
    | some prefixLen =>
      match parseIpv4 ipStr with
      | some addr =>
        if h : prefixLen ≤ 32 then some (.v4 (IpNet.new (ipv4ToBits addr) prefixLen h))
        else none
      | none =>
        match parseIpv6 ipStr with
        | some addr =>
          if h : prefixLen ≤ 128 then
            some (.v6 (IpNet.new (ipv6ToBits addr) prefixLen h))
          else none
        | none => none

def family : Net -> Nat
  | v4 _ => 4
  | v6 _ => 6

def prefixLen : Net -> Nat
  | v4 net => net.prefixLen
  | v6 net => net.prefixLen

def contains : Net -> IpAddr -> Bool
  | v4 net, .v4 ip => net.contains (ipv4ToBits ip)
  | v6 net, .v6 ip => net.contains (ipv6ToBits ip)
  | _, _ => false

def ip : Net -> IpAddr
  | v4 net => .v4 (ipv4OfBits net.addr)
  | v6 net => .v6 (ipv6OfBits net.addr)

/-- The `Display` of a network. -/
def toText : Net -> String
  | v4 net => (ipv4OfBits net.addr).toText ++ "/" ++ toString net.prefixLen
  | v6 net => (ipv6OfBits net.addr).toText ++ "/" ++ toString net.prefixLen

def overlaps (existing net : Net) : Bool :=
  existing.contains net.ip || net.contains existing.ip

theorem contains_ip (net : Net) : net.contains net.ip = true := by
  cases net with
  | v4 net =>
    rw [ip, contains, ipv4ToBits_ofBits]
    exact net.contains_addr
  | v6 net =>
    rw [ip, contains, ipv6ToBits_ofBits]
    exact net.contains_addr

theorem eq_of_contains {net other : Net} (hlen : net.prefixLen = other.prefixLen)
    {ip : IpAddr} (hnet : net.contains ip = true) (hother : other.contains ip = true) :
    net = other := by
  cases net with
  | v4 net =>
    cases other with
    | v4 other =>
      cases ip with
      | v4 ip => exact congrArg v4 (IpNet.eq_of_contains hlen hnet hother)
      | v6 ip => cases hnet
    | v6 other =>
      cases ip with
      | v4 ip => cases hother
      | v6 ip => cases hnet
  | v6 net =>
    cases other with
    | v4 other =>
      cases ip with
      | v4 ip => cases hnet
      | v6 ip => cases hother
    | v6 other =>
      cases ip with
      | v4 ip => cases hnet
      | v6 ip => exact congrArg v6 (IpNet.eq_of_contains hlen hnet hother)

theorem overlaps_iff {existing net : Net} (hlen : existing.prefixLen = net.prefixLen) :
    overlaps existing net = true ↔ existing = net := by
  rw [overlaps, Bool.or_eq_true]
  constructor
  · intro h
    rcases h with h | h
    · exact eq_of_contains hlen h net.contains_ip
    · exact eq_of_contains hlen existing.contains_ip h
  · intro h
    rw [h]
    exact .inl net.contains_ip

end Net

/-!
## The table
-/

abbrev NetRoute := Net × String

def NetRoute.prefixLen (route : NetRoute) : Nat :=
  route.1.prefixLen

/-- The routes of each virtual net, longest prefix first. -/
structure RouteTable where
  routes : Table String (List NetRoute)
  ranked : forall vnet, Ranked.Descending NetRoute.prefixLen ((routes.lookup vnet).getD [])

namespace RouteTable

def new : RouteTable where
  routes := ∅
  ranked := fun _ => List.Pairwise.nil

/-- `entry(vnet).or_default()`. -/
def entry (t : RouteTable) (vnet : String) : List NetRoute :=
  (t.routes.lookup vnet).getD []

variable (t : RouteTable)

theorem ranked_entry (vnet : String) :
    Ranked.Descending NetRoute.prefixLen (t.entry vnet) :=
  t.ranked vnet

def put (t : RouteTable) (vnet : String) (routes : List NetRoute)
    (h : Ranked.Descending NetRoute.prefixLen routes) : RouteTable where
  routes := t.routes.insert vnet routes
  ranked := by
    intro other
    rw [Table.lookup_insert_eq]
    split
    · exact h
    · exact t.ranked other

def drop (t : RouteTable) (vnet : String) : RouteTable where
  routes := t.routes.erase vnet
  ranked := by
    intro other
    rw [Table.lookup_erase_eq]
    split
    · exact List.Pairwise.nil
    · exact t.ranked other

def conflicts (name : String) (net : Net) (route : NetRoute) : Bool :=
  route.2 ≠ name && route.1.family = net.family &&
    (route.1.overlaps net && route.1.prefixLen = net.prefixLen)

def conflictText (vnet name : String) (net : Net) (existing : NetRoute) : String :=
  "subnet " ++ net.toText ++ " (for " ++ name ++ ") conflicts with existing " ++
    existing.1.toText ++ " (for " ++ existing.2 ++ ") in virtual net " ++ vnet ++
    ": same prefix length"

def retained (name : String) (family : Nat) (routes : List NetRoute) : List NetRoute :=
  routes.filter fun route => route.2 ≠ name || route.1.family ≠ family

theorem ranked_retained (vnet name : String) (family : Nat) :
    Ranked.Descending NetRoute.prefixLen (retained name family (t.entry vnet)) :=
  (t.ranked_entry vnet).sublist filter_sublist

def insert (search : Ranked.Search) (t : RouteTable) (vnet name cidr : String) :
    RouteTable × Except String Unit :=
  match Net.parse cidr with
  | none => (t, .error ("invalid CIDR: " ++ cidr))
  | some net =>
    match (t.entry vnet).find? (conflicts name net) with
    | some existing =>
      (t.put vnet (t.entry vnet) (t.ranked_entry vnet),
        .error (conflictText vnet name net existing))
    | none =>
      (t.put vnet
          (Ranked.insert search NetRoute.prefixLen (net, name)
            (retained name net.family (t.entry vnet)))
          (Ranked.descending_insert search _ (t.ranked_retained vnet name net.family)),
        .ok ())

def remove (t : RouteTable) (vnet name : String) : RouteTable :=
  match t.routes.lookup vnet with
  | none => t
  | some _ =>
    if ((t.entry vnet).filter fun route => route.2 ≠ name).isEmpty then t.drop vnet
    else
      t.put vnet ((t.entry vnet).filter fun route => route.2 ≠ name)
        ((t.ranked_entry vnet).sublist filter_sublist)

def lookup (t : RouteTable) (vnet : String) (ip : IpAddr) : Option String :=
  match t.routes.lookup vnet with
  | none => none
  | some routes => (routes.find? fun route => route.1.contains ip).map Prod.snd

variable {route : NetRoute}

theorem conflicts_iff {name : String} {net : Net} :
    conflicts name net route = true ↔ route.2 ≠ name ∧ route.1 = net := by
  rw [conflicts, Bool.and_eq_true, Bool.and_eq_true, Bool.and_eq_true, decide_eq_true_iff,
    decide_eq_true_iff, decide_eq_true_iff]
  constructor
  · intro h
    exact ⟨h.1.1, (Net.overlaps_iff h.2.2).mp h.2.1⟩
  · intro h
    rw [h.2]
    exact ⟨⟨h.1, rfl⟩, (Net.overlaps_iff rfl).mpr rfl, rfl⟩

theorem lookup_eq (vnet : String) (ip : IpAddr) :
    t.lookup vnet ip = ((t.entry vnet).find? fun route => route.1.contains ip).map Prod.snd := by
  rw [lookup, entry]
  split
  · rename_i hnone
    rw [hnone]
    rfl
  · rename_i routes hsome
    rw [hsome]
    rfl

theorem entry_put (vnet other : String) {routes : List NetRoute}
    (h : Ranked.Descending NetRoute.prefixLen routes) :
    (t.put vnet routes h).entry other = if other = vnet then routes else t.entry other := by
  rw [entry, put, Table.lookup_insert_eq]
  split <;> rfl

theorem entry_drop (vnet other : String) :
    (t.drop vnet).entry other = if other = vnet then [] else t.entry other := by
  rw [entry, drop, Table.lookup_erase_eq]
  split <;> rfl

theorem mem_retained {name : String} {family : Nat} {routes : List NetRoute} :
    route ∈ retained name family routes ↔
      route ∈ routes ∧ ¬ (route.2 = name ∧ route.1.family = family) := by
  rw [retained, mem_filter, Bool.or_eq_true, decide_eq_true_iff, decide_eq_true_iff,
    not_and_or]

theorem mem_entry_put {search : Ranked.Search} {t : RouteTable} {vnet name other : String}
    {net : Net} :
    route ∈ (t.put vnet
        (Ranked.insert search NetRoute.prefixLen (net, name)
          (retained name net.family (t.entry vnet)))
        (Ranked.descending_insert search _ (t.ranked_retained vnet name net.family))).entry other ↔
      (other = vnet ∧ route = (net, name)) ∨ (route ∈ t.entry other ∧
        ¬ (other = vnet ∧ route.2 = name ∧ route.1.family = net.family)) := by
  rw [entry_put]
  split
  · rename_i heq
    rw [Ranked.mem_insert (t.ranked_retained vnet name net.family), mem_retained, heq]
    constructor
    · intro h
      rcases h with hnew | hold
      · exact .inl ⟨rfl, hnew⟩
      · exact .inr ⟨hold.1, fun hkey => hold.2 hkey.2⟩
    · intro h
      rcases h with hnew | hold
      · exact .inl hnew.2
      · exact .inr ⟨hold.1, fun hkey => hold.2 ⟨rfl, hkey⟩⟩
  · rename_i hne
    constructor
    · intro h
      exact .inr ⟨h, fun hkey => hne hkey.1⟩
    · intro h
      rcases h with hnew | hold
      · exact absurd hnew.1 hne
      · exact hold.1

/-- What an insertion can do. -/
theorem insert_cases (search : Ranked.Search) (t : RouteTable) (vnet name cidr : String) :
    (exists text, (t.insert search vnet name cidr).2 = .error text ∧
      (forall other, (t.insert search vnet name cidr).1.entry other = t.entry other) ∧
      forall net, Net.parse cidr = some net ->
        exists route, route ∈ t.entry vnet ∧ route.2 ≠ name ∧ route.1 = net) ∨
    exists net, Net.parse cidr = some net ∧ (t.insert search vnet name cidr).2 = .ok () ∧
      (forall route, route ∈ t.entry vnet -> route.1 = net -> route.2 = name) ∧
      forall other route, route ∈ (t.insert search vnet name cidr).1.entry other ↔
        (other = vnet ∧ route = (net, name)) ∨ (route ∈ t.entry other ∧
          ¬ (other = vnet ∧ route.2 = name ∧ route.1.family = net.family)) := by
  rw [insert]
  cases hparse : Net.parse cidr with
  | none =>
    refine .inl ⟨_, rfl, fun _ => rfl, ?_⟩
    intro net h
    cases h
  | some net =>
    simp only
    cases hfind : (t.entry vnet).find? (conflicts name net) with
    | some existing =>
      refine .inl ⟨_, rfl, ?_, ?_⟩
      · intro other
        rw [entry_put]
        split
        · rename_i heq
          rw [heq]
        · rfl
      · intro net' h
        cases h
        exact ⟨existing, mem_of_find?_eq_some hfind,
          conflicts_iff.mp (find?_some hfind)⟩
    | none =>
      refine .inr ⟨net, rfl, rfl, ?_, ?_⟩
      · intro route hmem heq
        by_contra hne
        exact find?_eq_none.mp hfind route hmem (conflicts_iff.mpr ⟨hne, heq⟩)
      · intro other route
        exact mem_entry_put

theorem entry_remove (vnet name other : String) :
    (t.remove vnet name).entry other =
      if other = vnet then (t.entry vnet).filter fun route => route.2 ≠ name
      else t.entry other := by
  rw [remove]
  split
  · rename_i hnone
    split
    · rename_i heq
      rw [heq, entry, hnone]
      rfl
    · rfl
  · split
    · rename_i hempty
      rw [entry_drop, isEmpty_iff.mp hempty]
    · exact entry_put t vnet other _

theorem mem_remove {t : RouteTable} {vnet name other : String} :
    route ∈ (t.remove vnet name).entry other ↔
      route ∈ t.entry other ∧ ¬ (other = vnet ∧ route.2 = name) := by
  rw [entry_remove]
  split
  · rename_i heq
    rw [heq, mem_filter, decide_eq_true_iff]
    constructor
    · intro h
      exact ⟨h.1, fun hkey => h.2 hkey.2⟩
    · intro h
      exact ⟨h.1, fun hname => h.2 ⟨rfl, hname⟩⟩
  · rename_i hne
    constructor
    · intro h
      exact ⟨h, fun hkey => hne hkey.1⟩
    · intro h
      exact h.1

end RouteTable

/-!
## What the proxies hold
-/

abbrev Holdings := String -> String -> Nat -> Option Net

namespace Holdings

def hold (held : Holdings) (vnet name : String) (net : Net) : Holdings :=
  fun v n family => if v = vnet ∧ n = name ∧ family = net.family then some net else held v n family

def release (held : Holdings) (vnet name : String) : Holdings :=
  fun v n family => if v = vnet ∧ n = name then none else held v n family

/-- The proxy holds a network with the address, and none held in the net is longer. -/
def Longest (held : Holdings) (vnet : String) (ip : IpAddr) (name : String) : Prop :=
  exists family net, held vnet name family = some net ∧ net.contains ip = true ∧
    forall name' family' net', held vnet name' family' = some net' ->
      net'.contains ip = true -> net'.prefixLen ≤ net.prefixLen

end Holdings

inductive RouteCall where
  | insert (vnet name cidr : String)
  | remove (vnet name : String)
deriving DecidableEq, Repr

/-- The table, and the routes that were accepted last and not removed. -/
structure RouteLog where
  table : RouteTable
  held : Holdings

namespace RouteLog

def new : RouteLog where
  table := RouteTable.new
  held := fun _ _ _ => none

def step (search : Ranked.Search) (s : RouteLog) : RouteCall -> RouteLog
  | .insert vnet name cidr =>
    let inserted := s.table.insert search vnet name cidr
    { table := inserted.1
      held :=
        match inserted.2, Net.parse cidr with
        | .ok (), some net => s.held.hold vnet name net
        | _, _ => s.held }
  | .remove vnet name =>
    { table := s.table.remove vnet name
      held := s.held.release vnet name }

/-- The routes of a net are what its proxies hold, and no two proxies hold one network. -/
structure Agrees (s : RouteLog) : Prop where
  mem : forall vnet net name,
    (net, name) ∈ s.table.entry vnet ↔ s.held vnet name net.family = some net
  family : forall vnet name family net, s.held vnet name family = some net -> net.family = family
  distinct : forall vnet net name name', (net, name) ∈ s.table.entry vnet ->
    (net, name') ∈ s.table.entry vnet -> name = name'

theorem agrees_new : Agrees new where
  mem := by
    intro vnet net name
    constructor
    · intro h
      cases h
    · intro h
      cases h
  family := by
    intro vnet name family net h
    cases h
  distinct := by
    intro vnet net name name' h
    cases h

/-- A route is accepted: it takes the place of what the proxy held in the family. -/
theorem Agrees.accept {s s' : RouteLog} (h : Agrees s) {vnet name : String} {net : Net}
    (hfree : forall route, route ∈ s.table.entry vnet -> route.1 = net -> route.2 = name)
    (hentry : forall other route, route ∈ s'.table.entry other ↔
      (other = vnet ∧ route = (net, name)) ∨ (route ∈ s.table.entry other ∧
        ¬ (other = vnet ∧ route.2 = name ∧ route.1.family = net.family)))
    (hheld : s'.held = s.held.hold vnet name net) : Agrees s' := by
  constructor
  · intro other owned owner
    rw [hentry, hheld, Holdings.hold]
    split
    · rename_i hkey
      rw [Option.some.injEq]
      constructor
      · intro hor
        rcases hor with hnew | hold
        · cases hnew.2
          rfl
        · exact absurd hkey hold.2
      · intro heq
        rw [heq, hkey.2.1]
        exact .inl ⟨hkey.1, rfl⟩
    · rename_i hkey
      rw [<- h.mem other]
      constructor
      · intro hor
        rcases hor with hnew | hold
        · cases hnew.2
          exact absurd ⟨hnew.1, rfl, rfl⟩ hkey
        · exact hold.1
      · intro hold
        exact .inr ⟨hold, hkey⟩
  · intro other owner family owned hown
    rw [hheld, Holdings.hold] at hown
    split at hown
    · rename_i hkey
      cases hown
      exact hkey.2.2.symm
    · exact h.family other owner family owned hown
  · intro other owned owner owner' hin hin'
    rw [hentry] at hin hin'
    rcases hin with hnew | hold
    · cases hnew.2
      rcases hin' with hnew' | hold'
      · cases hnew'.2
        rfl
      · rw [hnew.1] at hold'
        exact (hfree _ hold'.1 rfl).symm
    · rcases hin' with hnew' | hold'
      · cases hnew'.2
        rw [hnew'.1] at hold
        exact hfree _ hold.1 rfl
      · exact h.distinct other owned owner owner' hold.1 hold'.1

variable {s : RouteLog}

theorem Agrees.release (h : Agrees s) (vnet name : String) :
    Agrees ⟨s.table.remove vnet name, s.held.release vnet name⟩ := by
  constructor
  · intro other owned owner
    change _ ↔ s.held.release vnet name other owner owned.family = some owned
    rw [RouteTable.mem_remove, h.mem, Holdings.release]
    split
    · rename_i hkey
      constructor
      · intro hin
        exact absurd hkey hin.2
      · intro hnone
        cases hnone
    · rename_i hkey
      constructor
      · intro hin
        exact hin.1
      · intro hin
        exact ⟨hin, hkey⟩
  · intro other owner family owned hown
    change s.held.release vnet name other owner family = some owned at hown
    rw [Holdings.release] at hown
    split at hown
    · cases hown
    · exact h.family other owner family owned hown
  · intro other owned owner owner' hin hin'
    exact h.distinct other owned owner owner' (RouteTable.mem_remove.mp hin).1
      (RouteTable.mem_remove.mp hin').1

theorem agrees_step (search : Ranked.Search) (h : Agrees s) (call : RouteCall) :
    Agrees (s.step search call) := by
  cases call with
  | insert vnet name cidr =>
    rcases s.table.insert_cases search vnet name cidr with
      ⟨text, hresult, hsame, _⟩ | ⟨net, hparse, hresult, hfree, hentry⟩
    · have hheld : (s.step search (.insert vnet name cidr)).held = s.held := by
        rw [step]
        rw [hresult]
      have hentry : forall other,
          (s.step search (.insert vnet name cidr)).table.entry other = s.table.entry other :=
        hsame
      constructor
      · intro other
        rw [hentry, hheld]
        exact h.mem other
      · intro other
        rw [hheld]
        exact h.family other
      · intro other
        rw [hentry]
        exact h.distinct other
    · refine h.accept hfree hentry ?_
      rw [step]
      rw [hresult, hparse]
  | remove vnet name =>
    exact h.release vnet name

theorem agrees_run (search : Ranked.Search) (calls : List RouteCall) :
    Agrees (Run.run (step search) new calls) :=
  @Run.run_preserves _ _ _ Agrees (fun _ call h => agrees_step search h call) _ calls agrees_new

/-!
## Longest prefix
-/

theorem Agrees.mem_of_held (h : Agrees s) {vnet name : String} {family : Nat} {net : Net}
    (hheld : s.held vnet name family = some net) :
    (net, name) ∈ s.table.entry vnet := by
  rw [h.mem, h.family vnet name family net hheld]
  exact hheld

theorem Agrees.lookup_none (h : Agrees s) (vnet : String) (ip : IpAddr) :
    s.table.lookup vnet ip = none ↔
      forall name family net, s.held vnet name family = some net -> net.contains ip = false := by
  rw [RouteTable.lookup_eq, Option.map_eq_none_iff, find?_eq_none]
  constructor
  · intro hnone name family net hheld
    exact Bool.eq_false_iff.mpr (hnone (net, name) (h.mem_of_held hheld))
  · intro hall route hmem
    rw [hall route.2 route.1.family route.1 ((h.mem vnet route.1 route.2).mp hmem)]
    exact Bool.false_ne_true

variable {vnet : String}

theorem Agrees.longest_of_lookup (h : Agrees s) {ip : IpAddr} {name : String}
    (hlookup : s.table.lookup vnet ip = some name) :
    s.held.Longest vnet ip name := by
  rw [RouteTable.lookup_eq, Option.map_eq_some_iff] at hlookup
  rcases hlookup with ⟨route, hfind, hname⟩
  have hmem : (route.1, name) ∈ s.table.entry vnet := by
    rw [<- hname]
    exact mem_of_find?_eq_some hfind
  have hcontains := find?_some hfind
  refine ⟨route.1.family, route.1, (h.mem vnet route.1 name).mp hmem, hcontains, ?_⟩
  intro name' family' net' hheld hcontains'
  exact (s.table.ranked_entry vnet).find_best hfind (h.mem_of_held hheld) hcontains'

theorem Agrees.longest_unique (h : Agrees s) {ip : IpAddr} {name name' : String}
    (hlongest : s.held.Longest vnet ip name) (hlongest' : s.held.Longest vnet ip name') :
    name = name' := by
  rcases hlongest with ⟨family, net, hheld, hcontains, hbest⟩
  rcases hlongest' with ⟨family', net', hheld', hcontains', hbest'⟩
  have hle := hbest' name family net hheld hcontains
  have hge := hbest name' family' net' hheld' hcontains'
  have hnet : net = net' := Net.eq_of_contains (Nat.le_antisymm hle hge) hcontains hcontains'
  have hmem := h.mem_of_held hheld
  rw [hnet] at hmem
  exact h.distinct vnet net' name name' hmem (h.mem_of_held hheld')

theorem Agrees.lookup_some (h : Agrees s) (vnet : String) (ip : IpAddr) (name : String) :
    s.table.lookup vnet ip = some name ↔ s.held.Longest vnet ip name := by
  constructor
  · exact h.longest_of_lookup
  · intro hlongest
    cases hlookup : s.table.lookup vnet ip with
    | none =>
      rcases hlongest with ⟨family, net, hheld, hcontains, _⟩
      rw [(h.lookup_none vnet ip).mp hlookup name family net hheld] at hcontains
      cases hcontains
    | some owner =>
      rw [h.longest_unique (h.longest_of_lookup hlookup) hlongest]

theorem Agrees.lookup_congr {s s' : RouteLog} (h : Agrees s) (h' : Agrees s')
    (hheld : s.held vnet = s'.held vnet) (ip : IpAddr) :
    s.table.lookup vnet ip = s'.table.lookup vnet ip := by
  apply Option.ext
  intro name
  rw [h.lookup_some, h'.lookup_some, Holdings.Longest, Holdings.Longest, hheld]

end RouteLog

/-!
## Precompiled prefixes
-/

structure RoutePrefixes where
  v4 : List (BitVec 32 × BitVec 32)
  v6 : List (BitVec 128 × BitVec 128)
deriving DecidableEq, Repr

namespace RoutePrefixes

def new : RoutePrefixes where
  v4 := []
  v6 := []

def insertCidr (prefixes : RoutePrefixes) (cidr : String) : RoutePrefixes × Bool :=
  match Net.parse cidr with
  | some (.v4 net) => ({ prefixes with v4 := prefixes.v4 ++ [(net.addr, net.mask)] }, true)
  | some (.v6 net) => ({ prefixes with v6 := prefixes.v6 ++ [(net.addr, net.mask)] }, true)
  | none => (prefixes, false)

def contains (prefixes : RoutePrefixes) : IpAddr -> Bool
  | .v4 ip => prefixes.v4.any fun p => ipv4ToBits ip &&& p.2 = p.1
  | .v6 ip => prefixes.v6.any fun p => ipv6ToBits ip &&& p.2 = p.1

end RoutePrefixes

structure PrecompiledSubnet where
  cidr : String
  prefixes : RoutePrefixes
deriving DecidableEq, Repr

namespace PrecompiledSubnet

def new (cidr : String) : PrecompiledSubnet where
  cidr := cidr
  prefixes := (RoutePrefixes.new.insertCidr cidr).1

def contains (subnet : PrecompiledSubnet) (ip : IpAddr) : Bool :=
  subnet.prefixes.contains ip

theorem new_contains (cidr : String) (ip : IpAddr) :
    (new cidr).contains ip = true ↔ exists net, Net.parse cidr = some net ∧ net.contains ip := by
  rw [contains, new, RoutePrefixes.insertCidr]
  cases hparse : Net.parse cidr with
  | none =>
    cases ip with
    | v4 ip => simp [RoutePrefixes.contains, RoutePrefixes.new]
    | v6 ip => simp [RoutePrefixes.contains, RoutePrefixes.new]
  | some net =>
    cases net with
    | v4 net =>
      cases ip with
      | v4 ip =>
        simp [RoutePrefixes.contains, RoutePrefixes.new, Net.contains, IpNet.contains]
      | v6 ip => simp [RoutePrefixes.contains, RoutePrefixes.new, Net.contains]
    | v6 net =>
      cases ip with
      | v4 ip => simp [RoutePrefixes.contains, RoutePrefixes.new, Net.contains]
      | v6 ip =>
        simp [RoutePrefixes.contains, RoutePrefixes.new, Net.contains, IpNet.contains]

end PrecompiledSubnet

/-- A table without routes accepts every network. -/
theorem RouteTable.new_insert (search : Ranked.Search) (vnet name cidr : String) (ip : IpAddr) :
    ((RouteTable.new.insert search vnet name cidr).2 = .ok () ∧
        (RouteTable.new.insert search vnet name cidr).1.lookup vnet ip = some name) ↔
      exists net, Net.parse cidr = some net ∧ net.contains ip = true := by
  have hempty : forall other, RouteTable.new.entry other = [] := fun _ => rfl
  rcases RouteTable.new.insert_cases search vnet name cidr with
    ⟨text, hresult, _, hnone⟩ | ⟨net, hparse, hresult, _, hentry⟩
  · constructor
    · intro h
      rw [hresult] at h
      cases h.1
    · intro h
      rcases h with ⟨net, hparse, _⟩
      rcases hnone net hparse with ⟨route, hmem, _⟩
      cases hmem
  · have honly : forall route, route ∈ (RouteTable.new.insert search vnet name cidr).1.entry vnet ->
        route = (net, name) := by
      intro route hmem
      rcases (hentry vnet route).mp hmem with hnew | hold
      · exact hnew.2
      · cases hold.1
    rw [hresult, RouteTable.lookup_eq, Option.map_eq_some_iff, hparse]
    constructor
    · intro h
      rcases h.2 with ⟨route, hfind, _⟩
      have hcontains := find?_some hfind
      rw [honly route (mem_of_find?_eq_some hfind)] at hcontains
      exact ⟨net, rfl, hcontains⟩
    · intro h
      rcases h with ⟨net', heq, hcontains⟩
      cases heq
      refine ⟨rfl, ?_⟩
      cases hfind : ((RouteTable.new.insert search vnet name cidr).1.entry vnet).find?
          fun route => route.1.contains ip with
      | none =>
        have hin := (hentry vnet (net, name)).mpr (.inl ⟨rfl, rfl⟩)
        exact absurd hcontains (find?_eq_none.mp hfind (net, name) hin)
      | some route =>
        rw [honly route (mem_of_find?_eq_some hfind)]
        exact ⟨(net, name), rfl, rfl⟩

/-- Whatever was inserted and removed, in any net: an address goes to the holder of the longest
network that contains it, no two proxies of a net hold one network, the order of the calls
leaves no trace, and a refused insertion is without effect.  A precompiled subnet answers like
a table with that one route. -/
theorem route_table_longest_prefix (search : Ranked.Search) (calls : List RouteCall) :
    (forall vnet ip name, (Run.run (RouteLog.step search) .new calls).table.lookup vnet ip =
        some name ↔ (Run.run (RouteLog.step search) .new calls).held.Longest vnet ip name) ∧
    (forall vnet ip, (Run.run (RouteLog.step search) .new calls).table.lookup vnet ip = none ↔
      forall name family net,
        (Run.run (RouteLog.step search) .new calls).held vnet name family = some net ->
          net.contains ip = false) ∧
    (forall vnet name name' family family' net,
      (Run.run (RouteLog.step search) .new calls).held vnet name family = some net ->
      (Run.run (RouteLog.step search) .new calls).held vnet name' family' = some net ->
        name = name') ∧
    (forall search' calls' vnet,
      (Run.run (RouteLog.step search) .new calls).held vnet =
        (Run.run (RouteLog.step search') .new calls').held vnet ->
      forall ip, (Run.run (RouteLog.step search) .new calls).table.lookup vnet ip =
        (Run.run (RouteLog.step search') .new calls').table.lookup vnet ip) ∧
    (forall vnet name cidr text,
      ((Run.run (RouteLog.step search) .new calls).table.insert search vnet name cidr).2 =
        .error text ->
      forall other ip,
        ((Run.run (RouteLog.step search) .new calls).table.insert search vnet name cidr).1.lookup
            other ip =
          (Run.run (RouteLog.step search) .new calls).table.lookup other ip) ∧
    forall vnet name cidr ip, (PrecompiledSubnet.new cidr).contains ip = true ↔
      (RouteTable.new.insert search vnet name cidr).2 = .ok () ∧
        (RouteTable.new.insert search vnet name cidr).1.lookup vnet ip = some name := by
  have hagrees := RouteLog.agrees_run search calls
  generalize Run.run (RouteLog.step search) .new calls = s at hagrees
  refine ⟨hagrees.lookup_some, hagrees.lookup_none, ?_, ?_, ?_, ?_⟩
  · intro vnet name name' family family' net hheld hheld'
    exact hagrees.distinct vnet net name name' (hagrees.mem_of_held hheld)
      (hagrees.mem_of_held hheld')
  · intro search' calls' vnet hheld ip
    exact hagrees.lookup_congr (RouteLog.agrees_run search' calls') hheld ip
  · intro vnet name cidr text hresult other ip
    rcases s.table.insert_cases search vnet name cidr with
      ⟨_, _, hsame, _⟩ | ⟨_, _, haccepted, _⟩
    · rw [RouteTable.lookup_eq, RouteTable.lookup_eq, hsame]
    · rw [haccepted] at hresult
      cases hresult
  · intro vnet name cidr ip
    rw [PrecompiledSubnet.new_contains, RouteTable.new_insert]

end Vnet
end FrpRs
