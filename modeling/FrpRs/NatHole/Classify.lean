import FrpRs.Data.IpText

/-!
# NAT classification

`frp-server/src/nathole/classify.rs`: what the addresses that a peer discovered over
STUN say about its NAT.
-/

namespace FrpRs
namespace NatHole

open IpText

inductive NatType where
  | easyNat
  | hardNat
deriving DecidableEq, Repr

inductive NatBehavior where
  | noChange
  | ipChanged
  | portChanged
  | bothChanged
deriving DecidableEq, Repr

def NatType.text : NatType -> String
  | .easyNat => "EasyNAT"
  | .hardNat => "HardNAT"

def NatBehavior.text : NatBehavior -> String
  | .noChange => "BehaviorNoChange"
  | .ipChanged => "BehaviorIPChanged"
  | .portChanged => "BehaviorPortChanged"
  | .bothChanged => "BehaviorBothChanged"

structure NatFeature where
  natType : NatType
  behavior : NatBehavior
  portsDifference : Int
  regularPortsChange : Bool
  publicNetwork : Bool
deriving DecidableEq, Repr

/-!
## Addresses
-/

def parseDigits (text : List Char) : Option Nat :=
  let run := digitRun 10 text
  if run.1.isEmpty || !run.2.isEmpty then none else some (evalDigits 10 run.1)

/-- `str::parse::<i32>`: an optional sign and decimal digits, within 32 bits. -/
def parseI32 (text : List Char) : Option Int :=
  match text with
  | '-' :: digits => (parseDigits digits).bind fun n => if n ≤ 2 ^ 31 then some (-n) else none
  | '+' :: digits => (parseDigits digits).bind fun n => if n < 2 ^ 31 then some n else none
  | digits => (parseDigits digits).bind fun n => if n < 2 ^ 31 then some n else none

def splitLast (sep : Char) : List Char -> Option (List Char × List Char)
  | [] => none
  | c :: text =>
    match splitLast sep text with
    | some (before, after) => some (c :: before, after)
    | none => if c = sep then some ([], text) else none

def splitFirst (sep : Char) : List Char -> Option (List Char × List Char)
  | [] => none
  | c :: text =>
    if c = sep then some ([], text)
    else (splitFirst sep text).map fun parts => (c :: parts.1, parts.2)

def parsePort (addr : String) (ip port : List Char) : Except String (String × Int) :=
  match parseI32 port with
  | some n => .ok (String.ofList ip, n)
  | none => .error ("invalid port in: " ++ addr)

/-- Behind a closing bracket one byte is skipped unread, whatever it is; the slice
fails where it would cut into a longer character. -/
def splitHostPort (addr : String) : Except String (String × Int) :=
  match addr.toList with
  | '[' :: text =>
    match splitFirst ']' text with
    | none => .error ("unclosed bracket in: " ++ addr)
    | some (ip, skipped :: port) =>
      if skipped.utf8Size = 1 then parsePort addr ip port
      else .error ("missing port after bracket in: " ++ addr)
    | some (_, []) => .error ("missing port after bracket in: " ++ addr)
  | text =>
    match splitLast ':' text with
    | none => .error ("missing port separator in: " ++ addr)
    | some (ip, port) => parsePort addr ip port

def splitPeerAddr (addr : String) : Except String (String × Int) :=
  match splitHostPort addr with
  | .error e => .error e
  | .ok (ip, port) =>
    if 0 ≤ port ∧ port ≤ 65535 then .ok (ip, port)
    else .error ("port out of range (0-65535): " ++ addr)

def parseIps (addrs : List String) : List String :=
  addrs.filterMap fun addr => (splitHostPort addr).toOption.map Prod.fst

/-!
## Features
-/

/-- What the loop over the addresses accumulates. -/
structure Observed where
  ipChanged : Bool
  portChanged : Bool
  portMax : Int
  portMin : Int
  publicNetwork : Bool

def observe (localIps : List String) (firstIp : String) (firstPort : Int) (o : Observed)
    (addr : String) : Except String Observed :=
  match splitPeerAddr addr with
  | .error e => .error e
  | .ok (ip, port) =>
    .ok
      { ipChanged := o.ipChanged || ip ≠ firstIp
        portChanged := o.portChanged || port ≠ firstPort
        portMax := max o.portMax port
        portMin := min o.portMin port
        publicNetwork := o.publicNetwork || localIps.contains ip }

def Observed.natType (o : Observed) : NatType :=
  if o.ipChanged || o.portChanged then .hardNat else .easyNat

def Observed.behavior (o : Observed) : NatBehavior :=
  if o.ipChanged && o.portChanged then .bothChanged
  else if o.ipChanged then .ipChanged
  else if o.portChanged then .portChanged
  else .noChange

def Observed.feature (o : Observed) : NatFeature where
  natType := o.natType
  behavior := o.behavior
  portsDifference := o.portMax - o.portMin
  regularPortsChange :=
    o.behavior = .portChanged && (1 ≤ o.portMax - o.portMin && o.portMax - o.portMin ≤ 5)
  publicNetwork := o.publicNetwork

def classifyNatFeature (addresses localIps : List String) : Except String NatFeature :=
  match addresses with
  | first :: second :: rest =>
    match splitPeerAddr first with
    | .error e => .error e
    | .ok (firstIp, firstPort) =>
      let baseline : Observed :=
        { ipChanged := false
          portChanged := false
          portMax := max 0 firstPort
          portMin := min 65535 firstPort
          publicNetwork := localIps.contains firstIp }
      match (second :: rest).foldlM (observe localIps firstIp firstPort) baseline with
      | .error e => .error e
      | .ok o => .ok o.feature
  | _ => .error "insufficient addresses for NAT classification"

structure FeatureCount where
  easy : Nat
  hard : Nat
  regular : Nat

def classifyFeatureCount (features : List NatFeature) : FeatureCount where
  easy := features.countP fun f => f.natType = .easyNat
  hard := features.countP fun f => f.natType ≠ .easyNat
  regular := features.countP fun f => f.natType ≠ .easyNat && f.regularPortsChange

end NatHole
end FrpRs
