import FrpRs.Data.Text
import FrpRs.NatHole.Analysis

/-!
# Hole-punch responses

The messages of the NAT-hole exchange, the analysis key and the response that the
server builds for each peer (`frp-server/src/nathole/controller.rs`, and the analysis
part shared by both visitor paths).  The MD5 digest, in hexadecimal, is a parameter.
-/

namespace FrpRs
namespace NatHole

/-!
## Messages
-/

structure NatHoleVisitor where
  transactionId : String
  proxyName : String
  protocol : Option String
  mappedAddrs : Option (List String)
  assistedAddrs : Option (List String)
deriving DecidableEq

structure NatHoleClient where
  transactionId : String
  sid : Option String
  protocol : Option String
  mappedAddrs : Option (List String)
  assistedAddrs : Option (List String)
deriving DecidableEq

structure NatHoleReport where
  sid : Option String
  success : Bool
deriving DecidableEq

/-- `PortsRange` of `frp-core/src/msg.rs`, not the range of the server's configuration. -/
structure PortsRange where
  first : Int
  last : Int
deriving DecidableEq

structure NatHoleDetectBehavior where
  mode : Nat
  role : Option Role
  ttl : Int
  sendDelayMs : Int
  readTimeoutMs : Int
  sendRandomPorts : Int
  listenRandomPorts : Int
  candidatePorts : Option (List PortsRange)
deriving DecidableEq

structure NatHoleResp where
  transactionId : String
  error : Option String
  sid : Option String
  protocol : Option String
  candidateAddrs : Option (List String)
  assistedAddrs : Option (List String)
  detectBehavior : Option NatHoleDetectBehavior
deriving DecidableEq

/-!
## The analysis key
-/

def extractIpFromAddr (addr : String) : Option String :=
  match Text.trim addr.toList with
  | [] => none
  | '[' :: text => (splitFirst ']' text).map fun parts => String.ofList parts.1
  | text => (splitLast ':' text).map fun parts => String.ofList parts.1

def firstIp (mapped : List String) : String :=
  ((mapped.head?).bind extractIpFromAddr).getD ""

def keyPart (f : NatFeature) (mapped : List String) : String :=
  firstIp mapped ++ f.natType.text ++ f.behavior.text
    ++ (if f.regularPortsChange then "true" else "false")

def genAnalysisKey (md5 : String -> String) (c v : NatFeature)
    (clientMapped visitorMapped : List String) : String :=
  md5 (keyPart v visitorMapped ++ keyPart c clientMapped)

/-!
## Building a response
-/

structure NatHoleResponseParams where
  transactionId : String
  sid : String
  protocol : Option String
  mode : Nat
  candidateAddrs : List String
  assistedAddrs : List String
  behavior : RecommendBehavior
  readTimeoutMs : Int
  portsDifference : Int

def present (addrs : List String) : Option (List String) :=
  if addrs.isEmpty then none else some addrs

def lastPart (addr : String) : List Char :=
  match splitLast ':' addr.toList with
  | some (_, part) => part
  | none => addr.toList

def candidatePorts (behavior : RecommendBehavior) (portsDifference : Int)
    (candidates : List String) : Option (List PortsRange) :=
  if behavior.portsRangeNumber > 0 then
    candidates.getLast?.bind fun addr =>
      (parseI32 (lastPart addr)).map fun port =>
        [ { first := max (max (port - portsDifference - 5) (port - behavior.portsRangeNumber)) 1
            last :=
              min (min (port + portsDifference + 5) (port + behavior.portsRangeNumber)) 65535 } ]
  else none

def buildNatHoleResponse (p : NatHoleResponseParams) : NatHoleResp :=
  { transactionId := p.transactionId
    error := none
    sid := some p.sid
    protocol := p.protocol
    candidateAddrs := present p.candidateAddrs.eraseDups
    assistedAddrs := present p.assistedAddrs.eraseDups
    detectBehavior := some
      { mode := p.mode
        role := some p.behavior.role
        ttl := p.behavior.ttl
        sendDelayMs := p.behavior.sendDelayMs
        readTimeoutMs := p.readTimeoutMs
        sendRandomPorts := p.behavior.portsRandomNumber
        listenRandomPorts := p.behavior.listenRandomPorts
        candidatePorts :=
          candidatePorts p.behavior p.portsDifference p.candidateAddrs.eraseDups } }

/-!
## Analysis
-/

/-- What the analysis of one exchange works on. -/
structure Exchange where
  visitor : NatHoleVisitor
  client : NatHoleClient

namespace Exchange

def visitorMapped (x : Exchange) : List String := x.visitor.mappedAddrs.getD []

def visitorAssisted (x : Exchange) : List String := x.visitor.assistedAddrs.getD []

def clientMapped (x : Exchange) : List String := x.client.mappedAddrs.getD []

def clientAssisted (x : Exchange) : List String := x.client.assistedAddrs.getD []

def vFeature (x : Exchange) : Option NatFeature :=
  (classifyNatFeature x.visitorMapped (parseIps x.visitorAssisted)).toOption

def cFeature (x : Exchange) : Option NatFeature :=
  (classifyNatFeature x.clientMapped (parseIps x.clientAssisted)).toOption

def features (x : Exchange) : Option (NatFeature × NatFeature) :=
  match x.vFeature, x.cFeature with
  | some vf, some cf => some (cf, vf)
  | _, _ => none

def providerProtocol (x : Exchange) : Option String :=
  x.visitor.protocol.or x.client.protocol

def timeoutMs (r : Recommendation) : Int :=
  let extra : Int :=
    if r.cBehavior.listenRandomPorts > 0 ∨ r.vBehavior.listenRandomPorts > 0 then 30000 else 0
  max r.cBehavior.sendDelayMs r.vBehavior.sendDelayMs + 5000 + extra

/-- The responses for the visitor and the provider. -/
def responses (x : Exchange) (cf vf : NatFeature) (r : Recommendation) :
    NatHoleResp × NatHoleResp :=
  ( buildNatHoleResponse
      { transactionId := x.visitor.transactionId
        sid := x.visitor.transactionId
        protocol := x.visitor.protocol
        mode := r.mode
        candidateAddrs := x.clientMapped
        assistedAddrs := x.clientAssisted
        behavior := r.vBehavior
        readTimeoutMs := timeoutMs r - r.vBehavior.sendDelayMs
        portsDifference := cf.portsDifference },
    buildNatHoleResponse
      { transactionId := x.client.transactionId
        sid := x.visitor.transactionId
        protocol := x.providerProtocol
        mode := r.mode
        candidateAddrs := x.visitorMapped
        assistedAddrs := x.visitorAssisted
        behavior := r.cBehavior
        readTimeoutMs := timeoutMs r - r.cBehavior.sendDelayMs
        portsDifference := vf.portsDifference } )

/-- The exchange without analysis: each peer gets the other's addresses. -/
def plainResponses (x : Exchange) : NatHoleResp × NatHoleResp :=
  ( { transactionId := x.visitor.transactionId
      error := none
      sid := some x.visitor.transactionId
      protocol := x.visitor.protocol
      candidateAddrs := present x.clientMapped
      assistedAddrs := present x.clientAssisted
      detectBehavior := none },
    { transactionId := x.client.transactionId
      error := none
      sid := some x.visitor.transactionId
      protocol := x.providerProtocol
      candidateAddrs := present x.visitorMapped
      assistedAddrs := present x.visitorAssisted
      detectBehavior := none } )

def analysisKey (x : Exchange) (md5 : String -> String) (cf vf : NatFeature) : String :=
  genAnalysisKey md5 cf vf x.clientMapped x.visitorMapped

end Exchange

end NatHole
end FrpRs
