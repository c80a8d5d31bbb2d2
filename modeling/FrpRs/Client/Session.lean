import FrpRs.Client.Reload

/-!
# A control session of the client

The senders of `NewProxy` in one session: `register_proxies` in
`frp-client/src/service/registration.rs`, and in `message_loop.rs` the retry tick, the events of
health monitors, the answers of the server, and reloads.  All of them share the phases of
`proxy_info_map`.

Times are inputs: which names are due for a retry.  So are the answers of the writer.  The last
event that every monitor delivered in this session is recorded.
-/

namespace FrpRs
namespace Client

inductive HealthKind where
  | close
  | recover
deriving DecidableEq

structure Session where
  service : Service
  /-- The user the session was opened with. -/
  cfgUser : Text
  /-- The wire names whose registration the server has not answered. -/
  pending : List Text
  /-- The last event of every monitor, by its wire name and its number. -/
  last : Table (Text × Nat) HealthKind

/-!
## Phases
-/

def Service.setInfo (s : Service) (name : Text) (f : ProxyRuntimeInfo -> ProxyRuntimeInfo) :
    Service :=
  match s.proxyInfoMap.lookup name with
  | some info => { s with proxyInfoMap := s.proxyInfoMap.insert name (f info) }
  | none => s

def ProxyRuntimeInfo.fail (error : Text) (info : ProxyRuntimeInfo) : ProxyRuntimeInfo :=
  { info with err := error, phase := .startErr error }

def ProxyRuntimeInfo.start (info : ProxyRuntimeInfo) : ProxyRuntimeInfo :=
  { info with err := [], phase := .running }

def ProxyPhase.isWaiting : ProxyPhase -> Bool
  | .waitStart => true
  | .startErr _ => true
  | _ => false

def localAddrFor (s : Service) (name : Text) (p : ProxyConfig) : Text :=
  ((s.proxyInfoMap.lookup name).map ProxyRuntimeInfo.localAddr).getD
    (p.localIp ++ ':' :: natText p.localPort)

/-!
## Registration
-/

/-- One request of the registration batch.  Monitored proxies wait for their first probe. -/
def registerProxy (writeError : Text -> Option Text) (t : Session × List Message)
    (p : ProxyConfig) : Session × List Message :=
  if healthCheckMonitored p then t
  else
    let name := wireProxyName t.1.cfgUser p.name
    match writeError name with
    | some e =>
      ({ t.1 with service := t.1.service.setInfo name (ProxyRuntimeInfo.fail e) }, t.2)
    | none =>
      ({ t.1 with pending := t.1.pending ++ [name] },
        t.2 ++ [createNewProxyMsg p (localAddrFor t.1.service name p) t.1.cfgUser])

def registerProxies (s : Service) (writeError : Text -> Option Text) : Session × List Message :=
  (filterActiveProxies s.cfg s.proxies).foldl (registerProxy writeError)
    (⟨s, s.cfg.user, [], ∅⟩, [])

def handleRegistrationResp (t : Session) (name : Text) (error : Option Text) : Session :=
  if t.pending.contains name then
    { t with
      pending := t.pending.erase name
      service := match error with
        | some e => t.service.setInfo name (ProxyRuntimeInfo.fail e)
        | none => t.service.setInfo name ProxyRuntimeInfo.start }
  else t

def failPending (t : Session) (error : Text) : Session :=
  { t with
    pending := []
    service := t.pending.foldl (fun s name => s.setInfo name (ProxyRuntimeInfo.fail error))
      t.service }

/-!
## Answers of the server
-/

def handleNewProxyResp (t : Session) (name : Text) (error : Option Text) : Session :=
  match error.filter (· ≠ []) with
  | some e =>
    { t with service := t.service.setInfo name fun info =>
        if info.phase = .waitStart then info.fail e else info }
  | none =>
    { t with service := t.service.setInfo name fun info =>
        if info.phase.isWaiting then info.start else info }

/-- A proxy whose registration is under way is not closed. -/
def handleCloseProxy (t : Session) (name : Text) : Session :=
  if (t.service.proxyInfoMap.lookup name).any fun info =>
      info.phase = .new || info.phase = .waitStart then t
  else
    let s := t.service.setInfo name fun info => { info with phase := .closed }
    { t with
      service := { s with
        healthCancels := s.healthCancels.erase name
        pluginHandles := s.pluginHandles.erase (stripUser t.cfgUser name) } }

/-!
## Retries
-/

/-- The failed and then the waiting proxies that are due. -/
def retryList (map : Table Text ProxyRuntimeInfo) (due : Text -> Bool) : List (Text × Text) :=
  ((map.entries.filter fun e => match e.2.phase with
      | .startErr _ => due e.1
      | _ => false) ++
    (map.entries.filter fun e => e.2.phase = .waitStart && due e.1)).map fun e =>
      (e.1, e.2.localAddr)

def retryProxy (candidates : List ProxyConfig) (accepts : Text -> Bool)
    (t : Session × List Message) (entry : Text × Text) : Session × List Message :=
  match findProxy candidates (stripUser t.1.cfgUser entry.1) with
  | none => t
  | some p =>
    if accepts entry.1 then
      ({ t.1 with service := t.1.service.setInfo entry.1 fun info =>
          { info with phase := .waitStart } },
        t.2 ++ [createNewProxyMsg p entry.2 t.1.cfgUser])
    else t

def handleProxyRetryTick (t : Session) (due accepts : Text -> Bool) : Session × List Message :=
  (retryList t.service.proxyInfoMap due).foldl
    (retryProxy (filterActiveProxies t.service.cfg t.service.proxies) accepts) (t, [])

/-!
## Health events
-/

def handleHealthEvent (t : Session) (kind : HealthKind) (name : Text) (accepted : Bool) :
    Session × List Message :=
  match kind with
  | .close =>
    ({ t with service := t.service.setInfo name fun info => { info with phase := .checkFailed } },
      if accepted then [.closeProxy name] else [])
  | .recover =>
    match t.service.healthProxyConfigs.lookup name with
    | none => (t, [])
    | some p =>
      ({ t with service := t.service.setInfo name fun info => { info with phase := .waitStart } },
        if accepted then [createNewProxyMsg p (localAddrFor t.service name p) t.cfgUser] else [])

/-!
## Steps
-/

inductive SessionEvent where
  /-- An answer to the registration batch. -/
  | registrationResp (name : Text) (error : Option Text)
  | registrationFailed (error : Text)
  | newProxyResp (name : Text) (error : Option Text)
  | closeProxy (name : Text)
  | retryTick (due accepts : Text -> Bool)
  /-- An event of a monitor, with the number of the monitor. -/
  | health (monitor : Nat) (kind : HealthKind) (name : Text) (accepted : Bool)
  | reload (inputs : Inputs)

def Session.receives (t : Session) : SessionEvent -> Bool
  | .registrationResp _ _ => !t.pending.isEmpty
  | .registrationFailed _ => !t.pending.isEmpty
  | _ => t.pending.isEmpty

def Session.deliver (t : Session) (e : SessionEvent) : Session :=
  match e with
  | .health monitor kind name _ =>
    if t.receives e then { t with last := t.last.insert (name, monitor) kind } else t
  | _ => t

def handleEvent (build : Build) (t : Session) : SessionEvent -> Session × List Message
  | .registrationResp name error => (handleRegistrationResp t name error, [])
  | .registrationFailed error => (failPending t error, [])
  | .newProxyResp name error => (handleNewProxyResp t name error, [])
  | .closeProxy name => (handleCloseProxy t name, [])
  | .retryTick due accepts => handleProxyRetryTick t due accepts
  | .health _ kind name accepted => handleHealthEvent t kind name accepted
  | .reload inputs =>
    let r := reloadFromSources build t.service inputs
    ({ t with service := r.service }, r.sent)

def Session.step (build : Build) (t : Session) (e : SessionEvent) : Session × List Message :=
  if t.receives e then handleEvent build (t.deliver e) e else (t, [])

def Session.next (build : Build) (t : Session) (e : SessionEvent) : Session :=
  (t.step build e).1

end Client
end FrpRs
