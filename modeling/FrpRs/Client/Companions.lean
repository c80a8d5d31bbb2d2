import FrpRs.Client.Config

/-!
# UDP companions of SOCKS5 proxies

`inject_socks5_udp_companions_preserving` in `frp-core/src/config/client.rs`.  A SOCKS5 proxy with
UDP gets a second proxy for its relay.  Without a port for the relay the system chooses one; the
port of an earlier companion is kept if the configuration does not name an address.

The ports that the system gives are an input.  Warnings are left out.
-/

namespace FrpRs
namespace Client

open Text

/-!
## Addresses
-/

def formatHostPort (host : Text) (port : Nat) : Text :=
  let host := trim host
  let host := if host = [] then "127.0.0.1".toList else host
  if host.head? = some '[' then host ++ ':' :: natText port
  else if host.any (· == ':') then '[' :: host ++ ']' :: ':' :: natText port
  else host ++ ':' :: natText port

/-- `u16::from_str`. -/
def parsePort (s : Text) : Option Nat :=
  let digits := match s with
    | '+' :: rest => rest
    | _ => s
  match IpText.readNumber 10 digits.length true 65536 digits with
  | some (n, []) => some n
  | _ => none

def ipText : Udp.IpAddr -> Text
  | .v4 ip => ip.toText.toList
  | .v6 ip => ip.toText.toList

def readPort (s : Text) : Option Nat :=
  match s with
  | ':' :: digits =>
    match IpText.readNumber 10 digits.length true 65536 digits with
    | some (n, []) => some n
    | _ => none
  | _ => none

def skipScope (s : Text) : Text :=
  match s with
  | '%' :: digits =>
    match IpText.readNumber 10 digits.length true (2 ^ 32) digits with
    | some (_, rest) => rest
    | none => s
  | _ => s

/-- `SocketAddr::from_str`. -/
def parseSocketAddr (s : Text) : Option (Udp.IpAddr × Nat) :=
  match IpText.readIpv4 s with
  | some (octets, rest) => (readPort rest).map fun port => (.v4 (Udp.ipv4OfOctets octets), port)
  | none =>
    match s with
    | '[' :: inner =>
      match IpText.readIpv6 inner with
      | some (groups, rest) =>
        match skipScope rest with
        | ']' :: rest =>
          (readPort rest).bind fun port =>
            (Udp.ipv6OfGroups groups).map fun ip => (.v6 ip, port)
        | _ => none
      | none => none
    | _ => none

def splitOnce (c : Char) : Text -> Option (Text × Text)
  | [] => none
  | a :: s => if a = c then some ([], s) else (splitOnce c s).map fun parts => (a :: parts.1, parts.2)

def rsplitOnce (c : Char) (s : Text) : Option (Text × Text) :=
  (splitOnce c s.reverse).map fun parts => (parts.2.reverse, parts.1.reverse)

def splitHostPort (raw : Text) : Option (Text × Nat) :=
  let raw := trim raw
  if raw = [] then none
  else
    match parseSocketAddr raw with
    | some (ip, port) => some (ipText ip, port)
    | none =>
      match Udp.parseIpAddr (String.ofList raw) with
      | some ip => some (ipText ip, 0)
      | none =>
        match raw with
        | '[' :: rest =>
          (splitOnce ']' rest).bind fun parts =>
            match parts.2 with
            | [] => some ('[' :: parts.1 ++ [']'], 0)
            | ':' :: port => (parsePort port).map fun port => ('[' :: parts.1 ++ [']'], port)
            | _ => none
        | _ =>
          (rsplitOnce ':' raw).bind fun parts =>
            if parts.1 = [] then none else (parsePort parts.2).map fun port => (parts.1, port)

/-!
## Companions
-/

def autoCompanionAnnotation : Text := "frp-rs.auto-companion".toList
def autoCompanionParentAnnotation : Text := "frp-rs.auto-companion-parent".toList

abbrev Os := List (Except Text Nat)

def allocateUdpRelayPort (os : Os) (bindHost : Text) : Except Text Nat × Os :=
  let addr := formatHostPort bindHost 0
  match os with
  | .ok port :: os => (.ok port, os)
  | .error e :: os =>
    (.error ("cannot allocate UDP relay port on ".toList ++ addr ++ ": ".toList ++ e), os)
  | [] => (.error ("cannot allocate UDP relay port on ".toList ++ addr), [])

/-- The first of `base_2`, `base_3` and so on that is free. -/
def freeName (names : List Text) (base : Text) : Nat -> Nat -> Text
  | 0, n => base ++ '_' :: natText n
  | fuel + 1, n =>
    let candidate := base ++ '_' :: natText n
    if names.any (· == candidate) then freeName names base fuel (n + 1) else candidate

def uniqueCompanionName (proxies : List ProxyConfig) (parent : Text) : Text :=
  let names := proxies.map ProxyConfig.name
  let base := parent ++ "__udp".toList
  if names.any (· == base) then freeName names base proxies.length 2 else base

def autoCompanionParent (p : ProxyConfig) : Option Text :=
  if p.proxyType ≠ "udp".toList then none
  else if p.annotations.lookup autoCompanionAnnotation ≠ some "socks5-udp".toList then none
  else p.annotations.lookup autoCompanionParentAnnotation

/-- A proxy to be added, and the addresses that its parent gets. -/
structure Addition where
  parent : Text
  bindAddr : Option Text
  advertiseAddr : Option Text
  proxy : ProxyConfig

/-- The proxy gets no companion, whatever ports are free. -/
def skipsCompanion (cfg : ClientConfig) (p : ProxyConfig) (plugin : PluginConfig) : Bool :=
  let bindRaw := trim plugin.udpBindAddr
  let advertiseRaw := trim plugin.udpAdvertiseAddr
  plugin.pluginType ≠ "socks5".toList || !plugin.udpEnable || !plugin.udpAutoCompanionEnabled ||
  (cfg.start ≠ [] && !cfg.start.any (· == p.name)) ||
  p.proxyType ≠ "tcp".toList ||
  -- Both addresses name ports of their own: a direct deployment.
  (bindRaw ≠ [] && advertiseRaw ≠ [] &&
    (splitHostPort advertiseRaw).any fun a => a.2 ≠ 0 && a.2 ≠ p.remotePort) ||
  p.remotePort = 0 ||
  (cfg.proxies.any fun q =>
    q.annotations.lookup autoCompanionAnnotation = some "socks5-udp".toList &&
      q.annotations.lookup autoCompanionParentAnnotation = some p.name) ||
  -- A UDP proxy on the same port was written by hand.
  (cfg.proxies.any fun q => q.proxyType = "udp".toList && q.remotePort = p.remotePort)

/-- The relay address that the proxy had with its earlier companion. -/
def previousBind (previous : List ProxyConfig) (p : ProxyConfig) (bindRaw : Text) :
    Option (Text × Nat) :=
  if bindRaw = [] && previous.any (fun q => autoCompanionParent q = some p.name) then
    ((((previous.find? fun q => q.name = p.name).bind ProxyConfig.plugin).map fun pl =>
      trim pl.udpBindAddr).filter (· ≠ [])).bind splitHostPort |>.filter (·.2 ≠ 0)
  else none

def socks5Error (p : ProxyConfig) (text : Text) : Text :=
  "socks5 proxy '".toList ++ p.name ++ "': ".toList ++ text

/-- The address of the relay. -/
def relayBind (os : Os) (previous : List ProxyConfig) (p : ProxyConfig) (bindRaw : Text) :
    Except Text (Text × Nat) × Os :=
  match previousBind previous p bindRaw with
  | some bind => (.ok bind, os)
  | none =>
    if bindRaw = [] then
      match allocateUdpRelayPort os "127.0.0.1".toList with
      | (.ok port, os) => (.ok ("127.0.0.1".toList, port), os)
      | (.error e, os) => (.error (socks5Error p e), os)
    else
      match splitHostPort bindRaw with
      | none =>
        (.error (socks5Error p ("invalid udp_bind_addr '".toList ++ bindRaw ++
          ("' for UDP auto companion (set udp_auto_companion = false for a direct " ++
            "deployment)").toList)), os)
      | some (host, port) =>
        if port = 0 then
          match allocateUdpRelayPort os host with
          | (.ok port, os) => (.ok (host, port), os)
          | (.error e, os) => (.error (socks5Error p e), os)
        else (.ok (host, port), os)

/-- The address that clients are told, if it is set here.  None skips the companion. -/
def advertised (cfg : ClientConfig) (p : ProxyConfig) (plugin : PluginConfig) :
    Except Text (Option (Option Text)) :=
  if trim plugin.udpAdvertiseAddr = [] then
    .ok (some (some (formatHostPort cfg.serverAddr p.remotePort)))
  else
    match splitHostPort (trim plugin.udpAdvertiseAddr) with
    | some (host, port) =>
      if port = 0 then .ok (some (some (formatHostPort host p.remotePort)))
      else if port ≠ p.remotePort then .ok none
      else .ok (some none)
    | none =>
      .error (socks5Error p ("invalid udp_advertise_addr '".toList ++ plugin.udpAdvertiseAddr ++
        ("' for UDP auto companion (set udp_auto_companion = false for a direct " ++
          "deployment)").toList))

def targetHost (bindHost : Text) : Text :=
  if bindHost = "0.0.0.0".toList then "127.0.0.1".toList
  else if bindHost = "::".toList || bindHost = "[::]".toList then "::1".toList
  else bindHost

def companionProxy (cfg : ClientConfig) (p : ProxyConfig) (bindHost : Text) (bindPort : Nat) :
    ProxyConfig where
  name := uniqueCompanionName cfg.proxies p.name
  proxyType := "udp".toList
  localIp := targetHost bindHost
  localPort := bindPort
  remotePort := p.remotePort
  useEncryption := p.useEncryption
  useCompression := p.useCompression
  bandwidthLimit := p.bandwidthLimit
  bandwidthLimitMode := p.bandwidthLimitMode
  enabled := true
  annotations := ((∅ : Table Text Text).insert autoCompanionAnnotation "socks5-udp".toList).insert
    autoCompanionParentAnnotation p.name

/-- The companion of one proxy. -/
def companionFor (cfg : ClientConfig) (previous : List ProxyConfig) (os : Os) (p : ProxyConfig) :
    Except Text (Option Addition) × Os :=
  match p.plugin with
  | none => (.ok none, os)
  | some plugin =>
    if skipsCompanion cfg p plugin then (.ok none, os)
    else
      let bindRaw := trim plugin.udpBindAddr
      match relayBind os previous p bindRaw with
      | (.error e, os) => (.error e, os)
      | (.ok (bindHost, bindPort), os) =>
        match advertised cfg p plugin with
        | .error e => (.error e, os)
        | .ok none => (.ok none, os)
        | .ok (some advertiseAddr) =>
          (.ok (some
            { parent := p.name
              bindAddr :=
                if bindRaw = [] || (splitHostPort bindRaw).map Prod.snd = some 0 then
                  some (formatHostPort bindHost bindPort)
                else none
              advertiseAddr := advertiseAddr
              proxy := companionProxy cfg p bindHost bindPort }), os)

/-- The companions of a list of proxies. -/
def additionsFor (cfg : ClientConfig) (previous : List ProxyConfig) :
    Os -> List ProxyConfig -> Except Text (List Addition) × Os
  | os, [] => (.ok [], os)
  | os, p :: ps =>
    match companionFor cfg previous os p with
    | (.error e, os) => (.error e, os)
    | (.ok addition, os) =>
      match additionsFor cfg previous os ps with
      | (.error e, os) => (.error e, os)
      | (.ok additions, os) => (.ok (addition.toList ++ additions), os)

def Addition.setAddresses (a : Addition) (plugin : PluginConfig) : PluginConfig :=
  { plugin with
    udpBindAddr := a.bindAddr.getD plugin.udpBindAddr
    udpAdvertiseAddr := a.advertiseAddr.getD plugin.udpAdvertiseAddr }

def updateFirst (name : Text) (f : ProxyConfig -> ProxyConfig) : List ProxyConfig -> List ProxyConfig
  | [] => []
  | p :: ps => if p.name = name then f p :: ps else p :: updateFirst name f ps

def applyAddition (cfg : ClientConfig) (a : Addition) : ClientConfig :=
  { cfg with
    start :=
      if cfg.start ≠ [] && cfg.start.any (· == a.parent) && !cfg.start.any (· == a.proxy.name) then
        cfg.start ++ [a.proxy.name]
      else cfg.start
    proxies :=
      updateFirst a.parent (fun p => { p with plugin := p.plugin.map a.setAddresses }) cfg.proxies ++
        [a.proxy] }

def injectSocks5UdpCompanionsPreserving (cfg : ClientConfig) (previous : List ProxyConfig)
    (os : Os) : Except Text ClientConfig × Os :=
  match additionsFor cfg previous os cfg.proxies with
  | (.error e, os) => (.error e, os)
  | (.ok additions, os) => (.ok (additions.foldl applyAddition cfg), os)

def injectSocks5UdpCompanions (cfg : ClientConfig) (os : Os) : Except Text ClientConfig × Os :=
  injectSocks5UdpCompanionsPreserving cfg [] os

end Client
end FrpRs
