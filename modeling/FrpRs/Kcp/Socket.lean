import FrpRs.Data.Run
import FrpRs.Kcp.Session
import FrpRs.Udp.Binary

/-!
# The KCP socket driver

`KcpSocket` of `frp-core/src/kcp/socket.rs`: one UDP socket shared by all sessions.
Sessions are stored under their conversation id and the peer's address.  Writes arrive
with the conversation id alone and find their session through an index from conversation
ids to addresses.

Each arm of the driver's loop is one step; its clock readings are part of the event.  A
packet is recorded in `sent` when it is handed to the socket, which queues it for its own
address when it cannot send at once.  The loop's exit once a dialled socket has no work
left only ends the run and is left out, as are the buffer pools and the wakers.
-/

namespace FrpRs

open Bytes
open Udp (IpAddr SocketAddr)

abbrev SessionKey := UInt32 × SocketAddr

/-- A packet handed to the socket, and the session it comes from. -/
structure Outgoing where
  session : SessionKey
  peer : SocketAddr
  packet : List Byte

/-- The channel of new streams that the listener takes from. -/
structure AcceptQueue where
  streams : List SessionKey
  closed : Bool

structure KcpSocket where
  config : KcpConfig
  sessions : Table SessionKey KcpSession
  convIndex : Table UInt32 SocketAddr
  sessionCreatedAt : Table SessionKey UInt32
  sessionCreateLog : List UInt32
  ipSessionCreateLog : Table IpAddr (List UInt32)
  peerAddrIndex : Table SocketAddr UInt32
  accept : AcceptQueue
  sent : List Outgoing

/-- The clock readings of one received datagram: the session's two for its FEC groups
and the driver's before and after admission. -/
structure RecvClock where
  pruneMs : Nat
  fecMs : Nat
  nowMs : UInt32
  createdMs : UInt32

/-- A step of the driver, or of a stream or the listener on the other end of a channel.
A write is labelled with the stream it comes from; the request itself carries only the
conversation id. -/
inductive DriverEvent where
  | tick (nowMs : UInt32)
  | write (stream : SessionKey) (nowMs : UInt32) (data : List Byte)
  | flush (stream : SessionKey) (nowMs : UInt32)
  | recv (data : List Byte) (src : SocketAddr) (clock : RecvClock)
  | register (key : SessionKey) (session : KcpSession)
  | acceptNotify (key : SessionKey)
  | acceptStream
  | closeListener
  /-- The stream of a stored session takes a frame from its channel. -/
  | readFrame (key : SessionKey)
  /-- The stream of a stored session is dropped. -/
  | dropStream (key : SessionKey)

namespace KcpSocket

def maxSessions : Nat := 1024
def unacceptedSessionTimeoutMs : UInt32 := 30000
def acceptedSessionReapGraceMs : UInt32 := 5000
def sessionCreateWindowMs : UInt32 := 10000
def maxSessionCreatesPerWindow : Nat := 256
def maxSessionCreatesPerIpPerWindow : Nat := 32
def minKcpPacket : Nat := 24
def capAccept : Nat := 256
def capRead : Nat := 256

def new (config : KcpConfig) : KcpSocket where
  config := config
  sessions := ∅
  convIndex := ∅
  sessionCreatedAt := ∅
  sessionCreateLog := []
  ipSessionCreateLog := ∅
  peerAddrIndex := ∅
  accept := { streams := [], closed := false }
  sent := []

/-!
## Removing sessions
-/

def hasSessionOf (s : KcpSocket) (addr : SocketAddr) : Bool :=
  s.sessions.keys.any fun key => key.2 = addr

/-- The body shared by `drain_to_remove` and the expiry of unaccepted sessions. -/
def removeSession (s : KcpSocket) (key : SessionKey) : KcpSocket :=
  let s :=
    { s with
      sessions := s.sessions.erase key
      convIndex := s.convIndex.erase key.1
      sessionCreatedAt := s.sessionCreatedAt.erase key }
  if s.peerAddrIndex.lookup key.2 = some key.1 ∧ s.hasSessionOf key.2 = false then
    { s with peerAddrIndex := s.peerAddrIndex.erase key.2 }
  else s

def drainToRemove (s : KcpSocket) (toRemove : List SessionKey) : KcpSocket :=
  toRemove.foldl removeSession s

/-!
## The tick
-/

/-- One session's share of a tick: its packets, whether it is to be removed, and what
became of it. -/
structure Ticked where
  packets : List (List Byte)
  remove : Bool
  session : KcpSession

def tickSession (nowMs : UInt32) (session : KcpSession) : Ticked :=
  match session.update nowMs with
  | (.error _, session) => { packets := [], remove := true, session := session }
  | (.ok packets, session) =>
    match session.recvAndPush with
    | (.error _, session) => { packets := packets, remove := true, session := session }
    | (.ok _, session) =>
      { packets := packets, remove := session.isDeadLink, session := session }

def tickedSession (nowMs : UInt32) (_ : SessionKey) (session : KcpSession) : KcpSession :=
  (tickSession nowMs session).session

def sendAll (key : SessionKey) (packets : List (List Byte)) : List Outgoing :=
  packets.map fun packet => { session := key, peer := key.2, packet := packet }

/-- Every session is updated; the failed and the dead ones are removed. -/
def updateSessions (s : KcpSocket) (nowMs : UInt32) : KcpSocket :=
  let packets := s.sessions.entries.flatMap fun e =>
    sendAll e.1 (tickSession nowMs e.2).packets
  let toRemove := (s.sessions.entries.filter fun e => (tickSession nowMs e.2).remove).map
    fun e => e.1
  { s with
    sessions := s.sessions.mapValues (tickedSession nowMs)
    sent := s.sent ++ packets }.drainToRemove toRemove

def expireUnaccepted (s : KcpSocket) (nowMs : UInt32) : KcpSocket :=
  s.drainToRemove
    ((s.sessionCreatedAt.entries.filter fun e =>
      nowMs - e.2 > unacceptedSessionTimeoutMs).map fun e => e.1)

def idle (s : KcpSocket) (nowMs : UInt32) (key : SessionKey) (session : KcpSession) : Bool :=
  (s.sessionCreatedAt.lookup key).isNone && session.readChannelClosed
    && session.kcp.waitSnd = 0 && nowMs - session.lastRxMs > acceptedSessionReapGraceMs

def reapAcceptedIdleSessions (s : KcpSocket) (nowMs : UInt32) : KcpSocket :=
  s.drainToRemove ((s.sessions.entries.filter fun e => s.idle nowMs e.1 e.2).map fun e => e.1)

def trimLog (nowMs : UInt32) (log : List UInt32) : List UInt32 :=
  log.dropWhile fun t => nowMs - t > sessionCreateWindowMs

def trimIpLogs (s : KcpSocket) (nowMs : UInt32) : KcpSocket :=
  { s with
    ipSessionCreateLog :=
      Table.retain (fun _ log => !log.isEmpty)
        (s.ipSessionCreateLog.mapValues fun _ log => trimLog nowMs log) }

def tick (s : KcpSocket) (nowMs : UInt32) : KcpSocket :=
  (((s.updateSessions nowMs).expireUnaccepted nowMs).reapAcceptedIdleSessions nowMs).trimIpLogs
    nowMs

/-!
## Writes
-/

def target (s : KcpSocket) (conv : UInt32) : Option SessionKey :=
  (s.convIndex.lookup conv).bind fun addr =>
    if (s.sessions.lookup (conv, addr)).isSome then some (conv, addr) else none

def setSession (s : KcpSocket) (key : SessionKey) (session : KcpSession) : KcpSocket :=
  { s with sessions := s.sessions.insert key session }

def flushSessionOutput (s : KcpSocket) (nowMs : UInt32) (key : SessionKey) : KcpSocket :=
  match s.sessions.lookup key with
  | none => s
  | some session =>
    match session.forceFlush nowMs with
    | (.error _, session) => s.setSession key session
    | (.ok packets, session) =>
      { s.setSession key session with sent := s.sent ++ sendAll key packets }

/-- A write of data; a session that takes it is flushed at once. -/
def write (s : KcpSocket) (conv : UInt32) (nowMs : UInt32) (data : List Byte) : KcpSocket :=
  match s.target conv with
  | none => s
  | some key =>
    match s.sessions.lookup key with
    | none => s
    | some session =>
      match session.sendChunked data with
      | (.error _, session) => s.setSession key session
      | (.ok _, session) => (s.setSession key session).flushSessionOutput nowMs key

def flush (s : KcpSocket) (conv : UInt32) (nowMs : UInt32) : KcpSocket :=
  match s.convIndex.lookup conv with
  | none => s
  | some addr => s.flushSessionOutput nowMs (conv, addr)

/-!
## Received datagrams
-/

def fecFlag (data : List Byte) : Option UInt16 :=
  if data.length ≥ 6 then
    let flag := readU16Le (data.drop 4)
    if flag = KcpSession.typeData ∨ flag = KcpSession.typeParity then some flag else none
  else none

def resolveConv (data : List Byte) : UInt32 :=
  match fecFlag data with
  | some flag =>
    if flag = KcpSession.typeData ∧ data.length ≥ 12 then readU32Le (data.drop 8) else 0
  | none => if data.length ≥ 4 then readU32Le data else 0

def resolveKey (data : List Byte) (src : SocketAddr) : SessionKey :=
  (resolveConv data, src)

/-- A session takes a datagram; the flag says that its read channel is closed and it is
to be removed.  Only datagrams that name the session stamp it. -/
def takeDatagram (clock : RecvClock) (stamp : Bool) (data : List Byte) (session : KcpSession) :
    Bool × KcpSession :=
  match session.input clock.pruneMs clock.fecMs data with
  | (.error _, session) => (false, session)
  | (.ok _, session) =>
    let session := if stamp then session.noteInbound clock.nowMs else session
    match session.recvAndPush with
    | (.error _, session) => (true, session)
    | (.ok _, session) => (false, session)

def deliver (s : KcpSocket) (key : SessionKey) (clock : RecvClock) (stamp : Bool)
    (data : List Byte) (session : KcpSession) : KcpSocket :=
  let taken := takeDatagram clock stamp data session
  (s.setSession key taken.2).drainToRemove (if taken.1 then [key] else [])

def ipLog (s : KcpSocket) (ip : IpAddr) : List UInt32 :=
  (s.ipSessionCreateLog.lookup ip).getD []

/-- The checks on a new peer: the socket with its logs trimmed, and the session when the
datagram passes them all. -/
def vet (s : KcpSocket) (key : SessionKey) (data : List Byte) (clock : RecvClock) :
    KcpSocket × Option KcpSession :=
  if data.length < minKcpPacket then (s, none)
  else if s.sessions.size ≥ maxSessions then (s, none)
  else
    let s := { s with sessionCreateLog := trimLog clock.nowMs s.sessionCreateLog }
    if s.sessionCreateLog.length ≥ maxSessionCreatesPerWindow then (s, none)
    else
      let log := trimLog clock.nowMs (s.ipLog key.2.ip)
      let s := { s with ipSessionCreateLog := s.ipSessionCreateLog.insert key.2.ip log }
      if log.length ≥ maxSessionCreatesPerIpPerWindow then (s, none)
      else
        match (KcpSession.new key.1 s.config { capacity := capRead }).input clock.pruneMs
            clock.fecMs data with
        | (.error _, _) => (s, none)
        | (.ok _, session) => (s, some (session.noteInbound clock.nowMs))

def rejectFull (s : KcpSocket) (key : SessionKey) : KcpSocket :=
  { s with sessions := s.sessions.erase key, convIndex := s.convIndex.erase key.1 }

def store (s : KcpSocket) (key : SessionKey) (session : KcpSession) : KcpSocket :=
  { s with
    convIndex := s.convIndex.insert key.1 key.2
    peerAddrIndex := s.peerAddrIndex.insert key.2 key.1
    sessions := s.sessions.insert key session }

def closeChannel (session : KcpSession) : KcpSession :=
  { session with readTx := { session.readTx with closed := true } }

/-- The new stream is queued for the listener.  A queue whose listener is gone does not
hold the session back, but drops the stream. -/
def enqueue (s : KcpSocket) (key : SessionKey) (createdMs : UInt32) (session : KcpSession) :
    KcpSocket :=
  if s.accept.closed = false ∧ s.accept.streams.length ≥ capAccept then s.rejectFull key
  else
    let session := if s.accept.closed then closeChannel session else session
    let streams := if s.accept.closed then s.accept.streams else s.accept.streams ++ [key]
    { s.store key session with
      accept := { s.accept with streams := streams }
      sessionCreatedAt := s.sessionCreatedAt.insert key createdMs
      sessionCreateLog := s.sessionCreateLog ++ [createdMs]
      ipSessionCreateLog :=
        s.ipSessionCreateLog.insert key.2.ip (s.ipLog key.2.ip ++ [createdMs]) }

def acceptPeer (s : KcpSocket) (key : SessionKey) (data : List Byte) (clock : RecvClock) : KcpSocket :=
  match s.vet key data clock with
  | (s, none) => s
  | (s, some session) => s.enqueue key clock.createdMs session

/-- Where a received datagram goes. -/
inductive Route where
  | session (key : SessionKey) (stamp : Bool) (session : KcpSession)
  | newPeer (key : SessionKey)
  | dropped

def fallback (s : KcpSocket) (data : List Byte) (src : SocketAddr) : Option UInt32 :=
  if (fecFlag data).isSome then s.peerAddrIndex.lookup src else none

def route (s : KcpSocket) (data : List Byte) (src : SocketAddr) : Route :=
  let key := resolveKey data src
  match s.sessions.lookup key with
  | some session => .session key true session
  | none =>
    match s.fallback data src with
    | some conv =>
      match s.sessions.lookup (conv, src) with
      | some session => .session (conv, src) false session
      | none => .dropped
    | none => if key.1 ≠ 0 then .newPeer key else .dropped

def recv (s : KcpSocket) (data : List Byte) (src : SocketAddr) (clock : RecvClock) : KcpSocket :=
  match s.route data src with
  | .session key stamp session => s.deliver key clock stamp data session
  | .newPeer key => s.acceptPeer key data clock
  | .dropped => s

/-!
## Steps
-/

def updateSession (s : KcpSocket) (key : SessionKey) (f : KcpSession -> KcpSession) : KcpSocket :=
  match s.sessions.lookup key with
  | none => s
  | some session => s.setSession key (f session)

def closeQueued (streams : List SessionKey) (key : SessionKey) (session : KcpSession) :
    KcpSession :=
  if streams.contains key then closeChannel session else session

def closeListener (s : KcpSocket) : KcpSocket :=
  { s with
    sessions := s.sessions.mapValues (closeQueued s.accept.streams)
    accept := { streams := [], closed := true } }

def step (s : KcpSocket) : DriverEvent -> KcpSocket
  | .tick nowMs => s.tick nowMs
  | .write stream nowMs data => s.write stream.1 nowMs data
  | .flush stream nowMs => s.flush stream.1 nowMs
  | .recv data src clock => s.recv data src clock
  | .register key session => s.store key session
  | .acceptNotify key => { s with sessionCreatedAt := s.sessionCreatedAt.erase key }
  | .acceptStream => { s with accept := { s.accept with streams := s.accept.streams.tail } }
  | .closeListener => s.closeListener
  | .readFrame key =>
    s.updateSession key fun session =>
      { session with readTx := { session.readTx with queue := session.readTx.queue.tail } }
  | .dropStream key => s.updateSession key closeChannel

end KcpSocket
end FrpRs
