import FrpRs.Data.Table
import FrpRs.Fec.ReedSolomon
import FrpRs.Kcp.Operations

/-!
# KCP sessions

`KcpSession` of `frp-core/src/kcp/session.rs`: one KCP state machine with optional
forward error correction around it.  On the wire a packet is

    SEQID (4 bytes) | TYPE (2 bytes) | SIZE (2 bytes) | KCP datagram

and `data_shards` consecutive datagrams form a group that `parity_shards` further
packets protect.  Buffer pools, wakers and the backlog counter that only mirrors
`wait_snd` are left out.  Clock readings are arguments.
-/

namespace FrpRs

open Bytes
open Fallible
open Kcp (PacketWriter)

structure KcpConfig where
  mtu : Nat
  nodelay : Bool
  interval : Int32
  resend : Int32
  nc : Bool
  sndWnd : UInt16
  rcvWnd : UInt16
  dataShards : Nat
  parityShards : Nat
  stream : Bool
deriving DecidableEq, Repr

/-- The sending half of a bounded channel together with what waits in it. -/
structure Channel where
  capacity : Nat
  queue : List (List Byte) := []
  closed : Bool := false
deriving DecidableEq, Repr

inductive TrySend where
  | sent (channel : Channel)
  | full
  | closed

def Channel.trySend (c : Channel) (message : List Byte) : TrySend :=
  if c.closed then .closed
  else if c.queue.length ≥ c.capacity then .full
  else .sent { c with queue := c.queue ++ [message] }

structure ShardGroup where
  shards : List (Option (List Byte))
  receivedCount : Nat
  lastActiveMs : Nat
deriving DecidableEq, Repr

inductive SessionError where
  | kcp (e : Kcp.Error)
  | notConnected
deriving DecidableEq, Repr

structure KcpSession where
  kcp : Kcp PacketWriter
  fec : Option Fec
  dataShards : Nat
  parityShards : Nat
  fecSeqid : UInt32
  shardGroups : Table UInt32 ShardGroup
  readTx : Channel
  lastRxMs : UInt32
  shutdown : Bool
  pendingRead : Option (List Byte)
  pendingShards : List (List Byte)
  pendingMaxSize : Nat
  /-- Ghost: the datagrams passed through `fec_encode_output` so far. -/
  encoded : List (List Byte)
  /-- Ghost: the payloads of FEC-tagged packets handed to `Kcp::input` so far. -/
  handed : List (List Byte)

namespace KcpSession

def fecHeaderSize : Nat := 6
def kcpWireOverhead : Nat := fecHeaderSize + 2
def typeData : UInt16 := 0xf1
def typeParity : UInt16 := 0xf2
def maxShardSets : Nat := 3
def fecGroupExpireMs : Nat := 60000

/-- The codec takes at most 256 data shards, and the session keeps the same bound. -/
def new (conv : UInt32) (config : KcpConfig) (readTx : Channel) : KcpSession :=
  let enabled := decide (config.dataShards > 0 ∧ config.parityShards > 0)
  let dataShards := if enabled then min config.dataShards 256 else config.dataShards
  { kcp := Kcp.configured conv {} config.stream
      [.mtu config.mtu, .wndsize config.sndWnd config.rcvWnd,
        .nodelay config.nodelay config.interval config.resend config.nc]
    fec := if enabled then Fec.new dataShards config.parityShards else none
    dataShards := dataShards
    parityShards := config.parityShards
    fecSeqid := 0
    shardGroups := ∅
    readTx := readTx
    lastRxMs := 0
    shutdown := false
    pendingRead := none
    pendingShards := []
    pendingMaxSize := 0
    encoded := []
    handed := [] }

def onKcp {α : Type} (s : KcpSession) (r : Kcp.Result α × Kcp PacketWriter) :
    Except SessionError α × KcpSession :=
  (r.1.mapError .kcp, { s with kcp := r.2 })

/-!
## Sending
-/

/-- `KcpWriter` puts every datagram behind a blank FEC prefix when FEC is on. -/
def fecPrefix (s : KcpSession) : Nat :=
  if s.fec.isSome then kcpWireOverhead else 0

def drain (s : KcpSession) : List (List Byte) × KcpSession :=
  (s.kcp.output.packets.map fun datagram => List.replicate s.fecPrefix 0 ++ datagram,
    { s with kcp := { s.kcp with output := {} } })

def wirePacket (seqid : UInt32) (type : UInt16) (shard : List Byte) : List Byte :=
  u32Le seqid ++ u16Le type ++ shard

def rsRow (payload : List Byte) : List Byte :=
  u16Le (2 + UInt16.ofNat payload.length) ++ payload

def parityPackets : UInt32 -> List (List Byte) -> List (List Byte) × UInt32
  | seqid, [] => ([], seqid)
  | seqid, parity :: rest =>
    let tail := parityPackets (seqid + 1) rest
    (wirePacket seqid typeParity parity :: tail.1, tail.2)

def pushShard (s : KcpSession) (payload : List Byte) : KcpSession :=
  { s with
    fecSeqid := s.fecSeqid + 1
    pendingShards := s.pendingShards ++ [rsRow payload]
    pendingMaxSize := max s.pendingMaxSize (rsRow payload).length
    encoded := s.encoded ++ [payload] }

/-- Pad the rows to one length, emit their parity and start the next group. -/
def flushParity (fec : Fec) (s : KcpSession) : List (List Byte) × KcpSession :=
  let rows := s.pendingShards.map (Fec.zeroExtend s.pendingMaxSize)
  let parity := parityPackets s.fecSeqid ((fec.encodeParity rows).getD [])
  (parity.1,
    { s with fecSeqid := parity.2, pendingShards := [], pendingMaxSize := 0 })

/-- One datagram of `fec_encode_output`, in the buffer that starts with the blank
prefix. -/
def encodeChunk (fec : Fec) (s : KcpSession) (raw : List Byte) :
    List (List Byte) × KcpSession :=
  let payload := raw.drop kcpWireOverhead
  let packet := wirePacket s.fecSeqid typeData (rsRow payload)
  let s := s.pushShard payload
  if s.pendingShards.length = s.dataShards then
    let parity := flushParity fec s
    (packet :: parity.1, parity.2)
  else ([packet], s)

def encodeChunks (fec : Fec) : KcpSession -> List (List Byte) ->
    List (List Byte) × KcpSession
  | s, [] => ([], s)
  | s, raw :: rest =>
    let first := encodeChunk fec s raw
    let others := encodeChunks fec first.2 rest
    (first.1 ++ others.1, others.2)

def fecEncodeOutput (s : KcpSession) (output : List (List Byte)) :
    List (List Byte) × KcpSession :=
  match s.fec with
  | some fec => encodeChunks fec s output
  | none => (output, s)

def emit (s : KcpSession) : List (List Byte) × KcpSession :=
  let drained := s.drain
  if drained.1.isEmpty then ([], drained.2) else fecEncodeOutput drained.2 drained.1

def update (s : KcpSession) (nowMs : UInt32) :
    Except SessionError (List (List Byte)) × KcpSession :=
  if s.shutdown then (.ok [], s)
  else
    andThen (s.onKcp (s.kcp.update nowMs)) fun _ s =>
      (.ok s.emit.1, s.emit.2)

def forceFlush (s : KcpSession) (nowMs : UInt32) :
    Except SessionError (List (List Byte)) × KcpSession :=
  andThen (s.onKcp (s.kcp.update nowMs)) fun _ s =>
    andThen (s.onKcp s.kcp.flush) fun _ s =>
      (.ok s.emit.1, s.emit.2)

def send (s : KcpSession) (data : List Byte) : Except SessionError Nat × KcpSession :=
  s.onKcp (s.kcp.send data)

/-- `data.chunks(window)`: pieces of at most `window` bytes, for `window > 0`. -/
def chunks (window : Nat) : Nat -> List Byte -> List (List Byte)
  | 0, _ => []
  | fuel + 1, data =>
    if data.isEmpty then [] else data.take window :: chunks window fuel (data.drop window)

def sendPieces : KcpSession -> Nat -> List (List Byte) -> Except SessionError Nat × KcpSession
  | s, sent, [] => (.ok sent, s)
  | s, sent, piece :: rest =>
    andThen (s.send piece) fun n s => sendPieces s (sent + n) rest

def sendChunked (s : KcpSession) (data : List Byte) : Except SessionError Nat × KcpSession :=
  let window := (Kcp.wndRcv.toNat - 1) * max s.kcp.mss 1
  sendPieces s 0 (chunks window data.length data)

/-!
## Receiving
-/

def dropOldestGroups : Nat -> Table UInt32 ShardGroup -> Table UInt32 ShardGroup
  | 0, groups => groups
  | fuel + 1, groups =>
    if groups.size > maxShardSets then
      match groups.keys.min? with
      | some key => dropOldestGroups fuel (groups.erase key)
      | none => groups
    else groups

def pruneOldGroups (s : KcpSession) (now : Nat) : KcpSession :=
  let fresh := s.shardGroups.retain fun _ g => now - g.lastActiveMs ≤ fecGroupExpireMs
  { s with shardGroups := dropOldestGroups fresh.size fresh }

def feed (s : KcpSession) (payload : List Byte) : Except SessionError Unit × KcpSession :=
  andThen ({ s with handed := s.handed ++ [payload] }.onKcp (s.kcp.input payload))
    fun _ s => (.ok (), s)

def feedAll : KcpSession -> List (List Byte) -> Except SessionError Unit × KcpSession
  | s, [] => (.ok (), s)
  | s, payload :: rest => andThen (s.feed payload) fun _ s => feedAll s rest

/-- The datagram inside a data row, cut at SIZE; `none` where the code feeds nothing. -/
def shardPayload (shard : List Byte) : Option (List Byte) :=
  if shard.length < 2 then none
  else
    let size := (readU16Le shard).toNat
    if size < 2 then none
    else
      let payloadEnd := min (size - 2) (shard.length - 2)
      if payloadEnd > 0 then some ((shard.drop 2).take payloadEnd) else none

def emptyGroup (total now : Nat) : ShardGroup :=
  { shards := List.replicate total none, receivedCount := 0, lastActiveMs := now }

def openGroup (s : KcpSession) (total now : Nat) (shardBegin : UInt32) : ShardGroup :=
  let group := (s.shardGroups.lookup shardBegin).getD (emptyGroup total now)
  if group.shards.length ≠ total then emptyGroup total now
  else { group with lastActiveMs := now }

def storeShard (group : ShardGroup) (shardIndex : Nat) (shard : List Byte) : ShardGroup :=
  if (group.shards.getD shardIndex none).isNone then
    { group with
      shards := group.shards.set shardIndex (some shard)
      receivedCount := group.receivedCount + 1 }
  else group

def setGroup (s : KcpSession) (shardBegin : UInt32) (group : ShardGroup) : KcpSession :=
  { s with shardGroups := s.shardGroups.insert shardBegin group }

def removeGroup (s : KcpSession) (shardBegin : UInt32) : KcpSession :=
  { s with shardGroups := s.shardGroups.erase shardBegin }

def isMissing (shards : List (Option (List Byte))) (i : Nat) : Bool :=
  (shards.getD i none).isNone

def recoveredPayloads (dataShards : Nat) (before decoded : List (Option (List Byte))) :
    List (List Byte) :=
  ((List.range dataShards).filter (isMissing before)).filterMap fun i =>
    (decoded.getD i none).bind shardPayload

/-- Decode a group with enough shards and feed what was missing; the group is removed
whatever happens. -/
def recoverGroup (s : KcpSession) (fec : Fec) (shardBegin : UInt32) (group : ShardGroup) :
    Except SessionError Unit × KcpSession :=
  if (group.shards.take s.dataShards).all Option.isSome then (.ok (), s.removeGroup shardBegin)
  else
    let maxLen := Fec.blockSize group.shards
    let shards := group.shards.map fun shard => shard.map (Fec.zeroExtend maxLen)
    let fed :=
      match fec.decode shards with
      | some (true, decoded) =>
        s.feedAll (recoveredPayloads s.dataShards group.shards decoded)
      | _ => (.ok (), s)
    (fed.1, fed.2.removeGroup shardBegin)

def groupKey (total : Nat) (seqid : UInt32) : UInt32 :=
  seqid - seqid % UInt32.ofNat total

def feedData (s : KcpSession) (flag : UInt16) (group : ShardGroup) (shardIndex : Nat)
    (shard : List Byte) : Except SessionError Unit × KcpSession :=
  if flag = typeData ∧ isMissing group.shards shardIndex then
    match shardPayload shard with
    | some payload => s.feed payload
    | none => (.ok (), s)
  else (.ok (), s)

def inputShard (s : KcpSession) (fec : Fec) (total now : Nat) (seqid : UInt32) (flag : UInt16)
    (shard : List Byte) : Except SessionError Unit × KcpSession :=
  let shardBegin := groupKey total seqid
  let shardIndex := seqid.toNat % total
  let group := s.openGroup total now shardBegin
  andThen ((s.setGroup shardBegin group).feedData flag group shardIndex shard) fun _ s =>
    let group := storeShard group shardIndex shard
    let s := s.setGroup shardBegin group
    if group.receivedCount ≥ s.dataShards then s.recoverGroup fec shardBegin group
    else (.ok (), s)

def inputRaw (s : KcpSession) (data : List Byte) : Except SessionError Unit × KcpSession :=
  andThen (s.onKcp (s.kcp.input data)) fun _ s => (.ok (), s)

/-- `input` with the two readings of the FEC clock it takes. -/
def input (s : KcpSession) (pruneMs nowMs : Nat) (data : List Byte) :
    Except SessionError Unit × KcpSession :=
  let s := s.pruneOldGroups pruneMs
  match s.fec with
  | none => s.inputRaw data
  | some fec =>
    if data.length < fecHeaderSize then (.ok (), s)
    else
      let seqid := readU32Le data
      let flag := readU16Le (data.drop 4)
      if flag ≠ typeData ∧ flag ≠ typeParity then s.inputRaw data
      else
        let total := s.dataShards + s.parityShards
        if total = 0 then (.ok (), s)
        else s.inputShard fec total nowMs seqid flag (data.drop fecHeaderSize)

/-!
## Delivering to the stream
-/

def closeRead (s : KcpSession) : Except SessionError Unit × KcpSession :=
  (.error .notConnected, { s with shutdown := true })

/-- The loop of `recv_and_push`; a frame that does not fit the channel is held back. -/
def pushLoop : Nat -> KcpSession -> Except SessionError Unit × KcpSession
  | 0, s => (.ok (), s)
  | fuel + 1, s =>
    match s.kcp.peeksize with
    | .error .recvQueueEmpty => (.ok (), s)
    | .error e => (.error (.kcp e), s)
    | .ok size =>
      andThen (s.onKcp (s.kcp.recv size)) fun data s =>
        if size = 0 then pushLoop fuel s
        else
          match s.readTx.trySend data with
          | .sent channel => pushLoop fuel { s with readTx := channel }
          | .full => (.ok (), { s with pendingRead := some data })
          | .closed => s.closeRead

def pushAll (s : KcpSession) : Except SessionError Unit × KcpSession :=
  pushLoop (s.kcp.rcvQueue.length + s.kcp.rcvBuf.length + 1) s

def recvAndPush (s : KcpSession) : Except SessionError Unit × KcpSession :=
  match s.pendingRead with
  | none => s.pushAll
  | some pending =>
    let s := { s with pendingRead := none }
    match s.readTx.trySend pending with
    | .sent channel => { s with readTx := channel }.pushAll
    | .full => (.ok (), { s with pendingRead := some pending })
    | .closed => s.closeRead

def isDeadLink (s : KcpSession) : Bool :=
  s.kcp.isDeadLink

def noteInbound (s : KcpSession) (driverClockMs : UInt32) : KcpSession :=
  { s with lastRxMs := driverClockMs }

def readChannelClosed (s : KcpSession) : Bool :=
  s.readTx.closed

end KcpSession
end FrpRs
