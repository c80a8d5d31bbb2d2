import FrpRs.Data.Fallible
import FrpRs.Kcp.Segment

/-!
# The KCP state machine

The model follows `frp-core/src/kcp/protocol.rs` operation by operation.  Fixed
width counters keep their width and wrap, as they do in the release build;
`usize` quantities are natural numbers, reduced modulo `2^64` where the code
multiplies or accumulates them.  The two payload freelists only recycle
allocations (a popped buffer is cleared or overwritten before it is read), so
they are left out.

Every operation that can fail returns its result together with the state it
leaves behind: an early return keeps the changes made before it.
-/

namespace FrpRs

open Bytes
open Fallible
open Kcp (KcpSegment)

structure Kcp (Output : Type) where
  conv : UInt32
  mtu : Nat
  mss : Nat
  state : Int32
  sndUna : UInt32
  sndNxt : UInt32
  rcvNxt : UInt32
  ssthresh : UInt16
  rxRttval : UInt32
  rxSrtt : UInt32
  rxRto : UInt32
  rxMinrto : UInt32
  sndWnd : UInt16
  rcvWnd : UInt16
  rmtWnd : UInt16
  cwnd : UInt16
  probe : UInt32
  current : UInt32
  interval : UInt32
  tsFlush : UInt32
  xmit : UInt32
  nodelay : Bool
  updated : Bool
  tsProbe : UInt32
  probeWait : UInt32
  deadLink : UInt32
  incr : Nat
  sndQueue : List KcpSegment
  rcvQueue : List KcpSegment
  sndBuf : List KcpSegment
  rcvBuf : List KcpSegment
  acklist : List (UInt32 × UInt32)
  buf : List Byte
  fastresend : UInt32
  nocwnd : Bool
  stream : Bool
  inputConv : Bool
  output : Output
deriving DecidableEq, Repr

namespace Kcp

/-- The packet sink: one `writeAll` call is one outgoing datagram. -/
class Write (Output : Type) where
  writeAll : Output -> List Byte -> Except IoError Unit × Output

def usizeMod : Nat := 18446744073709551616

variable {Output : Type}

def construct (conv : UInt32) (output : Output) (stream : Bool) : Kcp Output :=
  { conv := conv
    mtu := mtuDef
    mss := mtuDef - overhead
    state := 0
    sndUna := 0
    sndNxt := 0
    rcvNxt := 0
    ssthresh := threshInit
    rxRttval := 0
    rxSrtt := 0
    rxRto := rtoDef
    rxMinrto := rtoMin
    sndWnd := wndSnd
    rcvWnd := wndRcv
    rmtWnd := wndRcv
    cwnd := 0
    probe := 0
    current := 0
    interval := intervalDef
    tsFlush := intervalDef
    xmit := 0
    nodelay := false
    updated := false
    tsProbe := 0
    probeWait := 0
    deadLink := deadLinkDef
    incr := 0
    sndQueue := []
    rcvQueue := []
    sndBuf := []
    rcvBuf := []
    acklist := []
    buf := []
    fastresend := 0
    nocwnd := false
    stream := stream
    inputConv := false
    output := output }

/-!
## Receiving from the reassembly queue
-/

def moveBufLoop (rcvWnd : UInt16) (rcvNxt : UInt32) (rcvQueue : List KcpSegment) :
    List KcpSegment -> UInt32 × List KcpSegment × List KcpSegment
  | [] => (rcvNxt, rcvQueue, [])
  | seg :: rest =>
    if seg.sn = rcvNxt ∧ rcvQueue.length < rcvWnd.toNat then
      moveBufLoop rcvWnd (rcvNxt + 1) (rcvQueue ++ [seg]) rest
    else
      (rcvNxt, rcvQueue, seg :: rest)

def moveBuf (k : Kcp Output) : Kcp Output :=
  let moved := moveBufLoop k.rcvWnd k.rcvNxt k.rcvQueue k.rcvBuf
  { k with rcvNxt := moved.1, rcvQueue := moved.2.1, rcvBuf := moved.2.2 }

def chainLength : List KcpSegment -> Nat
  | [] => 0
  | seg :: rest =>
    if seg.frg = 0 then seg.data.length
    else seg.data.length + chainLength rest

def peeksize (k : Kcp Output) : Result Nat :=
  match k.rcvQueue with
  | [] => .error .recvQueueEmpty
  | seg :: rest =>
    if seg.frg = 0 then .ok seg.data.length
    else if k.rcvQueue.length < (seg.frg + 1).toNat then .error .expectingFragment
    else .ok (chainLength (seg :: rest))

def mergeChain : List KcpSegment -> List Byte × List KcpSegment
  | [] => ([], [])
  | seg :: rest =>
    if seg.frg = 0 then (seg.data, rest)
    else
      let merged := mergeChain rest
      (seg.data ++ merged.1, merged.2)

/-- `recv` into a caller buffer of `bufLen` bytes; the result is what was
written to its front. -/
def recv (k : Kcp Output) (bufLen : Nat) : Result (List Byte) × Kcp Output :=
  if k.rcvQueue.isEmpty then (.error .recvQueueEmpty, k)
  else
    match k.peeksize with
    | .error e => (.error e, k)
    | .ok size =>
      if size > bufLen then (.error .userBufTooSmall, k)
      else
        let recover := decide (k.rcvQueue.length ≥ k.rcvWnd.toNat)
        let merged := mergeChain k.rcvQueue
        let k := moveBuf { k with rcvQueue := merged.2 }
        let k :=
          if k.rcvQueue.length < k.rcvWnd.toNat ∧ recover = true then
            { k with probe := k.probe ||| askTell }
          else k
        (.ok merged.1, k)

/-!
## Queueing data
-/

def splitSegments (mss : Nat) (stream : Bool) : Nat -> List Byte -> List KcpSegment
  | 0, _ => []
  | n + 1, rest =>
    { KcpSegment.newWithData (rest.take mss) with
      frg := if stream then 0 else UInt8.ofNat n } ::
      splitSegments mss stream n (rest.drop mss)

def extendSize (k : Kcp Output) (buf : List Byte) : Nat :=
  match k.sndQueue.getLast? with
  | none => 0
  | some old =>
    if old.data.length < k.mss then min buf.length (k.mss - old.data.length) else 0

def extendLast (k : Kcp Output) (buf : List Byte) : Kcp Output :=
  match k.sndQueue.getLast? with
  | none => k
  | some old =>
    if old.data.length < k.mss then
      { k with
        sndQueue := k.sndQueue.dropLast ++
          [{ old with data := old.data ++ buf.take (extendSize k buf), frg := 0 }] }
    else k

def segmentCount (mss remaining : Nat) : Nat :=
  if remaining ≤ mss then 1 else (remaining + mss - 1) / mss

def sendRest (k : Kcp Output) (sent : Nat) (rest : List Byte) :
    Result Nat × Kcp Output :=
  let count := segmentCount k.mss rest.length
  if count ≥ wndRcv.toNat then (.error .userBufTooBig, k)
  else
    let segs := splitSegments k.mss k.stream (max 1 count) rest
    (.ok (sent + (segs.map fun s => s.data.length).sum),
      { k with sndQueue := k.sndQueue ++ segs })

def send (k : Kcp Output) (buf : List Byte) : Result Nat × Kcp Output :=
  if k.stream then
    let extend := extendSize k buf
    let k := extendLast k buf
    if extend = buf.length then (.ok extend, k)
    else sendRest k extend (buf.drop extend)
  else sendRest k 0 buf

/-!
## Acknowledgements
-/

def absDiff (a b : UInt32) : UInt32 :=
  if a < b then b - a else a - b

def smoothRtt (k : Kcp Output) (rtt : UInt32) : Kcp Output :=
  if k.rxSrtt = 0 then
    { k with rxSrtt := rtt, rxRttval := rtt / 2 }
  else
    let delta := absDiff rtt k.rxSrtt
    let rttval := (3 * k.rxRttval + delta) / 4
    let srtt := (7 * k.rxSrtt + rtt) / 8
    { k with rxRttval := rttval, rxSrtt := if srtt < 1 then 1 else srtt }

def updateAck (k : Kcp Output) (rtt : UInt32) : Kcp Output :=
  let k := smoothRtt k (min rtt rtoMax)
  let rto := k.rxSrtt + max k.interval (4 * k.rxRttval)
  { k with rxRto := bound k.rxMinrto rto rtoMax }

def shrinkBuf (k : Kcp Output) : Kcp Output :=
  { k with
    sndUna :=
      match k.sndBuf with
      | seg :: _ => seg.sn
      | [] => k.sndNxt }

/-- The scan for an acknowledged segment behind the front; it stops at the first
segment whose number is larger as an unsigned value. -/
def removeAcked (sn : UInt32) : List KcpSegment -> List KcpSegment
  | [] => []
  | seg :: rest =>
    if sn = seg.sn then rest
    else if sn < seg.sn then seg :: rest
    else seg :: removeAcked sn rest

def parseAck (k : Kcp Output) (sn : UInt32) : Kcp Output :=
  if timediff sn k.sndUna < 0 ∨ timediff sn k.sndNxt ≥ 0 then k
  else
    match k.sndBuf with
    | [] => k
    | front :: rest =>
      if front.sn = sn then { k with sndBuf := rest }
      else { k with sndBuf := removeAcked sn (front :: rest) }

def dropUna (una : UInt32) : List KcpSegment -> List KcpSegment
  | [] => []
  | front :: rest =>
    if timediff una front.sn > 0 then dropUna una rest else front :: rest

def parseUna (k : Kcp Output) (una : UInt32) : Kcp Output :=
  { k with sndBuf := dropUna una k.sndBuf }

def countFastack (sn ts : UInt32) : List KcpSegment -> List KcpSegment
  | [] => []
  | seg :: rest =>
    if timediff sn seg.sn < 0 then seg :: rest
    else
      (if sn ≠ seg.sn ∧ timediff ts seg.ts ≥ 0 then
        { seg with fastack := seg.fastack + 1 }
      else seg) :: countFastack sn ts rest

def parseFastack (k : Kcp Output) (sn ts : UInt32) : Kcp Output :=
  if timediff sn k.sndUna < 0 ∨ timediff sn k.sndNxt ≥ 0 then k
  else { k with sndBuf := countFastack sn ts k.sndBuf }

def ackPush (k : Kcp Output) (sn ts : UInt32) : Kcp Output :=
  { k with acklist := k.acklist ++ [(sn, ts)] }

/-!
## Received data
-/

/-- The backward scan of `parse_data` over the reversed reassembly buffer, put
back in order: insert behind the last smaller number, or report a repeat. -/
def insertScan (new : KcpSegment) : List KcpSegment -> Option (List KcpSegment)
  | [] => some [new]
  | seg :: rest =>
    if seg.sn = new.sn then none
    else if timediff new.sn seg.sn > 0 then some (new :: seg :: rest)
    else (insertScan new rest).map (seg :: ·)

def insertData (new : KcpSegment) (rcvBuf : List KcpSegment) : List KcpSegment :=
  match insertScan new rcvBuf.reverse with
  | none => rcvBuf
  | some reversed => reversed.reverse

def parseData (k : Kcp Output) (new : KcpSegment) : Kcp Output :=
  if timediff new.sn (k.rcvNxt + k.rcvWnd.toUInt32) ≥ 0 ∨
      timediff new.sn k.rcvNxt < 0 then k
  else moveBuf { k with rcvBuf := insertData new k.rcvBuf }

/-!
## Datagrams
-/

/-- The acknowledgement seen so far in one datagram: `flag`, `max_ack` and
`latest_ts`. -/
structure AckScan where
  flag : Bool := false
  maxAck : UInt32 := 0
  latestTs : UInt32 := 0
deriving DecidableEq, Repr

def AckScan.note (scan : AckScan) (sn ts : UInt32) : AckScan :=
  if scan.flag = false then { flag := true, maxAck := sn, latestTs := ts }
  else if timediff sn scan.maxAck > 0 ∧ timediff ts scan.latestTs > 0 then
    { scan with maxAck := sn, latestTs := ts }
  else scan

def inputAck (k : Kcp Output) (h : SegmentHeader) : Kcp Output :=
  let rtt := timediff k.current h.ts
  let k := if rtt ≥ 0 then k.updateAck rtt.toUInt32 else k
  (k.parseAck h.sn).shrinkBuf

def receivedSegment (h : SegmentHeader) (data : List Byte) : KcpSegment :=
  { conv := h.conv
    cmd := h.cmd
    frg := h.frg
    wnd := h.wnd
    ts := h.ts
    sn := h.sn
    una := h.una
    data := data }

def inputPush (k : Kcp Output) (h : SegmentHeader) (body : List Byte) :
    Result Unit × Kcp Output :=
  if timediff h.sn (k.rcvNxt + k.rcvWnd.toUInt32) < 0 then
    let k := k.ackPush h.sn h.ts
    if timediff h.sn k.rcvNxt ≥ 0 then
      if k.stream = true ∧ h.frg ≠ 0 then (.error (.unexpectedFragment h.frg), k)
      else if h.len > k.mss then (.error (.invalidSegmentDataSize k.mss h.len), k)
      else (.ok (), k.parseData (receivedSegment h (body.take h.len)))
    else (.ok (), k)
  else (.ok (), k)

def adoptConv (k : Kcp Output) (conv : UInt32) : Result Unit × Kcp Output :=
  if conv = k.conv then (.ok (), k)
  else if k.inputConv then (.ok (), { k with conv := conv, inputConv := false })
  else (.error (.convInconsistent k.conv conv), k)

def knownCmd (cmd : UInt8) : Bool :=
  cmd = cmdPush || cmd = cmdAck || cmd = cmdWask || cmd = cmdWins

def inputCommon (k : Kcp Output) (h : SegmentHeader) : Kcp Output :=
  (({ k with rmtWnd := h.wnd }).parseUna h.una).shrinkBuf

def inputCommand (k : Kcp Output) (scan : AckScan) (h : SegmentHeader)
    (body : List Byte) : Result AckScan × Kcp Output :=
  if h.cmd = cmdAck then (.ok (scan.note h.sn h.ts), k.inputAck h)
  else if h.cmd = cmdPush then
    andThen (k.inputPush h body) fun _ k => (.ok scan, k)
  else if h.cmd = cmdWask then
    (.ok scan, { k with probe := k.probe ||| askTell })
  else (.ok scan, k)

/-- One round of the segment loop: the header has been read and `body` is what
follows it in the datagram. -/
def inputSegment (k : Kcp Output) (scan : AckScan) (h : SegmentHeader)
    (body : List Byte) : Result AckScan × Kcp Output :=
  andThen (k.adoptConv h.conv) fun _ k =>
    if body.length < h.len then
      (.error (.invalidSegmentDataSize h.len body.length), k)
    else if knownCmd h.cmd = false then (.error (.unsupportedCmd h.cmd), k)
    else (k.inputCommon h).inputCommand scan h body

/-- The segment loop of `input`.  Each round consumes at least a header, so the
datagram's length is enough fuel. -/
def inputLoop : Nat -> Kcp Output -> AckScan -> List Byte ->
    Result (AckScan × List Byte) × Kcp Output
  | 0, k, scan, buf => (.ok (scan, buf), k)
  | fuel + 1, k, scan, buf =>
    if buf.length < overhead then (.ok (scan, buf), k)
    else
      let h := readHeader buf
      let body := buf.drop overhead
      andThen (k.inputSegment scan h body) fun scan k =>
        inputLoop fuel k scan (body.drop h.len)

/-- Congestion avoidance: the accumulator grows by about one segment for each
window acknowledged. -/
def avoidCongestion (cwnd : UInt16) (incr mss : Nat) : UInt16 × Nat :=
  let incr := if incr < mss then mss else incr
  let incr := (incr + (mss * mss % usizeMod / incr + mss / 16)) % usizeMod
  if (cwnd.toNat + 1) * mss % usizeMod ≤ incr then (UInt16.ofNat (incr / mss), incr)
  else (cwnd, incr)

/-- The congestion window and its accumulator after new data was acknowledged:
slow start below the threshold, congestion avoidance above it, and never past
the remote window. -/
def grownCwnd (cwnd ssthresh rmtWnd : UInt16) (incr mss : Nat) : UInt16 × Nat :=
  let grown :=
    if cwnd < ssthresh then (cwnd + 1, (incr + mss) % usizeMod)
    else avoidCongestion cwnd incr mss
  if grown.1 > rmtWnd then (rmtWnd, rmtWnd.toNat * mss % usizeMod) else grown

def growCwnd (k : Kcp Output) (oldUna : UInt32) : Kcp Output :=
  if timediff k.sndUna oldUna > 0 ∧ k.cwnd < k.rmtWnd then
    let grown := grownCwnd k.cwnd k.ssthresh k.rmtWnd k.incr k.mss
    { k with cwnd := grown.1, incr := grown.2 }
  else k

def inputFinish (k : Kcp Output) (scan : AckScan) (oldUna : UInt32) : Kcp Output :=
  let k := if scan.flag then k.parseFastack scan.maxAck scan.latestTs else k
  k.growCwnd oldUna

def input (k : Kcp Output) (buf : List Byte) : Result Nat × Kcp Output :=
  if buf.length < overhead then (.error (.invalidSegmentSize buf.length), k)
  else
    andThen (inputLoop buf.length k {} buf) fun scanned k' =>
      (.ok (buf.length - scanned.2.length), k'.inputFinish scanned.1 k.sndUna)

/-!
## Window probing
-/

def wndUnused (k : Kcp Output) : UInt16 :=
  if k.rcvQueue.length < k.rcvWnd.toNat then
    k.rcvWnd - UInt16.ofNat k.rcvQueue.length
  else 0

def probeWndSize (k : Kcp Output) : Kcp Output :=
  if k.rmtWnd = 0 then
    if k.probeWait = 0 then
      { k with probeWait := probeInit, tsProbe := k.current + probeInit }
    else if timediff k.current k.tsProbe ≥ 0 then
      let wait := if k.probeWait < probeInit then probeInit else k.probeWait
      let wait := wait + wait / 2
      let wait := if wait > probeLimit then probeLimit else wait
      { k with
        probeWait := wait
        tsProbe := k.current + wait
        probe := k.probe ||| askSend }
    else k
  else { k with tsProbe := 0, probeWait := 0 }

/-!
## Settings
-/

def setMtu (k : Kcp Output) (mtu : Nat) : Result Unit × Kcp Output :=
  if mtu < 50 ∨ mtu < overhead then (.error (.invalidMtu mtu), k)
  else (.ok (), { k with mtu := mtu, mss := mtu - overhead })

def setInterval (k : Kcp Output) (interval : UInt32) : Kcp Output :=
  { k with interval := min (max interval 10) 5000 }

def setNodelay (k : Kcp Output) (nodelay : Bool) (interval resend : Int32)
    (nc : Bool) : Kcp Output :=
  { k with
    nodelay := nodelay
    rxMinrto := if nodelay then rtoNdl else rtoMin
    interval :=
      if interval < 10 then 10
      else if interval > 5000 then 5000
      else interval.toUInt32
    fastresend := if resend ≥ 0 then resend.toUInt32 else k.fastresend
    nocwnd := nc }

def setWndsize (k : Kcp Output) (sndwnd rcvwnd : UInt16) : Kcp Output :=
  { k with
    sndWnd := if sndwnd > 0 then sndwnd else k.sndWnd
    rcvWnd := if rcvwnd > 0 then max rcvwnd wndRcv else k.rcvWnd }

def setRxMinrto (k : Kcp Output) (rto : UInt32) : Kcp Output :=
  { k with rxMinrto := rto }

def setFastResend (k : Kcp Output) (fr : UInt32) : Kcp Output :=
  { k with fastresend := fr }

def setMaximumResendTimes (k : Kcp Output) (deadLink : UInt32) : Kcp Output :=
  { k with deadLink := deadLink }

def waitSnd (k : Kcp Output) : Nat :=
  k.sndBuf.length + k.sndQueue.length

def isDeadLink (k : Kcp Output) : Bool :=
  k.state ≠ 0

/-!
## Flushing
-/

section Flushing

variable [Write Output]

def writeBuf (k : Kcp Output) : Result Unit × Kcp Output :=
  match Write.writeAll k.output k.buf with
  | (.error e, out) => (.error (.ioError e), { k with output := out })
  | (.ok (), out) => (.ok (), { k with output := out, buf := [] })

def flushBuf (k : Kcp Output) : Result Unit × Kcp Output :=
  if k.buf.isEmpty then (.ok (), k) else k.writeBuf

/-- Append one encoded segment, writing the buffer out first when `need` more
bytes would exceed the MTU. -/
def putSegment (k : Kcp Output) (need : Nat) (segment : KcpSegment) :
    Result Unit × Kcp Output :=
  andThen (if k.buf.length + need > k.mtu then k.writeBuf else (.ok (), k)) fun _ k =>
    (.ok (), { k with buf := k.buf ++ segment.encode })

def flushAckLoop : Kcp Output -> KcpSegment -> List (UInt32 × UInt32) ->
    Result KcpSegment × Kcp Output
  | k, segment, [] => (.ok segment, k)
  | k, segment, (sn, ts) :: rest =>
    let segment := { segment with sn := sn, ts := ts }
    andThen (k.putSegment overhead segment) fun _ k => flushAckLoop k segment rest

def flushAcks (k : Kcp Output) (segment : KcpSegment) :
    Result KcpSegment × Kcp Output :=
  andThen (flushAckLoop k segment k.acklist) fun segment k =>
    (.ok segment, { k with acklist := [] })

def flushProbe (k : Kcp Output) (ask : UInt32) (cmd : UInt8) (segment : KcpSegment) :
    Result KcpSegment × Kcp Output :=
  if k.probe &&& ask ≠ 0 then
    let segment := { segment with cmd := cmd }
    andThen (k.putSegment overhead segment) fun _ k => (.ok segment, k)
  else (.ok segment, k)

def flushProbeCommands (k : Kcp Output) (segment : KcpSegment) :
    Result Unit × Kcp Output :=
  andThen (k.flushProbe askSend cmdWask segment) fun segment k =>
    andThen (k.flushProbe askTell cmdWins segment) fun _ k =>
      (.ok (), { k with probe := 0 })

def controlSegment (k : Kcp Output) : KcpSegment :=
  { conv := k.conv
    cmd := cmdAck
    wnd := k.wndUnused
    una := k.rcvNxt }

def effectiveCwnd (k : Kcp Output) : UInt16 :=
  let cwnd := min k.sndWnd k.rmtWnd
  if k.nocwnd = false then min k.cwnd cwnd else cwnd

def stampSegment (k : Kcp Output) (wnd : UInt16) (seg : KcpSegment) : KcpSegment :=
  { seg with
    conv := k.conv
    cmd := cmdPush
    wnd := wnd
    ts := k.current
    sn := k.sndNxt
    una := k.rcvNxt
    resendts := k.current
    rto := k.rxRto
    fastack := 0
    xmit := 0 }

/-- Move segments from the queue into the send buffer while the window allows;
the result also counts them. -/
def fillWindow (wnd cwnd : UInt16) : List KcpSegment -> Kcp Output -> UInt32 ->
    Kcp Output × UInt32
  | [], k, count => ({ k with sndQueue := [] }, count)
  | seg :: rest, k, count =>
    if timediff k.sndNxt (k.sndUna + cwnd.toUInt32) < 0 then
      fillWindow wnd cwnd rest
        { k with
          sndNxt := k.sndNxt + 1
          sndBuf := k.sndBuf ++ [k.stampSegment wnd seg] }
        (count + 1)
    else ({ k with sndQueue := seg :: rest }, count)

structure ResendParams where
  resent : UInt32
  rtomin : UInt32
  newSegs : UInt32
  wnd : UInt16

structure ResendScan where
  lost : Bool := false
  change : UInt32 := 0
deriving DecidableEq, Repr

/-- The retransmission decision for one segment, in the order initial, fast,
early, timeout. -/
inductive Resend where
  | keep
  | initial
  | fast
  | early
  | timeout
deriving DecidableEq, Repr

def resendKind (k : Kcp Output) (p : ResendParams) (seg : KcpSegment) : Resend :=
  if seg.xmit = 0 then .initial
  else if seg.fastack ≥ p.resent then .fast
  else if seg.fastack > 0 ∧ p.newSegs = 0 then .early
  else if timediff k.current seg.resendts ≥ 0 then .timeout
  else .keep

def timeoutRto (k : Kcp Output) (seg : KcpSegment) : UInt32 :=
  if k.nodelay = false then seg.rto + max seg.rto k.rxRto
  else seg.rto + k.rxRto / 2

/-- The timers and counters a segment carries after the decision. -/
def resendTimers (k : Kcp Output) (p : ResendParams) (seg : KcpSegment) :
    Resend -> KcpSegment
  | .keep => seg
  | .initial =>
    { seg with
      xmit := seg.xmit + 1
      rto := k.rxRto
      resendts := k.current + k.rxRto + p.rtomin }
  | .fast | .early =>
    { seg with
      xmit := seg.xmit + 1
      fastack := 0
      rto := k.rxRto
      resendts := k.current + k.rxRto }
  | .timeout =>
    { seg with
      xmit := seg.xmit + 1
      rto := timeoutRto k seg
      fastack := 0
      resendts := k.current + timeoutRto k seg }

def ResendScan.note (scan : ResendScan) : Resend -> ResendScan
  | .keep | .initial => scan
  | .fast | .early => { scan with change := scan.change + 1 }
  | .timeout => { scan with lost := true }

def resendSegment (k : Kcp Output) (p : ResendParams) (seg : KcpSegment) :
    KcpSegment :=
  match resendKind k p seg with
  | .keep => seg
  | kind =>
    { resendTimers k p seg kind with
      ts := k.current
      wnd := p.wnd
      una := k.rcvNxt }

def noteTimeout (k : Kcp Output) (kind : Resend) : Kcp Output :=
  match kind with
  | .timeout => { k with xmit := k.xmit + 1 }
  | _ => k

def noteDeadLink (k : Kcp Output) (seg : KcpSegment) : Kcp Output :=
  if seg.xmit ≥ k.deadLink then { k with state := -1 } else k

/-- The retransmission loop over the send buffer.  A failed write leaves the
current segment updated and the rest of the buffer untouched. -/
def resendLoop (p : ResendParams) : Kcp Output -> ResendScan -> List KcpSegment ->
    List KcpSegment -> Result ResendScan × Kcp Output
  | k, scan, done, [] => (.ok scan, { k with sndBuf := done })
  | k, scan, done, seg :: rest =>
    let kind := resendKind k p seg
    if kind = .keep then resendLoop p k scan (done ++ [seg]) rest
    else
      let sent := resendSegment k p seg
      match (noteTimeout k kind).putSegment (overhead + sent.data.length) sent with
      | (.error e, k) => (.error e, { k with sndBuf := done ++ sent :: rest })
      | (.ok (), k) =>
        resendLoop p (noteDeadLink k sent) (scan.note kind) (done ++ [sent]) rest

structure Congestion where
  ssthresh : UInt16
  cwnd : UInt16
  incr : Nat

def atLeastMin (ssthresh : UInt16) : UInt16 :=
  if ssthresh < threshMin then threshMin else ssthresh

/-- The congestion state after the retransmission loop: `cwnd` is the window the
flush worked with, `resent` the fast-resend threshold. -/
def congestionAfter (c : Congestion) (inflight : UInt32) (mss : Nat) (cwnd : UInt16)
    (resent : UInt32) (scan : ResendScan) : Congestion :=
  let c :=
    if scan.change > 0 then
      let ssthresh := atLeastMin (inflight.toUInt16 / 2)
      let cwnd := ssthresh + resent.toUInt16
      { ssthresh := ssthresh, cwnd := cwnd, incr := cwnd.toNat * mss % usizeMod }
    else c
  let c :=
    if scan.lost then
      { ssthresh := atLeastMin (cwnd / 2), cwnd := 1, incr := mss }
    else c
  if c.cwnd < 1 then { c with cwnd := 1, incr := mss } else c

def flushFinish (k : Kcp Output) (cwnd : UInt16) (resent : UInt32)
    (scan : ResendScan) : Kcp Output :=
  let c :=
    congestionAfter { ssthresh := k.ssthresh, cwnd := k.cwnd, incr := k.incr }
      (k.sndNxt - k.sndUna) k.mss cwnd resent scan
  { k with ssthresh := c.ssthresh, cwnd := c.cwnd, incr := c.incr }

def resentThreshold (k : Kcp Output) : UInt32 :=
  if k.fastresend > 0 then k.fastresend else 4294967295

def resendParams (k : Kcp Output) (wnd : UInt16) (newSegs : UInt32) : ResendParams :=
  { resent := k.resentThreshold
    rtomin := if k.nodelay = false then k.rxRto >>> 3 else 0
    newSegs := newSegs
    wnd := wnd }

/-- The data phase of `flush`: fill the window, then transmit. -/
def flushData (k : Kcp Output) (wnd : UInt16) : Result Unit × Kcp Output :=
  let cwnd := k.effectiveCwnd
  let filled := fillWindow wnd cwnd k.sndQueue k 0
  let p := filled.1.resendParams wnd filled.2
  andThen (resendLoop p filled.1 {} [] filled.1.sndBuf) fun scan k =>
    andThen k.flushBuf fun _ k => (.ok (), k.flushFinish cwnd p.resent scan)

def flush (k : Kcp Output) : Result Unit × Kcp Output :=
  if k.updated = false then (.error .needUpdate, k)
  else
    andThen (k.flushAcks k.controlSegment) fun segment k =>
      andThen (k.probeWndSize.flushProbeCommands segment) fun _ k =>
        k.flushData segment.wnd

def update (k : Kcp Output) (current : UInt32) : Result Unit × Kcp Output :=
  let k := { k with current := current }
  let k := if k.updated = false then { k with updated := true, tsFlush := current } else k
  let slap := timediff k.current k.tsFlush
  let late := decide (slap < -10000 ∨ slap ≥ 10000)
  let k := if late then { k with tsFlush := k.current } else k
  if late = true ∨ slap ≥ 0 then
    let next := k.tsFlush + k.interval
    let k :=
      if timediff k.current next ≥ 0 then { k with tsFlush := k.current + k.interval }
      else { k with tsFlush := next }
    k.flush
  else (.ok (), k)

end Flushing

end Kcp
end FrpRs
