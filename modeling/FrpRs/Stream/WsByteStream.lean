import FrpRs.Data.Poll

/-!
# WebSocket byte streams

`WsByteStream` in `frp-core/src/transport/websocket.rs`.  Every write becomes one binary frame;
reads parse frames byte by byte and serve the data of binary and text frames.  Pings and closes
are answered from the read side, on the same inner stream that the write side uses.  What the
inner stream does not take of a data frame is kept in `writeBuf`, and of a control frame in
`pendingControlWrite`.

The masks are drawn one after the other from a given sequence.
-/

namespace FrpRs
namespace Stream

open Bytes Poll

def maxWsFramePayload : Nat := 65536 + 128
def maxNoProgressFramesPerPoll : Nat := 1024

/-!
## Frames
-/

structure Mask where
  k0 : Byte
  k1 : Byte
  k2 : Byte
  k3 : Byte
deriving DecidableEq, Repr

namespace Mask

def bytes (mask : Mask) : List Byte :=
  [mask.k0, mask.k1, mask.k2, mask.k3]

def ofBytes (bs : List Byte) : Mask where
  k0 := bs.getD 0 0
  k1 := bs.getD 1 0
  k2 := bs.getD 2 0
  k3 := bs.getD 3 0

end Mask

/-- Words of four bytes first, then the bytes that are left. -/
def xorMask (mask : Mask) : List Byte -> List Byte
  | a :: b :: c :: d :: rest =>
    (a ^^^ mask.k0) :: (b ^^^ mask.k1) :: (c ^^^ mask.k2) :: (d ^^^ mask.k3) :: xorMask mask rest
  | [a, b, c] => [a ^^^ mask.k0, b ^^^ mask.k1, c ^^^ mask.k2]
  | [a, b] => [a ^^^ mask.k0, b ^^^ mask.k1]
  | [a] => [a ^^^ mask.k0]
  | [] => []

def lengthField (flag : Byte) (len : Nat) : List Byte :=
  if len < 126 then [flag ||| UInt8.ofNat len]
  else if len ≤ 65535 then (flag ||| 126) :: beBytes 2 len
  else (flag ||| 127) :: beBytes 8 len

def buildFrameInto (mask : Mask) (buf : List Byte) (clientMode : Bool) : List Byte :=
  if clientMode then 0x82 :: lengthField 0x80 buf.length ++ (mask.bytes ++ xorMask mask buf)
  else 0x82 :: lengthField 0 buf.length ++ buf

def buildServerFrameHeader (len : Nat) : List Byte :=
  0x82 :: lengthField 0 len

def buildControlFrame (mask : Mask) (opcode : Byte) (payload : List Byte) (clientMode : Bool) :
    List Byte :=
  (0x80 ||| opcode) ::
    if clientMode then
      (0x80 ||| UInt8.ofNat payload.length) :: (mask.bytes ++ xorMask mask payload)
    else UInt8.ofNat payload.length :: payload

/-!
## The stream
-/

/-- How much of a frame has been read; each field holds the bytes read of it so far. -/
inductive RawReadState where
  | idle
  | readingHeader (head : List Byte)
  | readingExtendedLen2 (ext : List Byte)
  | readingExtendedLen8 (ext : List Byte)
  | readingMaskKey (maskKey : List Byte)
  | readingPayload (payload : List Byte)
deriving DecidableEq, Repr

/-- The last header. -/
structure RawFrame where
  opcode : Byte
  masked : Bool
  maskKey : Mask
  payloadLen : Nat
deriving DecidableEq, Repr

structure WsByteStream where
  readBuf : List Byte
  readPos : Nat
  writeBuf : List Byte
  writePos : Nat
  needsFlush : Bool
  pendingFramePayloadLen : Nat
  drainCompleted : Bool
  clientMode : Bool
  rawReadState : RawReadState
  rawFrame : RawFrame
  pendingControlWrite : List Byte
  pendingControlPos : Nat
  /-- The innermost stream is plain TCP. -/
  tcp : Bool
  /-- The masks drawn so far. -/
  drawn : Nat
deriving DecidableEq, Repr

namespace WsByteStream

def fromRaw (tcp clientMode : Bool) : WsByteStream where
  readBuf := []
  readPos := 0
  writeBuf := []
  writePos := 0
  needsFlush := false
  pendingFramePayloadLen := 0
  drainCompleted := false
  clientMode := clientMode
  rawReadState := .idle
  rawFrame := ⟨0, false, ⟨0, 0, 0, 0⟩, 0⟩
  pendingControlWrite := []
  pendingControlPos := 0
  tcp := tcp
  drawn := 0

/-!
## Parsing
-/

def draw (s : WsByteStream) : WsByteStream :=
  if s.clientMode then { s with drawn := s.drawn + 1 } else s

/-- What the bytes of one read lead to. -/
inductive Parsed where
  | wait (st : RawReadState) (frame : RawFrame)
  | next (st : RawReadState) (frame : RawFrame)
  | complete (payload : List Byte) (frame : RawFrame)
  | bad (error : IoError) (frame : RawFrame)
deriving DecidableEq, Repr

/-- The end of the length field. -/
def lengthKnown (frame : RawFrame) (len : Nat) : Parsed :=
  if maxWsFramePayload < len then .bad (invalidData "WS frame too large") frame
  else
    let frame := { frame with payloadLen := len }
    if frame.masked then .next (.readingMaskKey []) frame
    else if 0 < len then .next (.readingPayload []) frame
    else .complete [] frame

def headerKnown (clientMode : Bool) (frame : RawFrame) (b0 b1 : Byte) : Parsed :=
  let opcode := b0 &&& 0x0F
  let masked := (b1 &&& 0x80) ≠ 0
  let rawLen := (b1 &&& 0x7F).toNat
  let frame := { frame with opcode := opcode, masked := masked }
  if b0 &&& 0x70 ≠ 0 then .bad (invalidData "WS frame has RSV bits set") frame
  else if decide masked = clientMode then
    .bad (invalidData (if clientMode then "WS frame from server must not be masked"
      else "WS frame from client must be masked")) frame
  else if 0x08 ≤ opcode ∧ opcode ≤ 0x0A ∧ b0 &&& 0x80 = 0 then
    .bad (invalidData "WS control frame has FIN not set") frame
  else if 0x08 ≤ opcode ∧ opcode ≤ 0x0A ∧ 125 < rawLen then
    .bad (invalidData "WS control frame length > 125") frame
  else if rawLen = 126 then .next (.readingExtendedLen2 []) frame
  else if rawLen = 127 then .next (.readingExtendedLen8 []) frame
  else lengthKnown frame rawLen

/-- The room of the field that is being read. -/
def want (frame : RawFrame) : RawReadState -> Nat
  | .idle => 0
  | .readingHeader head => 2 - head.length
  | .readingExtendedLen2 ext => 2 - ext.length
  | .readingExtendedLen8 ext => 8 - ext.length
  | .readingMaskKey maskKey => 4 - maskKey.length
  | .readingPayload payload => frame.payloadLen - payload.length

def advance (clientMode : Bool) (frame : RawFrame) (got : List Byte) : RawReadState -> Parsed
  | .idle => .next .idle frame
  | .readingHeader head =>
    let head := head ++ got
    if head.length < 2 then .wait (.readingHeader head) frame
    else headerKnown clientMode frame (head.getD 0 0) (head.getD 1 0)
  | .readingExtendedLen2 ext =>
    let ext := ext ++ got
    if ext.length < 2 then .wait (.readingExtendedLen2 ext) frame
    else lengthKnown frame (ofBeBytes ext)
  | .readingExtendedLen8 ext =>
    let ext := ext ++ got
    if ext.length < 8 then .wait (.readingExtendedLen8 ext) frame
    else lengthKnown frame (ofBeBytes ext)
  | .readingMaskKey maskKey =>
    let maskKey := maskKey ++ got
    if maskKey.length < 4 then .wait (.readingMaskKey maskKey) frame
    else
      let frame := { frame with maskKey := Mask.ofBytes maskKey }
      if 0 < frame.payloadLen then .next (.readingPayload []) frame
      else .complete [] frame
  | .readingPayload payload =>
    let payload := payload ++ got
    if payload.length < frame.payloadLen then .wait (.readingPayload payload) frame
    else .complete (if frame.masked then xorMask frame.maskKey payload else payload) frame

/-!
## Control frames
-/

/-- Whether the frame is out, or its tail stashed. -/
def pollWriteControl (s : WsByteStream) (sink : Sink) (frame : List Byte) :
    Except IoError Bool × WsByteStream × Sink :=
  match sink.pollWrite frame with
  | (.ready n, sink) =>
    if frame.length ≤ n then (.ok true, s, sink)
    else if n = 0 then (.error writeZero, s, sink)
    else (.ok false, { s with pendingControlWrite := frame.drop n, pendingControlPos := 0 }, sink)
  | (.failed e, sink) => (.error e, s, sink)
  | (.pending, sink) =>
    (.ok false, { s with pendingControlWrite := frame, pendingControlPos := 0 }, sink)

def closePayload : List Byte := [0x03, 0xE8]

/-- The frame is done with: the poll ends, or goes on to the next frame. -/
def dispatchRawFrame (masks : Nat -> Mask) (s : WsByteStream) (sink : Sink) (cap : Nat)
    (payload : List Byte) : Outcome (List Byte) × WsByteStream × Sink :=
  let s := { s with rawReadState := .idle }
  let opcode := s.rawFrame.opcode
  if opcode = 0x00 then
    (.failed (invalidData "WS continuation frame without a fragmented message"), s, sink)
  else if opcode = 0x01 ∨ opcode = 0x02 then
    if payload = [] then (.pending, s, sink)
    else if cap = 0 then (.pending, { s with readBuf := payload, readPos := 0 }, sink)
    else
      (.ready (payload.take cap),
        if cap < payload.length then { s with readBuf := payload.drop cap, readPos := 0 } else s,
        sink)
  else if opcode = 0x08 then
    let frame := buildControlFrame (masks s.drawn) 0x08 closePayload s.clientMode
    match pollWriteControl s.draw sink frame with
    | (.ok true, s, sink) => (.ready [], s, sink)
    | (.ok false, s, sink) => (.pending, s, sink)
    | (.error e, s, sink) => (.failed e, s, sink)
  else if opcode = 0x09 then
    if 125 < payload.length then (.failed (invalidData "WS control frame length > 125"), s, sink)
    else
      let frame := buildControlFrame (masks s.drawn) 0x0A payload s.clientMode
      let r := pollWriteControl s.draw sink frame
      (.pending, r.2.1, r.2.2)
  else if opcode = 0x0A then (.pending, s, sink)
  else
    (.failed (invalidData ("unexpected WS opcode: 0x" ++
      String.ofList (Nat.toDigits 16 opcode.toNat))), s, sink)

/-!
## Reading
-/

/-- How one turn of the read loop ends. -/
inductive Turn where
  | again (s : WsByteStream) (sink : Sink) (source : Source) (idles : Nat)
  | finish (outcome : Outcome (List Byte)) (s : WsByteStream) (sink : Sink) (source : Source)

/-- A turn, in a poll that has met so many frame boundaries. -/
def turn (masks : Nat -> Mask) (cap : Nat) (s : WsByteStream) (sink : Sink) (source : Source)
    (idles : Nat) : Turn :=
  if s.rawReadState = .idle then
    if maxNoProgressFramesPerPoll < idles + 1 then .finish .pending s sink source
    else .again { s with rawReadState := .readingHeader [] } sink source (idles + 1)
  else
    match source.pollRead (want s.rawFrame s.rawReadState) with
    | (.pending, source) => .finish .pending s sink source
    | (.failed e, source) => .finish (.failed e) s sink source
    | (.ready got, source) =>
      if got = [] then .finish (.ready []) s sink source
      else
        match advance s.clientMode s.rawFrame got s.rawReadState with
        | .wait st frame =>
          .finish .pending { s with rawReadState := st, rawFrame := frame } sink source
        | .next st frame => .again { s with rawReadState := st, rawFrame := frame } sink source idles
        | .bad e frame =>
          .finish (.failed e) { s with rawReadState := .idle, rawFrame := frame } sink source
        | .complete payload frame =>
          match dispatchRawFrame masks { s with rawFrame := frame } sink cap payload with
          | (.pending, s, sink) => .again s sink source idles
          | (.ready got, s, sink) => .finish (.ready got) s sink source
          | (.failed e, s, sink) => .finish (.failed e) s sink source

def pollLoop (masks : Nat -> Mask) (cap : Nat) :
    Nat -> WsByteStream -> Sink -> Source -> Nat ->
      Outcome (List Byte) × WsByteStream × Sink × Source
  | 0, s, sink, source, _ => (.pending, s, sink, source)
  | fuel + 1, s, sink, source, idles =>
    match turn masks cap s sink source idles with
    | .again s sink source idles => pollLoop masks cap fuel s sink source idles
    | .finish outcome s sink source => (outcome, s, sink, source)

def loopFuel (source : Source) : Nat :=
  2 * source.weight + 2

/-- A stashed control frame is written on, and kept as far as it is not taken. -/
def drainControl (s : WsByteStream) (sink : Sink) : Outcome Unit × WsByteStream × Sink :=
  match sink.drain s.pendingControlWrite s.pendingControlPos with
  | (.done, sink) => (.ready (), { s with pendingControlWrite := [], pendingControlPos := 0 }, sink)
  | (.failed e, sink) => (.failed e, s, sink)
  | (.part pos, sink) => (.pending, { s with pendingControlPos := pos }, sink)
  | (.pending, sink) => (.pending, s, sink)

def serve (s : WsByteStream) (cap : Nat) : WsByteStream :=
  if s.readBuf.length ≤ s.readPos + cap then { s with readBuf := [], readPos := 0 }
  else { s with readPos := s.readPos + cap }

def pollRead (masks : Nat -> Mask) (s : WsByteStream) (sink : Sink) (source : Source) (cap : Nat) :
    Outcome (List Byte) × WsByteStream × Sink × Source :=
  if s.readPos < s.readBuf.length then
    (.ready ((s.readBuf.drop s.readPos).take cap), serve s cap, sink, source)
  else if s.pendingControlWrite ≠ [] then
    match drainControl s sink with
    | (.ready _, s, sink) => pollLoop masks cap (loopFuel source) s sink source 0
    | (.pending, s, sink) => (.pending, s, sink, source)
    | (.failed e, s, sink) => (.failed e, s, sink, source)
  else pollLoop masks cap (loopFuel source) s sink source 0

/-!
## Writing
-/

/-- The first attempt at a frame: it is out, or its rest is kept. -/
def writeFrame (masks : Nat -> Mask) (s : WsByteStream) (sink : Sink) (buf : List Byte) :
    Outcome Nat × WsByteStream × Sink :=
  if !s.clientMode && s.tcp then
    let hdr := buildServerFrameHeader buf.length
    match sink.pollWrite (hdr ++ buf) with
    | (.ready n, sink) =>
      if hdr.length + buf.length ≤ n then (.ready buf.length, s, sink)
      else
        (.pending, { s with
          writeBuf := if n < hdr.length then hdr.drop n ++ buf else buf.drop (n - hdr.length)
          pendingFramePayloadLen := buf.length
          writePos := 0
          needsFlush := true }, sink)
    | (.failed e, sink) => (.failed e, s, sink)
    | (.pending, sink) => (.pending, s, sink)
  else
    let frame := buildFrameInto (masks s.drawn) buf s.clientMode
    let s := { s.draw with writeBuf := frame, pendingFramePayloadLen := buf.length }
    match sink.pollWrite frame with
    | (.ready n, sink) =>
      if frame.length ≤ n then (.ready buf.length, { s with writeBuf := [] }, sink)
      else (.pending, { s with writePos := n, needsFlush := true }, sink)
    | (.failed e, sink) => (.failed e, s, sink)
    | (.pending, sink) => (.pending, { s with writePos := 0, needsFlush := true }, sink)

/-- A kept frame is written on.  The buffer is not cleared when it is out. -/
def drainFrame (s : WsByteStream) (sink : Sink) : Outcome Unit × WsByteStream × Sink :=
  match sink.drain s.writeBuf s.writePos with
  | (.done, sink) => (.ready (), { s with writePos := 0, needsFlush := false }, sink)
  | (.failed e, sink) => (.failed e, s, sink)
  | (.part pos, sink) => (.pending, { s with writePos := pos }, sink)
  | (.pending, sink) => (.pending, s, sink)

def pollWrite (masks : Nat -> Mask) (s : WsByteStream) (sink : Sink) (buf : List Byte) :
    Outcome Nat × WsByteStream × Sink :=
  if s.drainCompleted then
    (.ready (min s.pendingFramePayloadLen buf.length), { s with drainCompleted := false }, sink)
  else if s.needsFlush then
    match drainFrame s sink with
    | (.ready _, s, sink) => (.ready (min s.pendingFramePayloadLen buf.length), s, sink)
    | (.failed e, s, sink) =>
      (.failed e, { s with needsFlush := false, drainCompleted := false }, sink)
    | (.pending, s, sink) => (.pending, s, sink)
  else if buf = [] then (.ready 0, s, sink)
  else writeFrame masks s sink buf

def pollFlush (s : WsByteStream) (sink : Sink) : Outcome Unit × WsByteStream × Sink :=
  if s.needsFlush then
    match drainFrame s sink with
    | (.ready _, s, sink) => (.ready (), { s with drainCompleted := true }, sink)
    | (.failed e, s, sink) =>
      (.failed e, { s with needsFlush := false, drainCompleted := false }, sink)
    | (.pending, s, sink) => (.pending, s, sink)
  else (.ready (), s, sink)

/-- A close frame, unless a control frame is stashed; then the inner stream is shut down. -/
def shutdownControl (masks : Nat -> Mask) (s : WsByteStream) (sink : Sink) :
    Outcome Unit × WsByteStream × Sink :=
  let s :=
    if s.pendingControlWrite = [] then
      { s.draw with
        pendingControlWrite := buildControlFrame (masks s.drawn) 0x08 closePayload s.clientMode
        pendingControlPos := 0 }
    else s
  match drainControl s sink with
  | (.ready _, s, sink) => (sink.pollFlush.1, s, sink.pollFlush.2)
  | (.failed e, s, sink) => (.failed e, s, sink)
  | (.pending, s, sink) => (.pending, s, sink)

def pollShutdown (masks : Nat -> Mask) (s : WsByteStream) (sink : Sink) :
    Outcome Unit × WsByteStream × Sink :=
  if s.needsFlush then
    match drainFrame s sink with
    | (.ready _, s, sink) => shutdownControl masks s sink
    | (.failed e, s, sink) => (.failed e, s, sink)
    | (.pending, s, sink) => (.pending, s, sink)
  else shutdownControl masks s sink

def wsWriter (masks : Nat -> Mask) : Writer WsByteStream where
  pollWrite := pollWrite masks
  pollFlush := pollFlush

def wsReader (masks : Nat -> Mask) : Reader (WsByteStream × Sink) where
  pollRead s source cap :=
    let r := pollRead masks s.1 s.2 source cap
    (r.1, (r.2.1, r.2.2.1), r.2.2.2)

end WsByteStream

end Stream
end FrpRs
