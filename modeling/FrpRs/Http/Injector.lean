import FrpRs.Data.Poll
import FrpRs.Data.Table
import FrpRs.Http.Textproto

/-!
# The response header injector

`ResponseHeaderInjector` of `frp-server/src/control/bridge/injector.rs`.  It gathers the heads of
a backend's response.  Interim heads are served as they are; the final head gets the configured
headers, and the rest of the stream is passed through.  A body that the backend declares behind a
204 or 304 is skipped as far as it has been read.

Texts are their UTF-8 bytes.  The timer of the deadline is the number of polls after which it has
fired.
-/

namespace FrpRs
namespace Http
namespace Injector

open Bytes Lines Textproto Poll

/-!
## Status lines
-/

def isHttpVersion (v : List Byte) : Bool :=
  (utf8 "HTTP/").isPrefixOf v && (v.drop 5).length = 3 && (v.drop 5)[1]? = some 46 &&
    (v.drop 5)[0]?.any isAsciiDigit && (v.drop 5)[2]?.any isAsciiDigit

def signOf (code : List Byte) : Bool × Bool × List Byte :=
  if code.head? = some 43 then (true, false, code.tail)
  else if code.head? = some 45 then (true, true, code.tail)
  else (false, false, code)

def decimal (digits : List Byte) : Nat :=
  digits.foldl (fun value b => value * 10 + (b.toNat - 48)) 0

/-- A code of three bytes, of which the first may be a sign. -/
def statusCode (code : List Byte) : Option Nat :=
  let (signed, negative, digits) := signOf code
  if code.length ≠ 3 then none
  else if digits.length ≠ 3 - signed.toNat || digits.any fun b => !isAsciiDigit b then none
  else if negative && decimal digits ≠ 0 then none
  else some (decimal digits)

/-- The status code of the first line. -/
def headStatusCode (head : List Byte) : Option Nat :=
  match cut lf head with
  | none => none
  | some (line, _) =>
    match cut space (stripCr line) with
    | none => none
    | some (version, rest) =>
      if isHttpVersion version then
        statusCode ((rest.dropWhile fun b => b = space).takeWhile fun b => b ≠ space)
      else none

def servedRaw : Option Nat -> Bool
  | some c => 100 ≤ c && c ≤ 199 && c ≠ 101
  | none => true

/-!
## Configured headers
-/

def HeaderMap : Type := Table (List Byte) (List Byte)

def HeaderMap.pairs (headers : HeaderMap) : List (List Byte × List Byte) :=
  headers.entries.map fun e => (e.1, e.2)

def HeaderMap.hasName (headers : HeaderMap) (name : List Byte) : Bool :=
  headers.pairs.any fun h => eqIgnoreAsciiCase h.1 name

def suppressedHeadersForStatus : Option Nat -> List (List Byte)
  | some 304 => [utf8 "content-type", utf8 "content-length", utf8 "transfer-encoding"]
  | some 204 => [utf8 "content-length", utf8 "transfer-encoding"]
  | _ => []

def lineBody (line : List Byte) : List Byte :=
  stripCr (if line.getLast? = some lf then line.dropLast else line)

def isContinuation (line : List Byte) : Bool :=
  (lineBody line).head?.any isOws

def takesOut (headers : HeaderMap) (suppress : List (List Byte)) (line : List Byte) : Bool :=
  !isContinuation line && (cut colon (lineBody line)).any fun parts =>
    headers.hasName parts.1 || suppress.any fun s => eqIgnoreAsciiCase parts.1 s

def spliceLines (headers : HeaderMap) (suppress : List (List Byte)) :
    Nat -> List (List Byte) -> List Byte
  | 0, _ => []
  | _ + 1, [] => []
  | fuel + 1, line :: rest =>
    if takesOut headers suppress line then
      spliceLines headers suppress fuel (rest.dropWhile isContinuation)
    else line ++ spliceLines headers suppress fuel rest

def spliceHeadDeduplicated (headRegion : List Byte) (headers : HeaderMap)
    (suppress : List (List Byte)) : List Byte :=
  let lines := splitInclusive lf headRegion
  spliceLines headers suppress lines.length lines

def sanitize (text : List Byte) : List Byte :=
  text.filter fun b => b ≠ cr && b ≠ lf

def headerLine (h : List Byte × List Byte) : List Byte :=
  sanitize h.1 ++ utf8 ": " ++ sanitize h.2 ++ crlf

def HeaderMap.sorted (headers : HeaderMap) (suppress : List (List Byte)) :
    List (List Byte × List Byte) :=
  (headers.pairs.filter fun h => !suppress.any fun s => eqIgnoreAsciiCase h.1 s).insertionSort
    fun a b => byteLe a.1 b.1

/-- The emission up to a header, and where the line of that header starts. -/
structure Emission where
  out : List Byte
  prevKey : Option (List Byte)
  prevStart : Nat

def Emission.header (e : Emission) (h : List Byte × List Byte) : Emission :=
  let out :=
    if e.prevKey.any fun k => eqIgnoreAsciiCase k h.1 then e.out.take e.prevStart else e.out
  { out := out ++ headerLine h, prevKey := some h.1, prevStart := out.length }

def emitHeaders (out : List Byte) (sorted : List (List Byte × List Byte)) : List Byte :=
  (sorted.foldl Emission.header ⟨out, none, 0⟩).out

/-!
## Declared bodies
-/

inductive DeclaredFraming where
  | none
  | contentLength (n : Nat)
  | chunked
deriving DecidableEq, Repr

/-- The values of the two framing headers, and whether none of them is folded. -/
structure TeCl where
  te : List (List Byte)
  cl : List (List Byte)
  ok : Bool
  lastTeCl : Bool

def TeCl.line (t : TeCl) (line : List Byte) : TeCl :=
  if isContinuation line then { t with ok := t.ok && !t.lastTeCl }
  else
    match cut colon (lineBody line) with
    | Option.none => { t with lastTeCl := false }
    | some (name, value) =>
      if eqIgnoreAsciiCase name (utf8 "transfer-encoding") then
        { t with te := t.te ++ [trimOws value], lastTeCl := true }
      else if eqIgnoreAsciiCase name (utf8 "content-length") then
        { t with cl := t.cl ++ [trimOws value], lastTeCl := true }
      else { t with lastTeCl := false }

def headTeCl (headRegion : List Byte) : TeCl :=
  (splitInclusive lf headRegion).foldl TeCl.line ⟨[], [], true, false⟩

/-- Digits only, below `2^63`; the sum itself must not leave 64 bits. -/
def parseContentLengthValue (v : List Byte) : Option Nat :=
  if v = [] then none
  else
    (v.foldl (fun n b => n.bind fun n =>
      if isAsciiDigit b && n * 10 + (b.toNat - 48) < 2 ^ 64 then some (n * 10 + (b.toNat - 48))
      else none) (some 0)).filter fun n => n < 2 ^ 63

def declaredBodyFraming (headRegion : List Byte) : DeclaredFraming :=
  let t := headTeCl headRegion
  if !t.ok then .none
  else
    match t.te with
    | [value] => if eqIgnoreAsciiCase value (utf8 "chunked") then .chunked else .none
    | _ :: _ :: _ => .none
    | [] =>
      match t.cl with
      | [] => .none
      | first :: rest =>
        if rest.any fun v => v ≠ first then .none
        else
          match parseContentLengthValue first with
          | some (n + 1) => .contentLength (n + 1)
          | _ => .none

/-!
## Skipping a chunked body
-/

inductive ChunkedState where
  | size
  | data
  | dataEnd
  | trailers
deriving DecidableEq, Repr

/-- `left` is what is missing of the current chunk, and `trailerScanned` how far the trailers in
`pending` have been looked at. -/
structure ChunkedSkip where
  state : ChunkedState
  pending : List Byte
  left : Nat
  trailerScanned : Nat
deriving DecidableEq, Repr

namespace ChunkedSkip

def new : ChunkedSkip where
  state := .size
  pending := []
  left := 0
  trailerScanned := 0

def hexDigit (b : Byte) : Option Nat :=
  if isAsciiDigit b then some (b.toNat - 48)
  else if 97 ≤ b && b ≤ 102 then some (b.toNat - 97 + 10)
  else if 65 ≤ b && b ≤ 70 then some (b.toNat - 65 + 10)
  else none

/-- The first argument counts the digits before. -/
def parseHexFrom : Nat -> Nat -> List Byte -> Except String Nat
  | _, n, [] => .ok n
  | i, n, b :: bs =>
    match hexDigit b with
    | none => .error "invalid byte in chunk length"
    | some d =>
      if i = 16 then .error "http chunk length too large"
      else parseHexFrom (i + 1) (n * 16 + d) bs

def parseHex (v : List Byte) : Except String Nat :=
  if v = [] then .error "empty hex number for chunk length" else parseHexFrom 0 0 v

/-- A size line without its line feed. -/
def parseSizeLine (line : List Byte) : Except String Nat :=
  if line.getLast? ≠ some cr then .error "chunked line ends with bare LF"
  else if cr ∈ line.dropLast then .error "invalid CR in chunked line"
  else if line.dropLast.length ≥ 4096 then .error "chunked size line too long"
  else parseHex ((line.dropLast.rdropWhile isOws).takeWhile fun b => b ≠ 59)

/-- Lines are looked at from `pos` on; the result is where the block ends, or where to go on. -/
def scanTrailers (pending : List Byte) : Nat -> Nat -> Except String (Bool × Nat)
  | 0, pos => .ok (false, pos)
  | fuel + 1, pos =>
    if pos > 4096 then .error "suspiciously long trailer after chunked body"
    else
      match cut lf (pending.drop pos) with
      | none =>
        if pending.length > 4096 + 2 then
          .error "suspiciously long trailer after chunked body"
        else .ok (false, pos)
      | some (line, _) =>
        if stripCr line = [] then .ok (true, pos + line.length + 1)
        else scanTrailers pending fuel (pos + line.length + 1)

def run : Nat -> ChunkedSkip -> Except String Bool × ChunkedSkip
  | 0, s => (.ok false, s)
  | fuel + 1, s =>
    match s.state with
    | .size =>
      match cut lf s.pending with
      | none =>
        if s.pending.length > 4096 + 2 then
          (.error "chunked size line exceeds 4096 bytes", s)
        else (.ok false, s)
      | some (line, rest) =>
        match parseSizeLine line with
        | .error e => (.error e, s)
        | .ok 0 => run fuel { s with pending := rest, state := .trailers }
        | .ok (n + 1) => run fuel { s with pending := rest, left := n + 1, state := .data }
    | .data =>
      if s.pending = [] then (.ok false, s)
      else
        let take := min s.pending.length s.left
        run fuel { s with
          pending := s.pending.drop take
          left := s.left - take
          state := if s.left - take = 0 then .dataEnd else .data }
    | .dataEnd =>
      if s.pending.length < 2 then (.ok false, s)
      else if s.pending.take 2 ≠ crlf then (.error "malformed chunked encoding", s)
      else run fuel { s with pending := s.pending.drop 2, state := .size }
    | .trailers =>
      match scanTrailers s.pending (s.pending.length + 1) s.trailerScanned with
      | .error e => (.error e, s)
      | .ok (false, pos) => (.ok false, { s with trailerScanned := pos })
      | .ok (true, pos) =>
        (.ok true, { s with pending := s.pending.drop pos, trailerScanned := 0 })

/-- Every turn of the loop that is not the last one takes bytes off `pending`. -/
def feed (s : ChunkedSkip) (bytes : List Byte) : Except String Bool × ChunkedSkip :=
  let s := { s with pending := s.pending ++ bytes }
  s.run (s.pending.length + 1)

end ChunkedSkip

inductive Discard where
  | length (left : Nat)
  | chunked (skip : ChunkedSkip)
deriving DecidableEq, Repr

/-!
## The injector
-/

structure ResponseHeaderInjector where
  headers : HeaderMap
  buffer : List Byte
  bufferOffset : Nat
  injected : Bool
  rawHead : Bool
  tail : Option (List Byte)
  malformedRaw : Bool
  complete : Bool
  headScanner : HeadEndScanner
  deadlineSleep : Option Nat
  discard : Option Discard
  rawPass : Bool

namespace ResponseHeaderInjector

def new (headers : HeaderMap) (headerTimeout : Option Nat) : ResponseHeaderInjector where
  headers := headers
  buffer := []
  bufferOffset := 0
  injected := false
  rawHead := false
  tail := none
  malformedRaw := false
  complete := false
  headScanner := HeadEndScanner.new
  deadlineSleep := headerTimeout
  discard := none
  rawPass := false

def rawHeadFullyServed (s : ResponseHeaderInjector) : ResponseHeaderInjector :=
  if s.malformedRaw then
    { s with
      tail := none
      buffer := []
      bufferOffset := 0
      headScanner := HeadEndScanner.new
      complete := true }
  else
    { s with
      headScanner := HeadEndScanner.new
      buffer := s.tail.getD []
      tail := none
      bufferOffset := 0 }

def emissionDrained (s : ResponseHeaderInjector) : ResponseHeaderInjector :=
  if s.rawPass then { s with rawPass := false, complete := true }
  else if s.rawHead then rawHeadFullyServed { s with rawHead := false }
  else if s.injected && s.discard.isSome then
    { s with
      injected := false
      buffer := s.tail.getD []
      tail := none
      bufferOffset := 0
      headScanner := HeadEndScanner.new }
  else { s with complete := true }

/-- What a poll has put into the caller's buffer, beside what it returns. -/
structure Answer where
  poll : Outcome Unit
  filled : List Byte
  state : ResponseHeaderInjector
  source : Source

def emits (s : ResponseHeaderInjector) : Bool :=
  (s.injected || s.rawHead || s.rawPass) && s.bufferOffset < s.buffer.length

/-- As much of the emission as fits into the caller's buffer. -/
def serve (s : ResponseHeaderInjector) (source : Source) (cap : Nat) : Answer :=
  let toCopy := min (s.buffer.length - s.bufferOffset) cap
  let served := { s with bufferOffset := s.bufferOffset + toCopy }
  { poll := .ready ()
    filled := (s.buffer.drop s.bufferOffset).take toCopy
    state :=
      if served.buffer.length ≤ served.bufferOffset then served.emissionDrained else served
    source := source }

/-- A read of the inner stream into the caller's buffer.  A failed decoding ends the stream. -/
def passThrough (s : ResponseHeaderInjector) (source : Source) (cap : Nat) : Answer :=
  match source.pollRead cap with
  | (.pending, source) => ⟨.pending, [], s, source⟩
  | (.ready got, source) => ⟨.ready (), got, s, source⟩
  | (.failed e, source) =>
    if e.kind = .invalidData then ⟨.ready (), [], s, source⟩ else ⟨.failed e, [], s, source⟩

/-!
## The discarded body
-/

def abortAfterDiscardFailure (s : ResponseHeaderInjector) : ResponseHeaderInjector :=
  { s with
    discard := none
    tail := none
    buffer := []
    bufferOffset := 0
    complete := true
    malformedRaw := true }

def discardDone (s : ResponseHeaderInjector) (leftover : List Byte) : ResponseHeaderInjector :=
  { s with
    discard := none
    buffer := leftover
    bufferOffset := 0
    complete := s.complete || leftover.isEmpty
    rawPass := s.rawPass || !leftover.isEmpty }

def discardSpent (s : ResponseHeaderInjector) : ResponseHeaderInjector :=
  { s with buffer := [], discard := none, complete := true }

def consume (s : ResponseHeaderInjector) (d : Discard) : ResponseHeaderInjector :=
  if s.buffer = [] then s.discardSpent
  else
    match d with
    | .length left =>
      if left ≤ s.buffer.length then s.discardDone (s.buffer.drop left) else s.discardSpent
    | .chunked skip =>
      match skip.feed s.buffer with
      | (.error _, _) => s.abortAfterDiscardFailure
      | (.ok true, skip) => s.discardDone skip.pending
      | (.ok false, _) => s.discardSpent

def runDiscard (s : ResponseHeaderInjector) (d : Discard) (source : Source) (cap : Nat) : Answer :=
  let s := s.consume d
  if s.rawPass && s.bufferOffset < s.buffer.length then s.serve source cap
  else if s.malformedRaw then ⟨.ready (), [], s, source⟩
  else s.passThrough source cap

/-!
## Gathering heads
-/

def noStatusLine : IoError where
  kind := .invalidData
  text := "backend response head has no status line"

def timedOut : IoError where
  kind := .timedOut
  text := "timed out waiting for response headers"

def closedEarly : IoError where
  kind := .unexpectedEof
  text := "backend closed before completing response head"

def headTooLong : IoError where
  kind := .invalidData
  text := "response header exceeds 64KB limit"

def blankStart (buffer : List Byte) (headEnd : Nat) : Nat :=
  if 2 ≤ headEnd && buffer[headEnd - 2]? = some cr then headEnd - 2 else headEnd - 1

def serveRaw (s : ResponseHeaderInjector) (headEnd : Nat) (malformed : Bool) :
    ResponseHeaderInjector :=
  { s with
    tail := some (s.buffer.drop headEnd)
    buffer := s.buffer.take headEnd
    bufferOffset := 0
    rawHead := true
    malformedRaw := malformed }

def declaredDiscard : DeclaredFraming -> Option Discard
  | .none => none
  | .contentLength n => some (.length n)
  | .chunked => some (.chunked ChunkedSkip.new)

def inject (s : ResponseHeaderInjector) (headEnd : Nat) (status : Option Nat) :
    ResponseHeaderInjector :=
  let blank := blankStart s.buffer headEnd
  let suppress := suppressedHeadersForStatus status
  let head :=
    emitHeaders (spliceHeadDeduplicated (s.buffer.take blank) s.headers suppress)
      (s.headers.sorted suppress)
  let declared :=
    if status = some 204 ∨ status = some 304 then
      declaredDiscard (declaredBodyFraming (s.buffer.take blank))
    else none
  let s := { s with bufferOffset := 0, headScanner := HeadEndScanner.new, injected := true }
  match declared with
  | none => { s with buffer := head ++ s.buffer.drop blank }
  | some d =>
    { s with
      buffer := head ++ (s.buffer.take headEnd).drop blank
      tail := some (s.buffer.drop headEnd)
      discard := some d }

/-- How one turn of the gathering loop ends. -/
inductive Turn where
  | again (s : ResponseHeaderInjector) (source : Source)
  | found (s : ResponseHeaderInjector)
  | finish (poll : Outcome Unit) (s : ResponseHeaderInjector) (source : Source)

def classify (s : ResponseHeaderInjector) (headEnd : Nat) (source : Source) : Turn :=
  if blankStart s.buffer headEnd = 0 then .finish (.failed noStatusLine) s source
  else
    let status := headStatusCode (s.buffer.take headEnd)
    if servedRaw status then .found (s.serveRaw headEnd status.isNone)
    else .found (s.inject headEnd status)

def gatherMore (s : ResponseHeaderInjector) (source : Source) : Turn :=
  if s.deadlineSleep = some 0 then .finish (.failed timedOut) s source
  else
    let s := { s with deadlineSleep := s.deadlineSleep.map fun n => n - 1 }
    match source.pollRead 4096 with
    | (.pending, source) => .finish .pending s source
    | (.failed e, source) => .finish (.failed e) s source
    | (.ready got, source) =>
      if got = [] then .finish (.failed closedEarly) s source
      else if s.buffer.length + got.length > 65536 then .finish (.failed headTooLong) s source
      else .again { s with buffer := s.buffer ++ got } source

def turn (s : ResponseHeaderInjector) (source : Source) : Turn :=
  if s.buffer = [] then s.gatherMore source
  else
    match s.headScanner.feed s.buffer with
    | (some headEnd, scanner) => classify { s with headScanner := scanner } headEnd source
    | (none, scanner) => gatherMore { s with headScanner := scanner } source

def gather (cap : Nat) : Nat -> ResponseHeaderInjector -> Source -> Answer
  | 0, s, source => ⟨.pending, [], s, source⟩
  | fuel + 1, s, source =>
    match s.turn source with
    | .again s source => gather cap fuel s source
    | .found s => s.serve source cap
    | .finish poll s source => ⟨poll, [], s, source⟩

/-- `poll_read` with a buffer of the given size.  Every turn of the loop that is not the last one
has read something. -/
def pollAnswer (s : ResponseHeaderInjector) (source : Source) (cap : Nat) : Answer :=
  if s.complete then
    if s.malformedRaw then ⟨.ready (), [], s, source⟩ else s.passThrough source cap
  else if s.emits then s.serve source cap
  else
    match s.discard with
    | some d => s.runDiscard d source cap
    | none => gather cap (source.weight + 1) s source

/-- The caller gets what was filled by a poll that is ready, and nothing by one that is
pending. -/
def Answer.outcome (a : Answer) : Outcome (List Byte) :=
  match a.poll with
  | .pending => .pending
  | .ready () => .ready a.filled
  | .failed e => .failed e

def injectorReader : Reader ResponseHeaderInjector where
  pollRead s source cap :=
    let a := s.pollAnswer source cap
    (a.outcome, a.state, a.source)

end ResponseHeaderInjector

end Injector
end Http
end FrpRs
