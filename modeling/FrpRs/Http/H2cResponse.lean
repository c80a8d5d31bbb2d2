import FrpRs.Data.Text
import FrpRs.Http.H2cRequest

/-!
# Backend responses on their way to HTTP/2

`parse_response_head`, `BodyReader`, `stream_chunked_body` and `stream_h2_response` of
`frp-server/src/vhost_h2c.rs`.

The backend's answer is read piece by piece; its head becomes the head of the HTTP/2 response
and its body becomes data frames.  A body that breaks off resets the stream.  The conversions
of the `http` crate are parameters.
-/

namespace FrpRs
namespace Http
namespace H2c

open Bytes Lines Textproto

/-- The conversions of header names and values, and the status codes that a response may
have. -/
structure HttpCrate where
  headerName : List Byte -> Option (List Byte)
  headerValue : List Byte -> Option (List Byte)
  statusOk : Nat -> Bool

abbrev Rows := List (List Byte × List Byte)

/-!
## The backend
-/

/-- What the backend sends, cut into pieces; after the last one the connection ends or
fails. -/
structure Source where
  pieces : List (List Byte)
  fails : Bool
  filled : forall p, p ∈ pieces -> p ≠ []

def Source.bytes (s : Source) : List Byte :=
  s.pieces.flatten

/-- One read into a buffer; no bytes are the end, and `none` is an error. -/
def Source.read (limit : Nat) (s : Source) : Option (List Byte) × Source :=
  match s with
  | ⟨[], fails, filled⟩ => (if fails then none else some [], ⟨[], fails, filled⟩)
  | ⟨p :: ps, fails, filled⟩ =>
    if h : p.length ≤ limit then
      (some p, ⟨ps, fails, fun q hq => filled q (List.mem_cons_of_mem p hq)⟩)
    else
      (some (p.take limit), ⟨p.drop limit :: ps, fails, by
        intro q hq
        rcases List.mem_cons.mp hq with heq | hq
        · rw [heq]
          exact fun hnil => h (List.drop_eq_nil_iff.mp hnil)
        · exact filled q (List.mem_cons_of_mem p hq)⟩)

/-!
## The response head
-/

structure ParsedHead where
  status : Nat
  headers : Rows
  contentLength : Option Nat
  bodyOffset : Nat
deriving DecidableEq, Repr

def statusOf (line : List Byte) : Option Nat :=
  if (fromUtf8 line).isNone then none
  else match line.splitOn space with
    | [] => none
    | version :: parts =>
      if !isValidHttpVersion version then none
      else (parts.find? fun p => !p.isEmpty).bind fun code =>
        if code.length = 3 then parseDigits code else none

def valueBytesHaveCtl (bs : List Byte) : Bool :=
  bs.any fun c => (c < 32 && c ≠ htab) || c = 127

def headerRow (crate : HttpCrate) (record : List Byte × List Byte) :
    Option (List Byte × List Byte) :=
  (crate.headerName record.1).bind fun name =>
    (crate.headerValue record.2).map fun value => (name, value)

def flushRecord (crate : HttpCrate) : Option (List Byte × List Byte) -> Option Rows
  | none => some []
  | some record => (headerRow crate record).map fun row => [row]

/-- A line that starts with a blank continues the open record. -/
def parseRecords (crate : HttpCrate) :
    Option (List Byte × List Byte) -> List (List Byte) -> Option Rows
  | record, [] => flushRecord crate record
  | record, line :: lines =>
    let line := stripCr line
    if line.isEmpty then parseRecords crate record lines
    else if line.head?.any isOws then
      record.bind fun pending =>
        if valueBytesHaveCtl (trimOws line) then none
        else parseRecords crate (some (pending.1, pending.2 ++ space :: trimOws line)) lines
    else
      (flushRecord crate record).bind fun rows =>
        (cut colon line).bind fun parts =>
          if !isToken parts.1 then none
          else if valueBytesHaveCtl (trimOws parts.2) then none
          else (parseRecords crate (some (parts.1, trimOws parts.2)) lines).map fun rest =>
            rows ++ rest

def isContentLength (row : List Byte × List Byte) : Bool :=
  eqIgnoreAsciiCase row.1 (utf8 "content-length")

/-- Later rows must repeat the first one, and are dropped. -/
def dedupeLength : Option (List Byte) -> Rows -> Option Rows
  | _, [] => some []
  | first, row :: rows =>
    if isContentLength row then
      match first with
      | none => (dedupeLength (some (trimOws row.2)) rows).map fun rest => row :: rest
      | some value =>
        if value ≠ trimOws row.2 then none else dedupeLength first rows
    else (dedupeLength first rows).map fun rest => row :: rest

/-- `str::parse::<i64>` of digits. -/
def parseLength (value : List Byte) : Option Nat :=
  (parseDigits value).filter fun n => n < 9223372036854775808

def setLength (value : List Byte) : Rows -> Rows
  | [] => []
  | row :: rows =>
    if isContentLength row then (row.1, value) :: rows else row :: setLength value rows

def validLength (crate : HttpCrate) (rows : Rows) : Option (Rows × Option Nat) :=
  match rows.find? isContentLength with
  | none => some (rows, none)
  | some row =>
    (parseLength (trimOws row.2)).bind fun n =>
      (crate.headerValue (trimOws row.2)).map fun value => (setLength value rows, some n)

def parseResponseHead (crate : HttpCrate) (head : List Byte) : Option ParsedHead :=
  (headEnd head).bind fun n =>
    (cut lf (head.take n)).bind fun parts =>
      (statusOf (stripCr parts.1)).bind fun status =>
        (parseRecords crate none (parts.2.splitOn lf)).bind fun rows =>
          (dedupeLength none rows).bind fun rows =>
            (validLength crate rows).map fun valid => ⟨status, valid.1, valid.2, n⟩

inductive HeadReadError where
  | closed
  | timedOut
deriving DecidableEq, Repr

/-- What has been read, the rest of the backend's answer, and the reads that are left until the
deadline passes. -/
structure HeadRead where
  buf : List Byte
  source : Source
  left : Option Nat

/-- The loop of `read_until_head_from`. -/
def readUntilHeadFrom : Nat -> HeadEndScanner -> HeadRead -> Except HeadReadError HeadRead
  | 0, _, _ => .error .closed
  | fuel + 1, scanner, h =>
    let fed := scanner.feed h.buf
    if fed.1.isSome then .ok h
    else if 1048576 < h.buf.length then .error .closed
    else if h.left = some 0 then .error .timedOut
    else match h.source.read 4096 with
      | (none, _) => .error .closed
      | (some [], _) => .error .closed
      | (some (b :: bs), source) =>
        readUntilHeadFrom fuel fed.2
          ⟨h.buf ++ b :: bs, source, h.left.map fun n => n - 1⟩

def readBackendHead (h : HeadRead) : Except HeadReadError HeadRead :=
  readUntilHeadFrom (h.source.bytes.length + 1) .new h

/-- Why there is no head to answer with. -/
inductive HeadFailure where
  | read (e : HeadReadError)
  | malformed
  | switchingProtocols
deriving DecidableEq, Repr

/-- Interim heads are passed over. -/
def finalHead (crate : HttpCrate) : Nat -> HeadRead -> Except HeadFailure (ParsedHead × HeadRead)
  | 0, _ => .error .malformed
  | fuel + 1, h =>
    match parseResponseHead crate h.buf with
    | none => .error .malformed
    | some p =>
      if 100 ≤ p.status ∧ p.status ≤ 199 then
        if p.status = 101 then .error .switchingProtocols
        else match readBackendHead { h with buf := h.buf.drop p.bodyOffset } with
          | .error e => .error (.read e)
          | .ok h => finalHead crate fuel h
      else .ok (p, h)

/-!
## The body reader
-/

structure BodyReader where
  avail : List Byte
  source : Source

namespace BodyReader

def bytes (r : BodyReader) : List Byte :=
  r.avail ++ r.source.bytes

/-- Nothing at the end of the stream; `none` is an error. -/
def readMore (r : BodyReader) : Option (Option BodyReader) :=
  match r.source.read 8192 with
  | (none, _) => none
  | (some [], _) => some none
  | (some (b :: bs), source) => some (some ⟨r.avail ++ b :: bs, source⟩)

def fillExactFrom : Nat -> Nat -> BodyReader -> Option (List Byte × BodyReader)
  | 0, _, _ => none
  | fuel + 1, n, r =>
    if n = 0 then some ([], r)
    else if r.avail.isEmpty then
      r.readMore.join.bind fun r => fillExactFrom fuel n r
    else
      let take := min n r.avail.length
      (fillExactFrom fuel (n - take) ⟨r.avail.drop take, r.source⟩).map fun rest =>
        (r.avail.take take ++ rest.1, rest.2)

def fillExact (n : Nat) (r : BodyReader) : Option (List Byte × BodyReader) :=
  fillExactFrom (2 * r.bytes.length + 2) n r

def findCrlf : List Byte -> Option Nat
  | [] => none
  | b :: bs => if crlf.isPrefixOf (b :: bs) then some 0 else (findCrlf bs).map fun n => n + 1

def readLineFrom : Nat -> BodyReader -> Option (List Byte × BodyReader)
  | 0, _ => none
  | fuel + 1, r =>
    if 65536 < r.avail.length then none
    else match findCrlf r.avail with
      | some n => some (r.avail.take (n + 2), ⟨r.avail.drop (n + 2), r.source⟩)
      | none =>
        match cut lf r.avail with
        | some parts => some (parts.1 ++ [lf], ⟨parts.2, r.source⟩)
        | none => r.readMore.join.bind fun r => readLineFrom fuel r

def readLine (r : BodyReader) : Option (List Byte × BodyReader) :=
  readLineFrom (r.source.bytes.length + 1) r

/-- The slices of a span of the body, up to the first one that is cut short. -/
def readSlices (cap : Nat) : Nat -> Nat -> BodyReader -> List (List Byte) × Option BodyReader
  | 0, remaining, r => ([], if remaining = 0 then some r else none)
  | fuel + 1, remaining, r =>
    if remaining = 0 then ([], some r)
    else
      let n := min remaining cap
      match r.fillExact n with
      | none => ([], none)
      | some (slice, r) =>
        let rest := readSlices cap fuel (remaining - n) r
        (slice :: rest.1, rest.2)

def readSpan (cap size : Nat) (r : BodyReader) : List (List Byte) × Option BodyReader :=
  readSlices cap (size / cap + 1) size r

end BodyReader

/-!
## Chunks
-/

def hexValue (c : Char) : Option Nat :=
  if '0' ≤ c ∧ c ≤ '9' then some (c.toNat - 48)
  else if 'a' ≤ c ∧ c ≤ 'f' then some (c.toNat - 87)
  else if 'A' ≤ c ∧ c ≤ 'F' then some (c.toNat - 55)
  else none

/-- `usize::from_str_radix` for texts without a sign. -/
def hexNumber (cs : List Char) : Option Nat :=
  if cs.isEmpty then none
  else ((cs.mapM hexValue).map fun ds => ds.foldl (fun n d => 16 * n + d) 0).filter
    fun n => n < 18446744073709551616

def parseHex (bs : List Byte) : Option Nat :=
  (fromUtf8 bs).bind fun s =>
    if (Text.trim s.toList).head? = some '+' then none else hexNumber (Text.trim s.toList)

def chomp (line : List Byte) : List Byte :=
  if crlf <:+ line then line.take (line.length - 2)
  else if [lf] <:+ line then line.dropLast
  else line

def semicolon : Byte := 59

def sizePart (line : List Byte) : List Byte :=
  ((cut semicolon line).map Prod.fst).getD line

def isBlankLine (line : List Byte) : Bool :=
  line.all fun c => c = cr || c = lf || c = space || c = htab

/-- A trailer field; what is no field, or must not be sent, is ignored. -/
def trailerField (crate : HttpCrate) (line : List Byte) : Rows :=
  let field := trimOws (chomp line)
  match cut colon field with
  | none => []
  | some parts =>
    match crate.headerName (trimOws parts.1), crate.headerValue (trimOws parts.2) with
    | some name, some value => if isHopByHop name then [] else [(name, value)]
    | _, _ => []

def readTrailers (crate : HttpCrate) : Nat -> BodyReader -> Option Rows
  | 0, _ => none
  | fuel + 1, r =>
    r.readLine.bind fun read =>
      if isBlankLine read.1 then some []
      else (readTrailers crate fuel read.2).map fun rest => trailerField crate read.1 ++ rest

/-- The data frames of a body; without trailers the stream has been reset. -/
structure Body where
  frames : List (List Byte)
  trailers : Option Rows

def Body.reset : Body where
  frames := []
  trailers := none

def Body.after (frames : List (List Byte)) (b : Body) : Body where
  frames := frames ++ b.frames
  trailers := b.trailers

def streamChunkedBody (crate : HttpCrate) : Nat -> BodyReader -> Body
  | 0, _ => .reset
  | fuel + 1, r =>
    match r.readLine with
    | none => .reset
    | some (line, r) =>
      if (trimOws (chomp line)).isEmpty then streamChunkedBody crate fuel r
      else match parseHex (trimOws (sizePart (trimOws (chomp line)))) with
        | none => .reset
        | some size =>
          if size = 0 then ⟨[], readTrailers crate (r.bytes.length + 1) r⟩
          else
            let span := r.readSpan 65536 size
            match span.2.bind (BodyReader.fillExact 2) with
            | none => .after span.1 .reset
            | some (terminator, r) =>
              if terminator = crlf then .after span.1 (streamChunkedBody crate fuel r)
              else .after span.1 .reset

/-- Everything up to the end of the connection. -/
def streamToEnd : Nat -> BodyReader -> Body
  | 0, _ => .reset
  | fuel + 1, r =>
    if r.avail.isEmpty then
      match r.readMore with
      | none => .reset
      | some none => ⟨[], some []⟩
      | some (some r) => .after [r.avail] (streamToEnd fuel ⟨[], r.source⟩)
    else .after [r.avail] (streamToEnd fuel ⟨[], r.source⟩)

def streamLength (n : Nat) (r : BodyReader) : Body :=
  let span := r.readSpan 32768 n
  ⟨span.1, span.2.map fun _ => []⟩

/-!
## The response
-/

inductive Ending where
  | clean
  | reset
deriving DecidableEq, Repr

structure Response where
  status : Nat
  headers : Rows
  frames : List (List Byte)
  trailers : Rows
  ending : Ending
deriving DecidableEq, Repr

/-- The server's own answer, or the backend's. -/
inductive Answer where
  | page (r : Response)
  | relay (r : Response)

def Answer.response : Answer -> Response
  | .page r => r
  | .relay r => r

def sendH2Error (status : Nat) (page : List Byte) : Response where
  status := status
  headers := if page.isEmpty then [] else [(utf8 "content-type", utf8 "text/html")]
  frames := if page.isEmpty then [] else [page]
  trailers := []
  ending := .clean

def HeadFailure.answer (page : List Byte) : HeadFailure -> Answer
  | .read .timedOut => .page (sendH2Error 504 [])
  | _ => .page (sendH2Error 404 page)

def forwarded (rows : Rows) : Rows :=
  rows.filter fun row => !(isHopByHop row.1 && !eqIgnoreAsciiCase row.1 (utf8 "trailer"))

def ParsedHead.chunked (p : ParsedHead) : Bool :=
  (p.headers.find? fun row => eqIgnoreAsciiCase row.1 (utf8 "transfer-encoding")).any fun row =>
    isVisible row.2 && (lowered row.2).tails.any fun rest => (utf8 "chunked").isPrefixOf rest

def ParsedHead.bodiless (p : ParsedHead) : Bool :=
  p.status = 204 || p.status = 304

def streamBody (crate : HttpCrate) (p : ParsedHead) (r : BodyReader) : Body :=
  if p.chunked then streamChunkedBody crate (r.bytes.length + 1) r
  else match p.contentLength with
    | some n => streamLength n r
    | none => streamToEnd (r.bytes.length + 2) r

def relayBody (crate : HttpCrate) (p : ParsedHead) (r : BodyReader) : Response :=
  let body := streamBody crate p r
  { status := p.status
    headers := forwarded p.headers
    frames := body.frames
    trailers := body.trailers.getD []
    ending := if body.trailers.isSome then .clean else .reset }

def relayHead (p : ParsedHead) : Response where
  status := p.status
  headers :=
    if p.bodiless then (forwarded p.headers).filter fun row => !isContentLength row
    else forwarded p.headers
  frames := []
  trailers := []
  ending := .clean

/-- The number of reads of the head that the deadline allows is an input. -/
def streamH2Response (crate : HttpCrate) (deadline : Option Nat) (isHead : Bool)
    (notFoundPage : List Byte) (source : Source) : Answer :=
  match readBackendHead ⟨[], source, deadline⟩ with
  | .error e => HeadFailure.answer notFoundPage (.read e)
  | .ok h =>
    match finalHead crate (h.buf.length + h.source.bytes.length + 1) h with
    | .error e => e.answer notFoundPage
    | .ok (p, h) =>
      if !crate.statusOk p.status then .page (sendH2Error 404 notFoundPage)
      else if isHead || p.bodiless then .relay (relayHead p)
      else .relay (relayBody crate p ⟨h.buf.drop p.bodyOffset, h.source⟩)

end H2c
end Http
end FrpRs
