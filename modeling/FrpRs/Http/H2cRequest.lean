import FrpRs.Http.Textproto

/-!
# HTTP/2 requests on their way to the backend

The body task of `handle_stream`, from `frp-server/src/vhost_h2c.rs`.

The body of an HTTP/2 request is written to the backend after an HTTP/1.1 head.  It arrives
as a sequence of results: data frames, and then an error, or nothing more.
-/

namespace FrpRs
namespace Http
namespace H2c

open Bytes Lines Textproto

/-- What the body task reads of a request. -/
structure Request where
  headers : List (List Byte × List Byte)
  endStream : Bool
deriving DecidableEq, Repr

def hopByHopNames : List (List Byte) :=
  [utf8 "connection", utf8 "keep-alive", utf8 "proxy-connection", utf8 "proxy-authenticate",
    utf8 "proxy-authorization", utf8 "te", utf8 "trailer", utf8 "transfer-encoding",
    utf8 "upgrade"]

def isHopByHop (name : List Byte) : Bool :=
  hopByHopNames.any fun h => eqIgnoreAsciiCase name h

/-- `HeaderValue::to_str` answers for visible ASCII only. -/
def isVisible (value : List Byte) : Bool :=
  value.all fun b => (32 ≤ b && b < 127) || b = htab

def Request.values (r : Request) (name : List Byte) : List (List Byte) :=
  (r.headers.filter fun h => eqIgnoreAsciiCase h.1 name).map Prod.snd

def Request.hasContentLength (r : Request) : Bool :=
  !(r.values (utf8 "content-length")).isEmpty

/-!
## The body
-/

def hexDigit (n : Nat) : Byte :=
  UInt8.ofNat (if n < 10 then 48 + n else 55 + n)

def upperHexFrom : Nat -> Nat -> List Byte
  | 0, n => [hexDigit n]
  | fuel + 1, n =>
    if n < 16 then [hexDigit n] else upperHexFrom fuel (n / 16) ++ [hexDigit (n % 16)]

def upperHex (n : Nat) : List Byte :=
  upperHexFrom n n

def chunk (data : List Byte) : List Byte :=
  upperHex data.length ++ crlf ++ data ++ crlf

def lastChunk : List Byte :=
  utf8 "0" ++ crlf ++ crlf

/-- A stream error, or the reset of the stream by the client. -/
inductive BodyError where
  | protocol
  | reset
deriving DecidableEq, Repr

/-- What the task has written when it ends, and whether it signals that the body is longer
than declared. -/
structure Relayed where
  written : List Byte
  excess : Bool
deriving DecidableEq, Repr

def finishBody (hasContentLength endStream : Bool) : Relayed where
  written := if !hasContentLength && !endStream then lastChunk else []
  excess := false

/-- The loop of the task.  The results are those of `body.data()`, and the end of the list is
its `None`. -/
def forwardBody (hasContentLength endStream : Bool) :
    Option Nat -> List (Except BodyError (List Byte)) -> Relayed
  | _, [] => finishBody hasContentLength endStream
  | _, .error _ :: _ => finishBody hasContentLength endStream
  | remaining, .ok data :: results =>
    if data.isEmpty then forwardBody hasContentLength endStream remaining results
    else if remaining.any fun rem => rem < data.length then ⟨[], true⟩
    else
      let rest := forwardBody hasContentLength endStream
        (remaining.map fun rem => rem - data.length) results
      ⟨(if hasContentLength then data else chunk data) ++ rest.written, rest.excess⟩

def parseDigits (bs : List Byte) : Option Nat :=
  if bs.isEmpty || !bs.all isAsciiDigit then none
  else some (bs.foldl (fun n b => 10 * n + (b.toNat - 48)) 0)

/-- `str::parse::<u64>`, which allows one leading plus. -/
def parseU64 (bs : List Byte) : Option Nat :=
  (parseDigits (if bs.head? = some 43 then bs.drop 1 else bs)).filter fun n =>
    n < 18446744073709551616

def Request.contentLength (r : Request) : Option Nat :=
  ((r.values (utf8 "content-length")).head?.filter isVisible).bind parseU64

def bodyTask (r : Request) (results : List (Except BodyError (List Byte))) : Relayed :=
  forwardBody r.hasContentLength r.endStream r.contentLength results

/-!
## What the backend is told
-/

def received (results : List (Except BodyError (List Byte))) : List (List Byte) :=
  (results.takeWhile fun r => r.isOk).filterMap Except.toOption

def endsCleanly (results : List (Except BodyError (List Byte))) : Bool :=
  results.all fun r => r.isOk

def chunkedData (frames : List (List Byte)) : List Byte :=
  (frames.filter fun data => !data.isEmpty).flatMap chunk

theorem forwardBody_written (results : List (Except BodyError (List Byte))) :
    (forwardBody false false none results).written =
      chunkedData (received results) ++ lastChunk := by
  induction results with
  | nil =>
    rfl
  | cons result results ih =>
    cases result with
    | error e => rfl
    | ok data =>
      rw [forwardBody]
      by_cases hempty : data.isEmpty = true
      · rw [if_pos hempty, ih]
        simp [received, chunkedData, Except.isOk, Except.toBool, Except.toOption, hempty]
      · rw [if_neg hempty, if_neg (by simp)]
        dsimp only
        rw [if_neg (by simp), Option.map_none, ih]
        simp [received, chunkedData, Except.isOk, Except.toBool, Except.toOption, hempty]

/-- The backend gets the data received so far, and the last chunk exactly after a clean
end. -/
def RelaysBody (r : Request) (results : List (Except BodyError (List Byte))) : Prop :=
  (bodyTask r results).written =
    chunkedData (received results) ++ if endsCleanly results then lastChunk else []

theorem contentLength_none {r : Request} (h : r.hasContentLength = false) :
    r.contentLength = none := by
  unfold Request.hasContentLength at h
  unfold Request.contentLength
  rw [Bool.not_eq_false', List.isEmpty_iff] at h
  rw [h]
  rfl

theorem relaysBody_iff_endsCleanly {r : Request} (hlength : r.hasContentLength = false)
    (hopen : r.endStream = false) (results : List (Except BodyError (List Byte))) :
    RelaysBody r results ↔ endsCleanly results = true := by
  have hwritten : (bodyTask r results).written = chunkedData (received results) ++ lastChunk := by
    unfold bodyTask
    rw [hlength, hopen, contentLength_none hlength]
    exact forwardBody_written results
  unfold RelaysBody
  rw [hwritten, List.append_cancel_left_eq]
  cases endsCleanly results with
  | true => simp
  | false => simp [lastChunk, crlf]

def sampleRequest : Request where
  headers := [(utf8 "user-agent", utf8 "curl")]
  endStream := false

theorem relaysBody_iff_endsCleanly_sample :
    RelaysBody sampleRequest [.ok (utf8 "ab"), .ok [], .ok (utf8 "c")] :=
  (relaysBody_iff_endsCleanly (by decide) rfl _).mpr (by decide)

theorem reset_body_terminated :
    ¬ RelaysBody sampleRequest [.ok (utf8 "ab"), .error .reset] ∧
      (bodyTask sampleRequest [.ok (utf8 "ab"), .error .reset]).written =
        utf8 "2\r\nab\r\n0\r\n\r\n" := by
  unfold RelaysBody
  decide +kernel

end H2c
end Http
end FrpRs
