import FrpRs.Data.Poll
import FrpRs.Stream.Cfb

/-!
# The encrypting writer

`CipherWriterState` in `frp-core/src/cipher_stream.rs`.  The initialisation vector goes out
before the first ciphertext byte, with the first write or with an earlier flush.  A write the
inner writer takes only in part is kept encrypted and retried; the write is reported once all
of it is out.

A flush may finish such a buffer between a pending write and its retry.  For the first write
the length is kept and the retry reports it; for a later write nothing is kept.
-/

namespace FrpRs
namespace Stream

open Bytes Poll

structure CipherWriterState where
  cfb : Option CfbState
  writeIv : Block
  ivSent : Bool
  firstWriteBuf : Option (List Byte)
  firstWritePos : Nat
  firstWriteDataLen : Nat
  encryptedBuf : Option (List Byte)
  encryptedWritePos : Nat
deriving DecidableEq, Repr

namespace CipherWriterState

def new (writeIv : Block) : CipherWriterState where
  cfb := none
  writeIv := writeIv
  ivSent := false
  firstWriteBuf := none
  firstWritePos := 0
  firstWriteDataLen := 0
  encryptedBuf := none
  encryptedWritePos := 0

/-- The panic of `expect`, which no reachable state meets. -/
def missingIv : IoError where
  kind := .other
  text := "IV must be sent before encrypting"

section Calls

variable (encryptBlock : Block -> Block)

/-- A write after the first one, with nothing left to retry. -/
def writeEncrypted (s : CipherWriterState) (sink : Sink) (buf : List Byte) :
    Outcome Nat × CipherWriterState × Sink :=
  match s.cfb with
  | none => (.failed missingIv, s, sink)
  | some cfb =>
    let r := cfb.encrypt encryptBlock buf
    let s := { s with cfb := some r.2 }
    match sink.offer r.1 with
    | (.done, sink) => (.ready buf.length, s, sink)
    | (.failed e, sink) => (.failed e, s, sink)
    | (.part n, sink) =>
      (.pending, { s with encryptedBuf := some r.1, encryptedWritePos := n }, sink)
    | (.pending, sink) =>
      (.pending, { s with encryptedBuf := some r.1, encryptedWritePos := 0 }, sink)

def retryEncrypted (s : CipherWriterState) (sink : Sink) (buf : List Byte) :
    Outcome Nat × CipherWriterState × Sink :=
  match s.encryptedBuf with
  | none => writeEncrypted encryptBlock s sink buf
  | some pending =>
    match sink.drain pending s.encryptedWritePos with
    | (.done, sink) =>
      (.ready pending.length, { s with encryptedBuf := none, encryptedWritePos := 0 }, sink)
    | (.failed e, sink) => (.failed e, s, sink)
    | (.part pos, sink) => (.pending, { s with encryptedWritePos := pos }, sink)
    | (.pending, sink) => (.pending, s, sink)

/-- The first write carries the initialisation vector. -/
def writeFirst (s : CipherWriterState) (sink : Sink) (buf : List Byte) :
    Outcome Nat × CipherWriterState × Sink :=
  if s.ivSent then retryEncrypted encryptBlock s sink buf
  else
    let r := (CfbState.new encryptBlock s.writeIv).encrypt encryptBlock buf
    let output := s.writeIv.toList ++ r.1
    let s := { s with ivSent := true, cfb := some r.2 }
    match sink.offer output with
    | (.done, sink) => (.ready buf.length, s, sink)
    | (.failed e, sink) => (.failed e, s, sink)
    | (.part n, sink) =>
      (.pending, { s with firstWriteBuf := some output, firstWritePos := n,
                          firstWriteDataLen := buf.length }, sink)
    | (.pending, sink) =>
      (.pending, { s with firstWriteBuf := some output, firstWritePos := 0,
                          firstWriteDataLen := buf.length }, sink)

def reportFirst (s : CipherWriterState) (sink : Sink) (buf : List Byte) :
    Outcome Nat × CipherWriterState × Sink :=
  if 0 < s.firstWriteDataLen then
    (.ready (min s.firstWriteDataLen buf.length), { s with firstWriteDataLen := 0 }, sink)
  else writeFirst encryptBlock s sink buf

def pollWrite (s : CipherWriterState) (sink : Sink) (buf : List Byte) :
    Outcome Nat × CipherWriterState × Sink :=
  match s.firstWriteBuf with
  | none => reportFirst encryptBlock s sink buf
  | some pending =>
    match sink.drain pending s.firstWritePos with
    | (.done, sink) =>
      let s' := { s with firstWriteBuf := none, firstWritePos := 0, firstWriteDataLen := 0 }
      if 0 < s.firstWriteDataLen then (.ready s.firstWriteDataLen, s', sink)
      else reportFirst encryptBlock s' sink buf
    | (.failed e, sink) => (.failed e, s, sink)
    | (.part pos, sink) => (.pending, { s with firstWritePos := pos }, sink)
    | (.pending, sink) => (.pending, s, sink)

/-- The initialisation vector goes out with a flush if there was no write. -/
def flushIv (s : CipherWriterState) (sink : Sink) : Outcome Unit × CipherWriterState × Sink :=
  if s.ivSent then (sink.pollFlush.1, s, sink.pollFlush.2)
  else
    let s := { s with ivSent := true, cfb := some (CfbState.new encryptBlock s.writeIv) }
    match sink.offer s.writeIv.toList with
    | (.done, sink) => (sink.pollFlush.1, s, sink.pollFlush.2)
    | (.failed e, sink) => (.failed e, s, sink)
    | (.part n, sink) =>
      (.pending, { s with firstWriteDataLen := 0, firstWriteBuf := some s.writeIv.toList,
                          firstWritePos := n }, sink)
    | (.pending, sink) =>
      (.pending, { s with firstWriteDataLen := 0, firstWriteBuf := some s.writeIv.toList,
                          firstWritePos := 0 }, sink)

def flushEncrypted (s : CipherWriterState) (sink : Sink) :
    Outcome Unit × CipherWriterState × Sink :=
  match s.encryptedBuf with
  | none => flushIv encryptBlock s sink
  | some pending =>
    match sink.drain pending s.encryptedWritePos with
    | (.done, sink) =>
      flushIv encryptBlock { s with encryptedBuf := none, encryptedWritePos := 0 } sink
    | (.failed e, sink) => (.failed e, s, sink)
    | (.part pos, sink) => (.pending, { s with encryptedWritePos := pos }, sink)
    | (.pending, sink) => (.pending, s, sink)

def pollFlush (s : CipherWriterState) (sink : Sink) : Outcome Unit × CipherWriterState × Sink :=
  match s.firstWriteBuf with
  | none => flushEncrypted encryptBlock s sink
  | some pending =>
    match sink.drain pending s.firstWritePos with
    | (.done, sink) =>
      flushEncrypted encryptBlock { s with firstWriteBuf := none, firstWritePos := 0 } sink
    | (.failed e, sink) => (.failed e, s, sink)
    | (.part pos, sink) => (.pending, { s with firstWritePos := pos }, sink)
    | (.pending, sink) => (.pending, s, sink)

def cipherWriter : Writer CipherWriterState where
  pollWrite := pollWrite encryptBlock
  pollFlush := pollFlush encryptBlock

end Calls

end CipherWriterState

end Stream
end FrpRs
