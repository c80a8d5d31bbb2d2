import FrpRs.Data.Poll

/-!
# AEAD streams

`AeadStream` in `frp-core/src/crypto.rs`.  A direction begins with a random stream nonce; then
every write of at most 64 KiB is a frame of a length header and a sealed payload.  The nonce of a
frame counts up from the stream nonce, and the stream nonce and the header are authenticated with
the payload.  The ciphers are a parameter.

The writer keeps a frame that is taken only in part, and claims it for the write that built it.
The reader keeps what it has of a nonce, a header or a ciphertext.  The writer's state also records
what was sealed, which the code does not keep.
-/

namespace FrpRs
namespace Stream

open List Bytes Poll

inductive AeadAlgorithm where
  | aes256Gcm
  | xchacha20Poly1305
deriving DecidableEq, Repr

namespace AeadAlgorithm

def nonceSize : AeadAlgorithm -> Nat
  | .aes256Gcm => 12
  | .xchacha20Poly1305 => 24

def overhead : AeadAlgorithm -> Nat
  | _ => 16

def maxFrameCount : AeadAlgorithm -> Option Nat
  | .aes256Gcm => some (2 ^ 32)
  | .xchacha20Poly1305 => none

end AeadAlgorithm

def aeadFrameHeaderSize : Nat := 4
def defaultMaxPayloadSize : Nat := 64 * 1024

/-- Sealing with a nonce and associated data, and opening what was sealed.  A sealed text ends
with its tag. -/
structure AeadCipher where
  encrypt : List Byte -> List Byte -> List Byte -> Except String (List Byte)
  decrypt : List Byte -> List Byte -> List Byte -> Except String (List Byte)

/-!
## Nonces
-/

def incrementLe : List Byte -> Bool × List Byte
  | [] => (false, [])
  | b :: bs =>
    if b + 1 ≠ 0 then (true, (b + 1) :: bs)
    else ((incrementLe bs).1, (b + 1) :: (incrementLe bs).2)

def incrementNonce (nonce : List Byte) : Bool × List Byte :=
  ((incrementLe nonce.reverse).1, (incrementLe nonce.reverse).2.reverse)

/-!
## Writing
-/

/-- A text that was sealed. -/
structure Sealed where
  nonce : List Byte
  aad : List Byte
  plaintext : List Byte
  ciphertext : List Byte
deriving DecidableEq, Repr

structure AeadWriteState where
  nonce : List Byte
  streamNonce : List Byte
  headerSent : Bool
  frameCount : Nat
  pending : List Byte
  pendingPos : Nat
  claimed : Option Nat
  err : Bool
  /-- All that was sealed, in order. -/
  sealed : List Sealed
deriving DecidableEq, Repr

namespace AeadWriteState

def new (streamNonce : List Byte) : AeadWriteState where
  nonce := streamNonce
  streamNonce := streamNonce
  headerSent := false
  frameCount := 0
  pending := []
  pendingPos := 0
  claimed := none
  err := false
  sealed := []

def otherError (text : String) : IoError where
  kind := .other
  text := text

def pollFlushPending (s : AeadWriteState) (sink : Sink) : Outcome Unit × AeadWriteState × Sink :=
  match sink.drainLoop (s.pending.length + 1) s.pending s.pendingPos with
  | (.ready _, _, sink) => (.ready (), { s with pending := [], pendingPos := 0 }, sink)
  | (.failed e, pos, sink) => (.failed e, { s with pendingPos := pos }, sink)
  | (.pending, pos, sink) => (.pending, { s with pendingPos := pos }, sink)

def frameHeader (algorithm : AeadAlgorithm) (plaintext : List Byte) : List Byte :=
  beBytes aeadFrameHeaderSize (plaintext.length + algorithm.overhead)

/-- The frame of a chunk, after the stream nonce if it is the first.  A nonce that wraps fails the
write, but neither is the failure kept nor the frame dropped. -/
def buildFrame (cipher : AeadCipher) (algorithm : AeadAlgorithm) (s : AeadWriteState)
    (plaintext : List Byte) : Except IoError Unit × AeadWriteState :=
  let header := frameHeader algorithm plaintext
  let aad := s.streamNonce ++ header
  let front := if s.headerSent then header else s.streamNonce ++ header
  match cipher.encrypt s.nonce plaintext aad with
  | .error _ =>
    (.error (otherError "encrypt failed"), { s with pending := front ++ plaintext, err := true })
  | .ok ciphertext =>
    let next := incrementNonce s.nonce
    let s := { s with
      pending := front ++ ciphertext
      nonce := next.2
      sealed := s.sealed ++ [⟨s.nonce, aad, plaintext, ciphertext⟩] }
    if next.1 = false then
      (.error (otherError "AEAD write nonce exhausted"), s)
    else
      (.ok (), { s with
        frameCount := s.frameCount + 1
        headerSent := true
        pendingPos := 0
        claimed := some plaintext.length })

def atLimit (algorithm : AeadAlgorithm) (s : AeadWriteState) : Bool :=
  algorithm.maxFrameCount.any fun max => max ≤ s.frameCount

/-- A write with nothing to flush. -/
def writeFrame (cipher : AeadCipher) (algorithm : AeadAlgorithm) (s : AeadWriteState)
    (sink : Sink) (buf : List Byte) : Outcome Nat × AeadWriteState × Sink :=
  if atLimit algorithm s then
    (.failed (otherError "frame count exceeded"), { s with err := true }, sink)
  else
    let plaintext := buf.take defaultMaxPayloadSize
    match buildFrame cipher algorithm s plaintext with
    | (.error e, s) => (.failed e, s, sink)
    | (.ok (), s) =>
      match pollFlushPending s sink with
      | (.ready _, s, sink) => (.ready plaintext.length, { s with claimed := none }, sink)
      | (.failed e, s, sink) => (.failed e, s, sink)
      | (.pending, s, sink) => (.pending, s, sink)

def claimOrWrite (cipher : AeadCipher) (algorithm : AeadAlgorithm) (s : AeadWriteState)
    (sink : Sink) (buf : List Byte) : Outcome Nat × AeadWriteState × Sink :=
  match s.claimed with
  | some n => (.ready n, { s with claimed := none }, sink)
  | none => writeFrame cipher algorithm s sink buf

def pollWrite (cipher : AeadCipher) (algorithm : AeadAlgorithm) (s : AeadWriteState) (sink : Sink)
    (buf : List Byte) : Outcome Nat × AeadWriteState × Sink :=
  if s.err then (.failed ⟨.brokenPipe, "previous write error"⟩, s, sink)
  else if buf = [] then (.ready 0, s, sink)
  else if s.pendingPos < s.pending.length then
    match pollFlushPending s sink with
    | (.ready _, s, sink) => claimOrWrite cipher algorithm s sink buf
    | (.failed e, s, sink) => (.failed e, s, sink)
    | (.pending, s, sink) => (.pending, s, sink)
  else claimOrWrite cipher algorithm s sink buf

def pollFlush (s : AeadWriteState) (sink : Sink) : Outcome Unit × AeadWriteState × Sink :=
  match pollFlushPending s sink with
  | (.ready _, s, sink) => (sink.pollFlush.1, s, sink.pollFlush.2)
  | (.failed e, s, sink) => (.failed e, s, sink)
  | (.pending, s, sink) => (.pending, s, sink)

def aeadWriter (cipher : AeadCipher) (algorithm : AeadAlgorithm) : Writer AeadWriteState where
  pollWrite := pollWrite cipher algorithm
  pollFlush := pollFlush

end AeadWriteState

/-!
## Reading
-/

structure AeadReadState where
  nonce : List Byte
  streamNonce : Option (List Byte)
  headerRead : Bool
  frameCount : Nat
  /-- The opened payload of the last frame. -/
  buf : List Byte
  bufPos : Nat
  err : Bool
  readLen : Nat
  /-- What there is of the read in flight. -/
  filled : List Byte
  headerBuf : List Byte
  headerHave : Bool
deriving DecidableEq, Repr

namespace AeadReadState

def new (algorithm : AeadAlgorithm) : AeadReadState where
  nonce := replicate algorithm.nonceSize 0
  streamNonce := none
  headerRead := false
  frameCount := 0
  buf := []
  bufPos := 0
  err := false
  readLen := 0
  filled := []
  headerBuf := replicate aeadFrameHeaderSize 0
  headerHave := false

def unexpectedEof (len got : Nat) : IoError where
  kind := .unexpectedEof
  text := s!"AEAD stream: unexpected EOF (need {len}, got {got})"

/-- Reads until so many bytes are there. -/
def readLoop (len : Nat) : Nat -> Source -> List Byte -> Outcome Unit × List Byte × Source
  | 0, source, filled => (.pending, filled, source)
  | fuel + 1, source, filled =>
    if len ≤ filled.length then (.ready (), filled, source)
    else
      match source.pollRead (len - filled.length) with
      | (.pending, source) => (.pending, filled, source)
      | (.failed e, source) => (.failed e, filled, source)
      | (.ready got, source) =>
        if got = [] then (.failed (unexpectedEof len filled.length), filled, source)
        else readLoop len fuel source (filled ++ got)

def resumed (s : AeadReadState) (len : Nat) : List Byte :=
  if s.readLen = len then s.filled else []

def pollReadExact (s : AeadReadState) (source : Source) (len : Nat) :
    Outcome (List Byte) × AeadReadState × Source :=
  match readLoop len (len + 1) source (s.resumed len) with
  | (.ready _, filled, source) => (.ready filled, { s with readLen := 0, filled := filled }, source)
  | (.pending, filled, source) => (.pending, { s with readLen := len, filled := filled }, source)
  | (.failed e, filled, source) => (.failed e, { s with readLen := len, filled := filled }, source)

/-- The ciphertext is there. -/
def openFrame (cipher : AeadCipher) (s : AeadReadState) (ciphertext : List Byte) :
    Except IoError Unit × AeadReadState :=
  let aad := s.streamNonce.getD [] ++ s.headerBuf
  match cipher.decrypt s.nonce ciphertext aad with
  | .error e => (.error (invalidData ("AEAD decrypt: " ++ e)), s)
  | .ok plaintext =>
    let next := incrementNonce s.nonce
    let s := { s with nonce := next.2 }
    if next.1 = false then (.error (AeadWriteState.otherError "AEAD read nonce exhausted"), s)
    else
      (.ok (), { s with
        frameCount := s.frameCount + 1
        headerHave := false
        buf := plaintext
        bufPos := 0 })

/-- The header is there.  True is a frame, false the end of the stream. -/
def readCiphertext (cipher : AeadCipher) (algorithm : AeadAlgorithm) (s : AeadReadState)
    (source : Source) : Outcome Bool × AeadReadState × Source :=
  let ciphertextLen := ofBeBytes s.headerBuf
  if algorithm.maxFrameCount.any (fun max => max ≤ s.frameCount) then
    (.failed (AeadWriteState.otherError "AEAD read frame count limit exceeded"), s, source)
  else if ciphertextLen < algorithm.overhead then
    (.failed (invalidData
      s!"AEAD ciphertext length {ciphertextLen} < overhead {algorithm.overhead}"), s, source)
  else if defaultMaxPayloadSize + algorithm.overhead < ciphertextLen then
    let limit := defaultMaxPayloadSize + algorithm.overhead
    (.failed (invalidData
      s!"AEAD ciphertext length {ciphertextLen} exceeds limit {limit}"), s, source)
  else
    match pollReadExact s source ciphertextLen with
    | (.pending, s, source) => (.pending, s, source)
    | (.failed e, s, source) => (.failed e, s, source)
    | (.ready ciphertext, s, source) =>
      match openFrame cipher s ciphertext with
      | (.error e, s) => (.failed e, s, source)
      | (.ok (), s) => (.ready true, s, source)

/-- The stream nonce is there. -/
def readHeader (cipher : AeadCipher) (algorithm : AeadAlgorithm) (s : AeadReadState)
    (source : Source) : Outcome Bool × AeadReadState × Source :=
  if s.headerHave then readCiphertext cipher algorithm s source
  else
    match pollReadExact s source aeadFrameHeaderSize with
    | (.pending, s, source) => (.pending, s, source)
    | (.failed e, s, source) =>
      if e.kind = .unexpectedEof ∧ s.filled = [] then (.ready false, s, source)
      else (.failed e, s, source)
    | (.ready header, s, source) =>
      readCiphertext cipher algorithm { s with headerBuf := header, headerHave := true } source

def pollReadFrame (cipher : AeadCipher) (algorithm : AeadAlgorithm) (s : AeadReadState)
    (source : Source) : Outcome Bool × AeadReadState × Source :=
  if s.headerRead then readHeader cipher algorithm s source
  else
    match pollReadExact s source algorithm.nonceSize with
    | (.pending, s, source) => (.pending, s, source)
    | (.failed e, s, source) => (.failed e, s, source)
    | (.ready nonce, s, source) =>
      readHeader cipher algorithm
        { s with nonce := nonce, streamNonce := some nonce, headerRead := true } source

def serve (s : AeadReadState) (cap : Nat) : List Byte × AeadReadState :=
  ((s.buf.drop s.bufPos).take cap,
    if s.buf.length ≤ s.bufPos + cap then { s with buf := [], bufPos := 0 }
    else { s with bufPos := s.bufPos + cap })

def pollRead (cipher : AeadCipher) (algorithm : AeadAlgorithm) (s : AeadReadState) (source : Source)
    (cap : Nat) : Outcome (List Byte) × AeadReadState × Source :=
  if s.err then (.failed ⟨.brokenPipe, "previous read error"⟩, s, source)
  else if cap = 0 then (.ready [], s, source)
  else if s.bufPos < s.buf.length then (.ready (s.serve cap).1, (s.serve cap).2, source)
  else
    match pollReadFrame cipher algorithm s source with
    | (.ready true, s, source) => (.ready (s.serve cap).1, (s.serve cap).2, source)
    | (.ready false, s, source) => (.ready [], s, source)
    | (.failed e, s, source) => (.failed e, { s with err := true }, source)
    | (.pending, s, source) => (.pending, s, source)

def aeadReader (cipher : AeadCipher) (algorithm : AeadAlgorithm) : Reader AeadReadState where
  pollRead := pollRead cipher algorithm

end AeadReadState

/-!
## Counting nonces
-/

theorem incrementLe_spec (bs : List Byte) :
    (incrementLe bs).2.length = bs.length ∧
      ofLeBytes (incrementLe bs).2 + (if (incrementLe bs).1 then 0 else 256 ^ bs.length) =
        ofLeBytes bs + 1 := by
  induction bs with
  | nil => exact ⟨rfl, rfl⟩
  | cons b bs ih =>
    rw [incrementLe]
    have hb := b.toNat_lt
    by_cases hwrap : b + 1 ≠ 0
    · have hnat : (b + 1).toNat = b.toNat + 1 := by
        apply Nat.mod_eq_of_lt
        apply Nat.lt_of_not_le
        intro hge
        apply hwrap
        apply UInt8.toNat_inj.mp
        change (b.toNat + 1) % 256 = 0
        change 256 ≤ b.toNat + 1 at hge
        omega
      rw [if_pos hwrap]
      refine ⟨rfl, ?_⟩
      rw [if_pos rfl, ofLeBytes, ofLeBytes, hnat]
      omega
    · have hzero : b + 1 = 0 := Decidable.not_not.mp hwrap
      have hlast : b.toNat = 255 := by
        have hsum := congrArg UInt8.toNat hzero
        change (b.toNat + 1) % 256 = 0 at hsum
        omega
      obtain ⟨hlength, hvalue⟩ := ih
      rw [if_neg hwrap]
      refine ⟨?_, ?_⟩
      · rw [length_cons, length_cons, hlength]
      · rw [hzero, ofLeBytes, ofLeBytes, hlast, length_cons, Nat.pow_succ]
        cases hcarry : (incrementLe bs).1 with
        | true =>
          rw [hcarry, if_pos rfl] at hvalue
          change 0 + 256 * ofLeBytes (incrementLe bs).2 + 0 = _
          omega
        | false =>
          rw [hcarry, if_neg Bool.false_ne_true] at hvalue
          rw [if_neg Bool.false_ne_true]
          change 0 + 256 * ofLeBytes (incrementLe bs).2 + _ = _
          omega

theorem incrementNonce_spec (nonce : List Byte) :
    (incrementNonce nonce).2.length = nonce.length ∧
      ofBeBytes (incrementNonce nonce).2 +
          (if (incrementNonce nonce).1 then 0 else 256 ^ nonce.length) =
        ofBeBytes nonce + 1 := by
  obtain ⟨hlength, hvalue⟩ := incrementLe_spec nonce.reverse
  rw [length_reverse] at hlength hvalue
  refine ⟨?_, ?_⟩
  · rw [incrementNonce, length_reverse, hlength]
  · rw [ofBeBytes, ofBeBytes, incrementNonce]
    rw [reverse_reverse]
    exact hvalue

def nonceAt (n0 : List Byte) (k : Nat) : List Byte :=
  beBytes n0.length (ofBeBytes n0 + k)

variable (n0 : List Byte)

theorem length_nonceAt (k : Nat) : (nonceAt n0 k).length = n0.length :=
  beBytes_length _ _

theorem nonceAt_zero : nonceAt n0 0 = n0 := by
  rw [nonceAt, Nat.add_zero, beBytes_ofBeBytes]

theorem ofBeBytes_nonceAt (k : Nat) :
    ofBeBytes (nonceAt n0 k) = (ofBeBytes n0 + k) % 256 ^ n0.length :=
  ofBeBytes_beBytes _ _

theorem ofBeBytes_inj {a b : List Byte} (hlength : a.length = b.length)
    (h : ofBeBytes a = ofBeBytes b) : a = b := by
  rw [← beBytes_ofBeBytes a, ← beBytes_ofBeBytes b, hlength, h]

/-- The next nonce is one more, and zero after the last one. -/
theorem incrementNonce_nonceAt (k : Nat) :
    (incrementNonce (nonceAt n0 k)).2 = nonceAt n0 (k + 1) ∧
      ((incrementNonce (nonceAt n0 k)).1 = false ↔
        (ofBeBytes n0 + k) % 256 ^ n0.length + 1 = 256 ^ n0.length) := by
  obtain ⟨hlength, hvalue⟩ := incrementNonce_spec (nonceAt n0 k)
  rw [length_nonceAt] at hlength hvalue
  rw [ofBeBytes_nonceAt] at hvalue
  have hbound := ofBeBytes_lt (incrementNonce (nonceAt n0 k)).2
  rw [hlength] at hbound
  have hpos : 0 < 256 ^ n0.length := Nat.pow_pos (by decide)
  have hnext : ofBeBytes (nonceAt n0 (k + 1)) =
      ((ofBeBytes n0 + k) % 256 ^ n0.length + 1) % 256 ^ n0.length := by
    rw [ofBeBytes_nonceAt, Nat.mod_add_mod, Nat.add_assoc]
  cases hcarry : (incrementNonce (nonceAt n0 k)).1 with
  | true =>
    rw [hcarry, if_pos rfl, Nat.add_zero] at hvalue
    refine ⟨?_, ?_⟩
    · apply ofBeBytes_inj (hlength.trans (length_nonceAt n0 _).symm)
      rw [hvalue] at hbound
      rw [hnext, hvalue, Nat.mod_eq_of_lt hbound]
    · constructor
      · intro h
        cases h
      · intro h
        omega
  | false =>
    rw [hcarry, if_neg Bool.false_ne_true] at hvalue
    have hlast : (ofBeBytes n0 + k) % 256 ^ n0.length + 1 = 256 ^ n0.length := by omega
    refine ⟨?_, fun _ => hlast, fun _ => rfl⟩
    apply ofBeBytes_inj (hlength.trans (length_nonceAt n0 _).symm)
    rw [hnext, hlast, Nat.mod_self]
    omega

theorem nonceAt_inj {n0 : List Byte} {i j : Nat} (hi : ofBeBytes n0 + i < 256 ^ n0.length)
    (hj : ofBeBytes n0 + j < 256 ^ n0.length) (h : nonceAt n0 i = nonceAt n0 j) : i = j := by
  have hvalue := congrArg ofBeBytes h
  rw [ofBeBytes_nonceAt, ofBeBytes_nonceAt, Nat.mod_eq_of_lt hi, Nat.mod_eq_of_lt hj] at hvalue
  omega

end Stream
end FrpRs
