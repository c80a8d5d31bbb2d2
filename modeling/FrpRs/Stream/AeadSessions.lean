import FrpRs.Stream.Aead

/-!
# Write sessions on AEAD streams

The bytes of a session are the stream nonce and one frame for every chunk that was sealed.  A
frame whose nonce is the last one fails its write; writes after that would be reported although
no reader gets to them.
-/

namespace FrpRs
namespace Stream

open List Bytes Poll

/-- Sealing works on frames, and what is sealed opens again. -/
structure AeadCipher.Works (cipher : AeadCipher) (algorithm : AeadAlgorithm) : Prop where
  seals : forall nonce plaintext aad : List Byte, nonce.length = algorithm.nonceSize ->
    plaintext.length ≤ defaultMaxPayloadSize ->
    exists ciphertext, cipher.encrypt nonce plaintext aad = .ok ciphertext ∧
      ciphertext.length = plaintext.length + algorithm.overhead ∧
      cipher.decrypt nonce ciphertext aad = .ok plaintext

namespace Sealed

def frame (algorithm : AeadAlgorithm) (e : Sealed) : List Byte :=
  AeadWriteState.frameHeader algorithm e.plaintext ++ e.ciphertext

/-- The frame of this number on a stream with this nonce. -/
structure Valid (cipher : AeadCipher) (algorithm : AeadAlgorithm) (n0 : List Byte) (k : Nat)
    (e : Sealed) : Prop where
  nonce : e.nonce = nonceAt n0 k
  aad : e.aad = n0 ++ AeadWriteState.frameHeader algorithm e.plaintext
  nonempty : e.plaintext ≠ []
  short : e.plaintext.length ≤ defaultMaxPayloadSize
  length : e.ciphertext.length = e.plaintext.length + algorithm.overhead
  opens : cipher.decrypt e.nonce e.ciphertext e.aad = .ok e.plaintext
  counted : forall max, algorithm.maxFrameCount = some max -> k < max

end Sealed

def Logged (cipher : AeadCipher) (algorithm : AeadAlgorithm) (n0 : List Byte) :
    Nat -> List Sealed -> Prop
  | _, [] => True
  | k, e :: es => e.Valid cipher algorithm n0 k ∧ Logged cipher algorithm n0 (k + 1) es

def frames (algorithm : AeadAlgorithm) (es : List Sealed) : List Byte :=
  es.flatMap (Sealed.frame algorithm)

def plaintexts (es : List Sealed) : List Byte :=
  es.flatMap Sealed.plaintext

def wire (algorithm : AeadAlgorithm) (n0 : List Byte) (es : List Sealed) : List Byte :=
  if es = [] then [] else n0 ++ frames algorithm es

section Logs

variable {cipher : AeadCipher} {algorithm : AeadAlgorithm} {n0 : List Byte}

theorem logged_snoc {k : Nat} {es : List Sealed} {e : Sealed}
    (h : Logged cipher algorithm n0 k es) (he : e.Valid cipher algorithm n0 (k + es.length)) :
    Logged cipher algorithm n0 k (es ++ [e]) := by
  induction es generalizing k with
  | nil => exact ⟨he, trivial⟩
  | cons first es ih =>
    refine ⟨h.1, ih h.2 ?_⟩
    rw [Nat.add_assoc, Nat.add_comm 1]
    exact he

theorem logged_append {k : Nat} {es fs : List Sealed} (h : Logged cipher algorithm n0 k (es ++ fs)) :
    Logged cipher algorithm n0 k es ∧ Logged cipher algorithm n0 (k + es.length) fs := by
  induction es generalizing k with
  | nil => exact ⟨trivial, h⟩
  | cons first es ih =>
    obtain ⟨hes, hfs⟩ := ih h.2
    refine ⟨⟨h.1, hes⟩, ?_⟩
    rw [Nat.add_assoc, Nat.add_comm 1] at hfs
    exact hfs

theorem frames_snoc (es : List Sealed) (e : Sealed) :
    frames algorithm (es ++ [e]) = frames algorithm es ++ e.frame algorithm := by
  rw [frames, flatMap_append, flatMap_singleton]
  rfl

theorem plaintexts_snoc (es : List Sealed) (e : Sealed) :
    plaintexts (es ++ [e]) = plaintexts es ++ e.plaintext := by
  rw [plaintexts, flatMap_append, flatMap_singleton]
  rfl

def piece (algorithm : AeadAlgorithm) (n0 : List Byte) (es : List Sealed) (e : Sealed) :
    List Byte :=
  (if es = [] then n0 else []) ++ e.frame algorithm

theorem wire_snoc (es : List Sealed) (e : Sealed) :
    wire algorithm n0 (es ++ [e]) = wire algorithm n0 es ++ piece algorithm n0 es e := by
  rw [wire, wire, piece, if_neg (append_ne_nil_of_right_ne_nil es (cons_ne_nil e [])),
    frames_snoc]
  split
  · rename_i hnil
    rw [hnil]
    rfl
  · rw [nil_append, append_assoc]

theorem length_frame (e : Sealed) : 0 < (e.frame algorithm).length := by
  rw [Sealed.frame, length_append, AeadWriteState.frameHeader, beBytes_length]
  exact Nat.lt_of_lt_of_le (by decide) (Nat.le_add_right _ _)

end Logs

namespace AeadWriteState

/-!
## One frame
-/

section Build

variable {cipher : AeadCipher} {algorithm : AeadAlgorithm} {n0 : List Byte} {s : AeadWriteState}

/-- The counters of a stream that has sealed these frames. -/
structure Counts (n0 : List Byte) (es : List Sealed) (s : AeadWriteState) : Prop where
  streamNonce : s.streamNonce = n0
  nonce : s.nonce = nonceAt n0 es.length
  headerSent : s.headerSent = decide (es ≠ [])
  frameCount : s.frameCount = es.length
  sealed : s.sealed = es

/-- What the next chunk becomes. -/
theorem buildFrame_spec (hworks : cipher.Works algorithm) (hsize : n0.length = algorithm.nonceSize)
    {es : List Sealed} (hcounts : Counts n0 es s) (hlimit : atLimit algorithm s = false)
    {plaintext : List Byte} (hne : plaintext ≠ [])
    (hshort : plaintext.length ≤ defaultMaxPayloadSize) :
    exists e, e.Valid cipher algorithm n0 es.length ∧ e.plaintext = plaintext ∧
      buildFrame cipher algorithm s plaintext =
        (let s' := { s with
          pending := piece algorithm n0 es e
          nonce := nonceAt n0 (es.length + 1)
          sealed := es ++ [e] }
        if (ofBeBytes n0 + es.length) % 256 ^ n0.length + 1 = 256 ^ n0.length then
          (.error (otherError "AEAD write nonce exhausted"), s')
        else
          (.ok (), { s' with
            frameCount := s.frameCount + 1
            headerSent := true
            pendingPos := 0
            claimed := some plaintext.length })) := by
  obtain ⟨ciphertext, hencrypt, hlength, hdecrypt⟩ := hworks.seals s.nonce plaintext
    (s.streamNonce ++ frameHeader algorithm plaintext)
    (by rw [hcounts.nonce, length_nonceAt, hsize]) hshort
  have hcounted : forall max, algorithm.maxFrameCount = some max -> es.length < max := by
    intro max hmax
    rw [atLimit, hmax, Option.any_some, decide_eq_false_iff_not, hcounts.frameCount] at hlimit
    omega
  refine ⟨⟨s.nonce, s.streamNonce ++ frameHeader algorithm plaintext, plaintext, ciphertext⟩,
    ⟨hcounts.nonce, ?_, hne, hshort, hlength, hdecrypt, hcounted⟩, rfl, ?_⟩
  · rw [hcounts.streamNonce]
  · obtain ⟨hnext, hwraps⟩ := incrementNonce_nonceAt n0 es.length
    rw [← hcounts.nonce] at hnext hwraps
    have hfront : (if s.headerSent then frameHeader algorithm plaintext
        else s.streamNonce ++ frameHeader algorithm plaintext) ++ ciphertext =
          piece algorithm n0 es ⟨s.nonce, s.streamNonce ++ frameHeader algorithm plaintext, plaintext,
            ciphertext⟩ := by
      rw [hcounts.headerSent, hcounts.streamNonce, piece, Sealed.frame]
      by_cases hnil : es = []
      · rw [if_neg (by rw [decide_eq_true_iff]; exact fun h => h hnil), if_pos hnil,
          append_assoc]
      · rw [if_pos (decide_eq_true hnil), if_neg hnil]
        rfl
    rw [buildFrame]
    rw [hencrypt]
    dsimp only
    rw [hfront, hnext, hcounts.sealed]
    by_cases hlast : (ofBeBytes n0 + es.length) % 256 ^ n0.length + 1 = 256 ^ n0.length
    · rw [if_pos hlast, if_pos (hwraps.mpr hlast)]
    · rw [if_neg hlast, if_neg fun h => hlast (hwraps.mp h)]

end Build

/-- What flushing may do. -/
inductive Flushed (s : AeadWriteState) (sink : Sink) :
    Outcome Unit × AeadWriteState × Sink -> Prop
  | done {sink' : Sink} (hsent : sink'.accepted = sink.accepted ++ s.pending.drop s.pendingPos) :
      Flushed s sink (.ready (), { s with pending := [], pendingPos := 0 }, sink')
  | kept {pos : Nat} {sink' : Sink} {more : List Byte} (hpos : pos < s.pending.length)
      (hsent : sink'.accepted = sink.accepted ++ more)
      (hrest : more ++ s.pending.drop pos = s.pending.drop s.pendingPos) :
      Flushed s sink (.pending, { s with pendingPos := pos }, sink')

theorem pollFlushPending_flushed {s : AeadWriteState} {sink : Sink} (hsound : sink.Sound)
    (hpos : s.pendingPos ≤ s.pending.length) :
    Flushed s sink (pollFlushPending s sink) := by
  rw [pollFlushPending]
  have hloop := hsound.drainLoop_emptied hpos
    (show s.pending.length - s.pendingPos < s.pending.length + 1 by omega)
  generalize sink.drainLoop (s.pending.length + 1) s.pending s.pendingPos = answer at hloop
  cases hloop with
  | done hsent => exact .done hsent
  | kept hpos' hsent hrest => exact .kept hpos' hsent hrest

theorem pollFlushPending_sound {s : AeadWriteState} {sink : Sink} (h : sink.Sound) :
    (pollFlushPending s sink).2.2.Sound := by
  have hsink := h.drainLoop (s.pending.length + 1) s.pending s.pendingPos
  unfold pollFlushPending
  split
  all_goals
    rename_i heq
    rw [heq] at hsink
    exact hsink

/-!
## What a session has sent
-/

/-- The frames of the reported writes, and the kept frame of a pending one. -/
inductive Phase (cipher : AeadCipher) (algorithm : AeadAlgorithm) (n0 : List Byte)
    (s : Session AeadWriteState) : Prop
  | idle {es : List Sealed} (hlog : Logged cipher algorithm n0 0 es)
      (hcounts : Counts n0 es s.state) (hrange : ofBeBytes n0 + es.length < 256 ^ n0.length)
      (hpending : s.state.pending = []) (hpos : s.state.pendingPos = 0)
      (hclaimed : s.state.claimed = none) (hsent : s.sink.accepted = wire algorithm n0 es)
      (hreported : s.reported = plaintexts es)
  | openFrame {es : List Sealed} {e : Sealed} {pre b : List Byte}
      (hlog : Logged cipher algorithm n0 0 (es ++ [e])) (hcounts : Counts n0 (es ++ [e]) s.state)
      (hrange : ofBeBytes n0 + (es ++ [e]).length < 256 ^ n0.length)
      (herr : s.state.err = false) (hclaimed : s.state.claimed = some e.plaintext.length)
      (hpos : s.state.pendingPos < s.state.pending.length)
      (hsent : s.sink.accepted = wire algorithm n0 es ++ pre)
      (hrest : pre ++ s.state.pending.drop s.state.pendingPos = piece algorithm n0 es e)
      (hflight : s.inFlight = some b) (hchunk : e.plaintext = b.take defaultMaxPayloadSize)
      (hreported : s.reported = plaintexts es)
  /-- A flush has finished the frame, whose retry is still to come. -/
  | claimed {es : List Sealed} {e : Sealed} {b : List Byte}
      (hlog : Logged cipher algorithm n0 0 (es ++ [e])) (hcounts : Counts n0 (es ++ [e]) s.state)
      (hrange : ofBeBytes n0 + (es ++ [e]).length < 256 ^ n0.length)
      (herr : s.state.err = false) (hclaimed : s.state.claimed = some e.plaintext.length)
      (hpending : s.state.pending = []) (hpos : s.state.pendingPos = 0)
      (hsent : s.sink.accepted = wire algorithm n0 (es ++ [e]))
      (hflight : s.inFlight = some b) (hchunk : e.plaintext = b.take defaultMaxPayloadSize)
      (hreported : s.reported = plaintexts es)
  /-- The last nonce is used, and the write of its frame has failed. -/
  | exhausted {es : List Sealed} {e : Sealed} {pre : List Byte}
      (hlog : Logged cipher algorithm n0 0 (es ++ [e]))
      (hlast : ofBeBytes n0 + es.length + 1 = 256 ^ n0.length)
      (hnonce : s.state.nonce = nonceAt n0 (es.length + 1)) (hstream : s.state.streamNonce = n0)
      (hcount : s.state.frameCount = es.length) (hsealed : s.state.sealed = es ++ [e])
      (hpos : s.state.pendingPos ≤ s.state.pending.length)
      (hsent : s.sink.accepted = wire algorithm n0 es ++ pre)
      (hrest : pre ++ s.state.pending.drop s.state.pendingPos = piece algorithm n0 es e)
      (hflight : s.inFlight = none) (hreported : s.reported = plaintexts es)

def InStep (s : AeadWriteState) : Prop :=
  ofBeBytes s.nonce = ofBeBytes s.streamNonce + s.frameCount

instance (s : AeadWriteState) : Decidable (InStep s) :=
  inferInstanceAs (Decidable (_ = _))

def Clear (s : Session AeadWriteState) (call : Call) : Prop :=
  s.Repolls call ∧ forall buf, call = .write buf -> buf ≠ [] ∧ InStep s.state

instance (s : Session AeadWriteState) : (call : Call) -> Decidable (Clear s call)
  | .write buf =>
    decidable_of_iff (s.Repolls (.write buf) ∧ buf ≠ [] ∧ InStep s.state)
      (and_congr_right fun _ => ⟨fun h _ heq => Call.write.inj heq ▸ h, fun h => h buf rfl⟩)
  | .flush => isTrue ⟨trivial, fun _ heq => Call.noConfusion heq⟩

section Steps

variable {cipher : AeadCipher} {algorithm : AeadAlgorithm} {n0 : List Byte}
  {s : Session AeadWriteState}

theorem step_write_fields {buf : List Byte} {o : Outcome Nat} {state : AeadWriteState} {sink : Sink}
    (h : pollWrite cipher algorithm s.state s.sink buf = (o, state, sink)) :
    ((aeadWriter cipher algorithm).step s (.write buf)).state = state ∧
      ((aeadWriter cipher algorithm).step s (.write buf)).sink = sink ∧
      ((aeadWriter cipher algorithm).step s (.write buf)).inFlight =
        (if o.isPending then some buf else none) ∧
      ((aeadWriter cipher algorithm).step s (.write buf)).reported =
        s.reported ++ o.written buf := by
  rw [@Writer.step_write _ (aeadWriter cipher algorithm) s buf o state sink h]
  exact ⟨rfl, rfl, rfl, rfl⟩

theorem written_chunk (b : List Byte) :
    b.take (b.take defaultMaxPayloadSize).length = b.take defaultMaxPayloadSize := by
  rw [length_take]
  by_cases hlong : defaultMaxPayloadSize ≤ b.length
  · rw [Nat.min_eq_left hlong]
  · rw [Nat.min_eq_right (by omega), take_length, take_of_length_le (by omega)]

variable {st : AeadWriteState} {es : List Sealed}

theorem Counts.snoc {e : Sealed} (h : Counts n0 es st) {pending : List Byte} {pos : Nat}
    {claimed : Option Nat} :
    Counts n0 (es ++ [e]) { st with
      pending := pending
      nonce := nonceAt n0 (es.length + 1)
      sealed := es ++ [e]
      frameCount := st.frameCount + 1
      headerSent := true
      pendingPos := pos
      claimed := claimed } := by
  refine ⟨h.streamNonce, ?_, ?_, ?_, rfl⟩
  · rw [length_append, length_singleton]
  · rw [decide_eq_true (append_ne_nil_of_right_ne_nil es (cons_ne_nil e []))]
  · rw [length_append, length_singleton, ← h.frameCount]

theorem write_idle (hworks : cipher.Works algorithm) (hsize : n0.length = algorithm.nonceSize)
    (hsound : s.sink.Sound) (hlog : Logged cipher algorithm n0 0 es)
    (hcounts : Counts n0 es s.state) (hrange : ofBeBytes n0 + es.length < 256 ^ n0.length)
    (hpending : s.state.pending = []) (hpos : s.state.pendingPos = 0)
    (hclaimed : s.state.claimed = none) (hsent : s.sink.accepted = wire algorithm n0 es)
    (hreported : s.reported = plaintexts es) {buf : List Byte} (hbuf : buf ≠ []) :
    Phase cipher algorithm n0 ((aeadWriter cipher algorithm).step s (.write buf)) := by
  have hidle : ¬ s.state.pendingPos < s.state.pending.length := by
    rw [hpending]
    exact Nat.not_lt_zero _
  have hpoll : pollWrite cipher algorithm s.state s.sink buf =
      if s.state.err then (.failed ⟨.brokenPipe, "previous write error"⟩, s.state, s.sink)
      else writeFrame cipher algorithm s.state s.sink buf := by
    rw [pollWrite, if_neg hbuf, if_neg hidle, claimOrWrite, hclaimed]
  cases herr : s.state.err with
  | true =>
    rw [herr, if_pos rfl] at hpoll
    obtain ⟨hstate, hsink, _, hreports⟩ := step_write_fields hpoll
    rw [Outcome.written, append_nil] at hreports
    refine @Phase.idle _ _ _ _ es hlog ?_ hrange ?_ ?_ ?_ ?_ ?_
    · rw [hstate]
      exact hcounts
    · rw [hstate, hpending]
    · rw [hstate, hpos]
    · rw [hstate, hclaimed]
    · rw [hsink, hsent]
    · rw [hreports, hreported]
  | false =>
    rw [herr, if_neg Bool.false_ne_true, writeFrame] at hpoll
    cases hlimit : atLimit algorithm s.state with
    | true =>
      rw [hlimit, if_pos rfl] at hpoll
      obtain ⟨hstate, hsink, _, hreports⟩ := step_write_fields hpoll
      rw [Outcome.written, append_nil] at hreports
      refine @Phase.idle _ _ _ _ es hlog ?_ hrange ?_ ?_ ?_ ?_ ?_
      · rw [hstate]
        exact ⟨hcounts.streamNonce, hcounts.nonce, hcounts.headerSent, hcounts.frameCount,
          hcounts.sealed⟩
      · rw [hstate]
        exact hpending
      · rw [hstate]
        exact hpos
      · rw [hstate]
        exact hclaimed
      · rw [hsink, hsent]
      · rw [hreports, hreported]
    | false =>
      rw [hlimit, if_neg Bool.false_ne_true] at hpoll
      have hchunkNe : buf.take defaultMaxPayloadSize ≠ [] := by
        intro hnil
        rcases take_eq_nil_iff.mp hnil with hzero | hnil
        · exact absurd hzero (by decide)
        · exact hbuf hnil
      have hshort : (buf.take defaultMaxPayloadSize).length ≤ defaultMaxPayloadSize := by
        rw [length_take]
        exact Nat.min_le_left _ _
      obtain ⟨e, hvalid, hplain, hbuild⟩ :=
        buildFrame_spec hworks hsize hcounts hlimit hchunkNe hshort
      have hlog' : Logged cipher algorithm n0 0 (es ++ [e]) :=
        logged_snoc hlog (by rw [Nat.zero_add]; exact hvalid)
      rw [Nat.mod_eq_of_lt hrange] at hbuild
      dsimp only at hpoll hbuild
      rw [hbuild] at hpoll
      by_cases hlast : ofBeBytes n0 + es.length + 1 = 256 ^ n0.length
      · rw [if_pos hlast] at hpoll
        obtain ⟨hstate, hsink, hflight, hreports⟩ := step_write_fields hpoll
        rw [Outcome.written, append_nil] at hreports
        refine @Phase.exhausted _ _ _ _ es e [] hlog' hlast ?_ ?_ ?_ ?_ ?_ ?_ ?_ hflight ?_
        · rw [hstate]
        · rw [hstate]
          exact hcounts.streamNonce
        · rw [hstate]
          exact hcounts.frameCount
        · rw [hstate]
        · rw [hstate]
          rw [hpos]
          exact Nat.zero_le _
        · rw [hsink, hsent, append_nil]
        · rw [hstate]
          rw [hpos, drop_zero, nil_append]
        · rw [hreports, hreported]
      · rw [if_neg hlast] at hpoll
        have hrange' : ofBeBytes n0 + (es ++ [e]).length < 256 ^ n0.length := by
          rw [length_append, length_singleton]
          omega
        dsimp only at hpoll
        generalize hnext : ({ s.state with
          pending := piece algorithm n0 es e
          nonce := nonceAt n0 (es.length + 1)
          sealed := es ++ [e]
          frameCount := s.state.frameCount + 1
          headerSent := true
          pendingPos := 0
          claimed := some (buf.take defaultMaxPayloadSize).length } : AeadWriteState) = st at hpoll
        have hcounts' : Counts n0 (es ++ [e]) st := by
          rw [← hnext]
          exact hcounts.snoc
        have hstpos : st.pendingPos = 0 := by rw [← hnext]
        have hstpending : st.pending = piece algorithm n0 es e := by rw [← hnext]
        have hflushed := @pollFlushPending_flushed st s.sink hsound (by
          rw [hstpos]
          exact Nat.zero_le _)
        generalize pollFlushPending st s.sink = answer at hflushed hpoll
        cases hflushed with
        | done hsent' =>
          obtain ⟨hstate, hsink, _, hreports⟩ := step_write_fields hpoll
          rw [Outcome.written, written_chunk] at hreports
          refine @Phase.idle _ _ _ _ (es ++ [e]) hlog' ?_ hrange' ?_ ?_ ?_ ?_ ?_
          · rw [hstate]
            exact ⟨hcounts'.streamNonce, hcounts'.nonce, hcounts'.headerSent,
              hcounts'.frameCount, hcounts'.sealed⟩
          · rw [hstate]
          · rw [hstate]
          · rw [hstate]
          · rw [hsink, hsent', hstpending, hstpos, drop_zero, hsent, wire_snoc]
          · rw [hreports, hreported, plaintexts_snoc, hplain]
        | kept hpos' hsent' hrest =>
          rename_i pos sink' more
          obtain ⟨hstate, hsink, hflight, hreports⟩ := step_write_fields hpoll
          rw [Outcome.written, append_nil] at hreports
          refine @Phase.openFrame _ _ _ _ es e more buf hlog' ?_ hrange' ?_ ?_ ?_ ?_ ?_
            hflight hplain ?_
          · rw [hstate]
            exact ⟨hcounts'.streamNonce, hcounts'.nonce, hcounts'.headerSent,
              hcounts'.frameCount, hcounts'.sealed⟩
          · rw [hstate, ← hnext]
            exact herr
          · rw [hstate, ← hnext, hplain]
          · rw [hstate]
            exact hpos'
          · rw [hsink, hsent', hsent]
          · rw [hstate]
            rw [hrest, hstpos, drop_zero, hstpending]
          · rw [hreports, hreported]

theorem write_open (hsound : s.sink.Sound) {e : Sealed} {pre b : List Byte}
    (hlog : Logged cipher algorithm n0 0 (es ++ [e])) (hcounts : Counts n0 (es ++ [e]) s.state)
    (hrange : ofBeBytes n0 + (es ++ [e]).length < 256 ^ n0.length) (herr : s.state.err = false)
    (hclaimed : s.state.claimed = some e.plaintext.length)
    (hpos : s.state.pendingPos < s.state.pending.length)
    (hsent : s.sink.accepted = wire algorithm n0 es ++ pre)
    (hrest : pre ++ s.state.pending.drop s.state.pendingPos = piece algorithm n0 es e)
    (hchunk : e.plaintext = b.take defaultMaxPayloadSize) (hreported : s.reported = plaintexts es)
    (hb : b ≠ []) :
    Phase cipher algorithm n0 ((aeadWriter cipher algorithm).step s (.write b)) := by
  have hflushed := pollFlushPending_flushed hsound (Nat.le_of_lt hpos)
  have hpoll : pollWrite cipher algorithm s.state s.sink b =
      pollWrite cipher algorithm s.state s.sink b := rfl
  nth_rewrite 2 [pollWrite] at hpoll
  rw [herr, if_neg Bool.false_ne_true, if_neg hb, if_pos hpos] at hpoll
  generalize pollFlushPending s.state s.sink = answer at hflushed hpoll
  cases hflushed with
  | done hsent' =>
    dsimp only at hpoll
    rw [claimOrWrite, hclaimed] at hpoll
    obtain ⟨hstate, hsink, _, hreports⟩ := step_write_fields hpoll
    rw [Outcome.written, hchunk, written_chunk, ← hchunk] at hreports
    refine @Phase.idle _ _ _ _ (es ++ [e]) hlog ?_ hrange ?_ ?_ ?_ ?_ ?_
    · rw [hstate]
      exact ⟨hcounts.streamNonce, hcounts.nonce, hcounts.headerSent, hcounts.frameCount,
        hcounts.sealed⟩
    · rw [hstate]
    · rw [hstate]
    · rw [hstate]
    · rw [hsink, hsent', hsent, append_assoc, hrest, wire_snoc]
    · rw [hreports, hreported, plaintexts_snoc]
  | kept hpos' hsent' hrest' =>
    rename_i pos sink' more
    obtain ⟨hstate, hsink, hflight, hreports⟩ := step_write_fields hpoll
    rw [Outcome.written, append_nil] at hreports
    refine @Phase.openFrame _ _ _ _ es e (pre ++ more) b hlog ?_ hrange ?_ ?_ ?_ ?_ ?_ hflight
      hchunk ?_
    · rw [hstate]
      exact ⟨hcounts.streamNonce, hcounts.nonce, hcounts.headerSent, hcounts.frameCount,
        hcounts.sealed⟩
    · rw [hstate]
      exact herr
    · rw [hstate]
      exact hclaimed
    · rw [hstate]
      exact hpos'
    · rw [hsink, hsent', hsent, append_assoc]
    · rw [hstate]
      rw [append_assoc, hrest', hrest]
    · rw [hreports, hreported]

theorem write_claimed {e : Sealed} {b : List Byte} (hlog : Logged cipher algorithm n0 0 (es ++ [e]))
    (hcounts : Counts n0 (es ++ [e]) s.state)
    (hrange : ofBeBytes n0 + (es ++ [e]).length < 256 ^ n0.length) (herr : s.state.err = false)
    (hclaimed : s.state.claimed = some e.plaintext.length) (hpending : s.state.pending = [])
    (hpos : s.state.pendingPos = 0) (hsent : s.sink.accepted = wire algorithm n0 (es ++ [e]))
    (hchunk : e.plaintext = b.take defaultMaxPayloadSize) (hreported : s.reported = plaintexts es)
    (hb : b ≠ []) :
    Phase cipher algorithm n0 ((aeadWriter cipher algorithm).step s (.write b)) := by
  have hidle : ¬ s.state.pendingPos < s.state.pending.length := by
    rw [hpending]
    exact Nat.not_lt_zero _
  have hpoll : pollWrite cipher algorithm s.state s.sink b =
      (.ready e.plaintext.length, { s.state with claimed := none }, s.sink) := by
    rw [pollWrite, if_neg (by rw [herr]; exact Bool.false_ne_true), if_neg hb, if_neg hidle,
      claimOrWrite, hclaimed]
  obtain ⟨hstate, hsink, _, hreports⟩ := step_write_fields hpoll
  rw [Outcome.written, hchunk, written_chunk, ← hchunk] at hreports
  refine @Phase.idle _ _ _ _ (es ++ [e]) hlog ?_ hrange ?_ ?_ ?_ ?_ ?_
  · rw [hstate]
    exact ⟨hcounts.streamNonce, hcounts.nonce, hcounts.headerSent, hcounts.frameCount,
      hcounts.sealed⟩
  · rw [hstate]
    exact hpending
  · rw [hstate]
    exact hpos
  · rw [hstate]
  · rw [hsink, hsent]
  · rw [hreports, hreported, plaintexts_snoc]

theorem not_inStep (hsize : n0.length = algorithm.nonceSize) {k : Nat}
    (hlast : ofBeBytes n0 + k + 1 = 256 ^ n0.length) (hnonce : st.nonce = nonceAt n0 (k + 1))
    (hstream : st.streamNonce = n0) (hcount : st.frameCount = k) : ¬ InStep st := by
  intro h
  have hlong : 256 ≤ 256 ^ n0.length := by
    rw [hsize]
    cases algorithm with
    | aes256Gcm => decide
    | xchacha20Poly1305 => decide
  rw [InStep, hnonce, hstream, hcount, ofBeBytes_nonceAt, ← Nat.add_assoc, hlast, Nat.mod_self] at h
  omega

theorem flush_phase (hsound : s.sink.Sound) (h : Phase cipher algorithm n0 s) :
    Phase cipher algorithm n0 ((aeadWriter cipher algorithm).step s .flush) := by
  have hpoll : (aeadWriter cipher algorithm).pollFlush s.state s.sink =
      pollFlush s.state s.sink := rfl
  rw [pollFlush] at hpoll
  have hpos : s.state.pendingPos ≤ s.state.pending.length := by
    cases h with
    | idle hlog hcounts hrange hpending hpos hclaimed hsent hreported =>
      rw [hpos]
      exact Nat.zero_le _
    | openFrame hlog hcounts hrange herr hclaimed hpos hsent hrest hflight hchunk hreported =>
      exact Nat.le_of_lt hpos
    | claimed hlog hcounts hrange herr hclaimed hpending hpos hsent hflight hchunk hreported =>
      rw [hpos]
      exact Nat.zero_le _
    | exhausted hlog hlast hnonce hstream hcount hsealed hpos hsent hrest hflight hreported =>
      exact hpos
  have hflushed := pollFlushPending_flushed hsound hpos
  generalize pollFlushPending s.state s.sink = answer at hflushed hpoll
  have hflush : forall sink : Sink, sink.pollFlush.2.accepted = sink.accepted :=
    Sink.pollFlush_accepted
  cases h with
  | idle hlog hcounts hrange hpending hpos' hclaimed hsent hreported =>
    have hcounts' := hcounts
    obtain ⟨hstream, hnonce, hheader, hcount, hsealed⟩ := hcounts'
    cases hflushed with
    | kept hpos'' hsent' hrest =>
      rw [hpending] at hpos''
      exact absurd hpos'' (Nat.not_lt_zero _)
    | done hsent' =>
      rw [Writer.step_flush hpoll]
      refine .idle hlog ⟨hstream, hnonce, hheader, hcount, hsealed⟩ hrange rfl rfl hclaimed ?_
        hreported
      rw [hflush, hsent', hpending, drop_nil, append_nil, hsent]
  | claimed hlog hcounts hrange herr hclaimed hpending hpos' hsent hflight hchunk hreported =>
    obtain ⟨hstream, hnonce, hheader, hcount, hsealed⟩ := hcounts
    cases hflushed with
    | kept hpos'' hsent' hrest =>
      rw [hpending] at hpos''
      exact absurd hpos'' (Nat.not_lt_zero _)
    | done hsent' =>
      rw [Writer.step_flush hpoll]
      refine .claimed hlog ⟨hstream, hnonce, hheader, hcount, hsealed⟩ hrange herr hclaimed rfl
        rfl ?_ hflight hchunk hreported
      rw [hflush, hsent', hpending, drop_nil, append_nil, hsent]
  | openFrame hlog hcounts hrange herr hclaimed hpos' hsent hrest hflight hchunk hreported =>
    rename_i es e pre b
    obtain ⟨hstream, hnonce, hheader, hcount, hsealed⟩ := hcounts
    cases hflushed with
    | done hsent' =>
      rw [Writer.step_flush hpoll]
      refine .claimed hlog ⟨hstream, hnonce, hheader, hcount, hsealed⟩ hrange herr hclaimed rfl
        rfl ?_ hflight hchunk hreported
      rw [hflush, hsent', hsent, append_assoc, hrest, wire_snoc]
    | kept hpos'' hsent' hrest' =>
      rename_i pos sink' more
      rw [Writer.step_flush hpoll]
      refine @Phase.openFrame _ _ _ _ es e (pre ++ more) b hlog
        ⟨hstream, hnonce, hheader, hcount, hsealed⟩ hrange herr hclaimed hpos'' ?_ ?_ hflight
        hchunk hreported
      · rw [hsent', hsent, append_assoc]
      · rw [append_assoc, hrest', hrest]
  | exhausted hlog hlast hnonce hstream hcount hsealed hpos' hsent hrest hflight hreported =>
    rename_i es e pre
    cases hflushed with
    | done hsent' =>
      rw [Writer.step_flush hpoll]
      refine @Phase.exhausted _ _ _ _ es e (pre ++ s.state.pending.drop s.state.pendingPos) hlog
        hlast hnonce hstream hcount hsealed (Nat.le_refl 0) ?_ ?_ hflight hreported
      · rw [hflush, hsent', hsent, append_assoc]
      · rw [drop_nil, append_nil, hrest]
    | kept hpos'' hsent' hrest' =>
      rename_i pos sink' more
      rw [Writer.step_flush hpoll]
      refine @Phase.exhausted _ _ _ _ es e (pre ++ more) hlog hlast hnonce hstream hcount hsealed
        (Nat.le_of_lt hpos'') ?_ ?_ hflight hreported
      · rw [hsent', hsent, append_assoc]
      · rw [append_assoc, hrest', hrest]

theorem pollWrite_sound {sink : Sink} (h : sink.Sound) (buf : List Byte) :
    (pollWrite cipher algorithm st sink buf).2.2.Sound := by
  have hwrite : forall (st : AeadWriteState) (sink : Sink), sink.Sound ->
      (claimOrWrite cipher algorithm st sink buf).2.2.Sound := by
    intro st sink h
    unfold claimOrWrite
    split
    · exact h
    · unfold writeFrame
      split
      · exact h
      · dsimp only
        split
        · exact h
        · rename_i st' _
          have hflush := @pollFlushPending_sound st' sink h
          split
          all_goals
            rename_i heq
            rw [heq] at hflush
            exact hflush
  unfold pollWrite
  split
  · exact h
  · split
    · exact h
    · split
      · have hflush := @pollFlushPending_sound st sink h
        split
        · rename_i heq
          rw [heq] at hflush
          exact hwrite _ _ hflush
        · rename_i heq
          rw [heq] at hflush
          exact hflush
        · rename_i heq
          rw [heq] at hflush
          exact hflush
      · exact hwrite st sink h

theorem pollFlush_sound {sink : Sink} (h : sink.Sound) :
    (pollFlush st sink).2.2.Sound := by
  have hflush := @pollFlushPending_sound st sink h
  unfold pollFlush
  split
  · rename_i heq
    rw [heq] at hflush
    exact hflush.pollFlush
  · rename_i heq
    rw [heq] at hflush
    exact hflush
  · rename_i heq
    rw [heq] at hflush
    exact hflush

theorem step_phase (hworks : cipher.Works algorithm) (hsize : n0.length = algorithm.nonceSize)
    (s : Session AeadWriteState) (call : Call)
    (h : s.sink.Sound ∧ Phase cipher algorithm n0 s) (hclear : Clear s call) :
    ((aeadWriter cipher algorithm).step s call).sink.Sound ∧
      Phase cipher algorithm n0 ((aeadWriter cipher algorithm).step s call) := by
  obtain ⟨hsound, hphase⟩ := h
  cases call with
  | flush => exact ⟨pollFlush_sound hsound, flush_phase hsound hphase⟩
  | write buf =>
    refine ⟨pollWrite_sound hsound buf, ?_⟩
    obtain ⟨hbuf, hstep⟩ := hclear.2 buf rfl
    cases hphase with
    | idle hlog hcounts hrange hpending hpos hclaimed hsent hreported =>
      exact write_idle hworks hsize hsound hlog hcounts hrange hpending hpos hclaimed hsent
        hreported hbuf
    | openFrame hlog hcounts hrange herr hclaimed hpos hsent hrest hflight hchunk hreported =>
      rw [hclear.1.eq hflight] at hchunk
      exact write_open hsound hlog hcounts hrange herr hclaimed hpos hsent hrest hchunk hreported
        hbuf
    | claimed hlog hcounts hrange herr hclaimed hpending hpos hsent hflight hchunk hreported =>
      rw [hclear.1.eq hflight] at hchunk
      exact write_claimed hlog hcounts hrange herr hclaimed hpending hpos hsent hchunk hreported
        hbuf
    | exhausted hlog hlast hnonce hstream hcount hsealed hpos hsent hrest hflight hreported =>
      exact absurd hstep (not_inStep hsize hlast hnonce hstream hcount)

end Steps

end AeadWriteState

end Stream
end FrpRs
