import FrpRs.Stream.AeadRoundTrip

/-!
# Integrity of AEAD streams

A reader that is given any bytes at all delivers only what the writer has sealed, in the
writer's order and without gaps.  The stream nonce is part of the associated data of every frame,
so a reader that opens one frame has the writer's stream nonce, and its next nonce is that of the
frame in whose turn it is.

The cipher is ideal: it opens what was sealed and nothing else.
-/

namespace FrpRs
namespace Stream

open List Bytes Poll

def AeadCipher.Ideal (cipher : AeadCipher) (log : List Sealed) : Prop :=
  forall nonce ciphertext aad plaintext, cipher.decrypt nonce ciphertext aad = .ok plaintext ->
    exists e, e ∈ log ∧ e.nonce = nonce ∧ e.aad = aad ∧ e.ciphertext = ciphertext ∧
      e.plaintext = plaintext

/-!
## The writer's log
-/

namespace AeadWriteState

/-- The nonces of the log count up from the stream nonce, also over the last one.  A frame under
the last nonce is not counted. -/
structure Numbered (n0 : List Byte) (s : AeadWriteState) : Prop where
  streamNonce : s.streamNonce = n0
  nonce : s.nonce = nonceAt n0 s.sealed.length
  frameCount : s.frameCount + (ofBeBytes n0 + s.sealed.length) / 256 ^ n0.length = s.sealed.length
  log : forall i e, s.sealed[i]? = some e ->
    e.nonce = nonceAt n0 i ∧ exists header, e.aad = n0 ++ header

section Logs

variable {cipher : AeadCipher} {algorithm : AeadAlgorithm} {n0 : List Byte}

theorem numbered_new (n0 : List Byte) : Numbered n0 (new n0) := by
  refine ⟨rfl, (nonceAt_zero n0).symm, ?_, ?_⟩
  · change 0 + (ofBeBytes n0 + 0) / 256 ^ n0.length = 0
    rw [Nat.add_zero, Nat.zero_add, Nat.div_eq_of_lt (ofBeBytes_lt n0)]
  · intro i e h
    change ([] : List Sealed)[i]? = some e at h
    cases h

theorem div_succ {a m : Nat} (hpos : 0 < m) :
    (a + 1) / m = a / m + (if a % m + 1 = m then 1 else 0) := by
  have hless := Nat.mod_lt a hpos
  have hsum : (a + 1) / m = (m * (a / m) + (a % m + 1)) / m := by
    rw [← Nat.add_assoc, Nat.div_add_mod]
  rw [hsum, Nat.mul_add_div hpos]
  split
  · rename_i hlast
    rw [hlast, Nat.div_self hpos]
  · rw [Nat.div_eq_of_lt (show a % m + 1 < m by omega)]

theorem buildFrame_numbered {s : AeadWriteState} (h : Numbered n0 s) (plaintext : List Byte) :
    Numbered n0 (buildFrame cipher algorithm s plaintext).2 := by
  obtain ⟨hnext, hwraps⟩ := incrementNonce_nonceAt n0 s.sealed.length
  rw [← h.nonce] at hnext hwraps
  have hpos : 0 < 256 ^ n0.length := Nat.pow_pos (by decide)
  have hcount := h.frameCount
  generalize hM : 256 ^ n0.length = M at hwraps hpos hcount
  have hdiv := @div_succ (ofBeBytes n0 + s.sealed.length) M hpos
  have hlog : forall e : Sealed, e.nonce = s.nonce -> (exists header, e.aad = n0 ++ header) ->
      forall i f, (s.sealed ++ [e])[i]? = some f ->
        f.nonce = nonceAt n0 i ∧ exists header, f.aad = n0 ++ header := by
    intro e hnonce haad i f hf
    by_cases hi : i < s.sealed.length
    · rw [List.getElem?_append_left hi] at hf
      exact h.log i f hf
    · rw [List.getElem?_append_right (Nat.not_lt.mp hi), List.getElem?_singleton] at hf
      split at hf
      · cases hf
        have hsame : i = s.sealed.length := by omega
        rw [hsame]
        exact ⟨hnonce.trans h.nonce, haad⟩
      · cases hf
  rw [buildFrame]
  cases cipher.encrypt s.nonce plaintext (s.streamNonce ++ frameHeader algorithm plaintext) with
  | error text => exact ⟨h.streamNonce, h.nonce, h.frameCount, h.log⟩
  | ok ciphertext =>
    have hentry := hlog ⟨s.nonce, s.streamNonce ++ frameHeader algorithm plaintext, plaintext,
      ciphertext⟩ rfl ⟨_, by rw [h.streamNonce]⟩
    dsimp only
    split
    · rename_i hwrap
      refine ⟨h.streamNonce, ?_, ?_, hentry⟩
      · rw [hnext, length_append, length_singleton]
      · dsimp only
        rw [length_append, length_singleton, hM, ← Nat.add_assoc, hdiv,
          if_pos (hwraps.mp hwrap)]
        omega
    · rename_i hwrap
      refine ⟨h.streamNonce, ?_, ?_, hentry⟩
      · rw [hnext, length_append, length_singleton]
      · dsimp only
        rw [length_append, length_singleton, hM, ← Nat.add_assoc, hdiv,
          if_neg fun hlast => hwrap (hwraps.mpr hlast)]
        omega

/-- A property that only a new frame can change, and that a new frame keeps. -/
structure Kept (cipher : AeadCipher) (algorithm : AeadAlgorithm) (P : AeadWriteState -> Prop) :
    Prop where
  flushes : forall s pending pos claimed err, P s -> P { s with
    pending := pending
    pendingPos := pos
    claimed := claimed
    err := err }
  builds : forall s plaintext, P s -> P (buildFrame cipher algorithm s plaintext).2

section Keep

variable {P : AeadWriteState -> Prop} {s : AeadWriteState}

theorem Kept.pollFlushPending (hkept : Kept cipher algorithm P) (h : P s) (sink : Sink) :
    P (pollFlushPending s sink).2.1 := by
  unfold AeadWriteState.pollFlushPending
  split
  all_goals exact hkept.flushes s _ _ _ _ h

theorem Kept.writeFrame (hkept : Kept cipher algorithm P) (h : P s) (sink : Sink)
    (buf : List Byte) : P (writeFrame cipher algorithm s sink buf).2.1 := by
  have hbuild := hkept.builds s (buf.take defaultMaxPayloadSize) h
  unfold AeadWriteState.writeFrame
  split
  · exact hkept.flushes s _ _ _ _ h
  · dsimp only
    split
    · rename_i heq
      rw [heq] at hbuild
      exact hbuild
    · rename_i heq
      rw [heq] at hbuild
      have hflush := hkept.pollFlushPending hbuild sink
      split
      · rename_i heq'
        rw [heq'] at hflush
        exact hkept.flushes _ _ _ _ _ hflush
      · rename_i heq'
        rw [heq'] at hflush
        exact hflush
      · rename_i heq'
        rw [heq'] at hflush
        exact hflush

theorem Kept.claimOrWrite (hkept : Kept cipher algorithm P) (h : P s) (sink : Sink)
    (buf : List Byte) : P (claimOrWrite cipher algorithm s sink buf).2.1 := by
  unfold AeadWriteState.claimOrWrite
  split
  · exact hkept.flushes s _ _ _ _ h
  · exact hkept.writeFrame h sink buf

theorem Kept.step (hkept : Kept cipher algorithm P) (s : Session AeadWriteState) (call : Call)
    (h : P s.state) : P ((aeadWriter cipher algorithm).step s call).state := by
  have hflush := hkept.pollFlushPending h s.sink
  cases call with
  | flush =>
    change P (pollFlush s.state s.sink).2.1
    unfold pollFlush
    split
    all_goals
      rename_i heq
      rw [heq] at hflush
      exact hflush
  | write buf =>
    change P (pollWrite cipher algorithm s.state s.sink buf).2.1
    unfold pollWrite
    split
    · exact h
    · split
      · exact h
      · split
        · split
          · rename_i heq
            rw [heq] at hflush
            exact hkept.claimOrWrite hflush _ buf
          · rename_i heq
            rw [heq] at hflush
            exact hflush
          · rename_i heq
            rw [heq] at hflush
            exact hflush
        · exact hkept.claimOrWrite h s.sink buf

end Keep

theorem numbered_kept : Kept cipher algorithm (Numbered n0) where
  flushes _ _ _ _ _ h := ⟨h.streamNonce, h.nonce, h.frameCount, h.log⟩
  builds _ plaintext h := buildFrame_numbered h plaintext

theorem sealed_kept (log : List Sealed) :
    Kept cipher algorithm (fun s => log <+: s.sealed) where
  flushes _ _ _ _ _ h := h
  builds s plaintext h := by
    rw [buildFrame]
    dsimp only
    split
    · exact h
    · split
      · exact h.trans (prefix_append _ _)
      · exact h.trans (prefix_append _ _)

theorem Numbered.length_lt {s : AeadWriteState} (h : Numbered n0 s)
    (hsize : n0.length = algorithm.nonceSize) (hcount : s.frameCount < 2 ^ 64) :
    s.sealed.length < 256 ^ n0.length := by
  have hlarge : 2 ^ 64 + 2 < 256 ^ n0.length := by
    rw [hsize]
    cases algorithm with
    | aes256Gcm => decide
    | xchacha20Poly1305 => decide
  have hless := ofBeBytes_lt n0
  have hframes := h.frameCount
  generalize 256 ^ n0.length = m at hlarge hless hframes
  generalize s.sealed.length = l at hframes
  apply Nat.lt_of_not_le
  intro hmany
  have hwraps : (ofBeBytes n0 + l) / m ≤ l / m + 1 := by
    calc (ofBeBytes n0 + l) / m ≤ (m + l) / m := Nat.div_le_div_right (by omega)
      _ = l / m + 1 := Nat.add_div_left l (by omega)
  have hmul := Nat.div_mul_le_self l m
  have hone : 1 ≤ l / m := (Nat.one_le_div_iff (by omega)).mpr hmany
  have hgrows : l / m * (m - 1) ≥ m - 1 := Nat.le_mul_of_pos_left _ hone
  rw [Nat.mul_sub_one] at hgrows
  omega

end Logs

/-!
## What was reported of the log
-/

def Wrapped (n0 : List Byte) (s : Session AeadWriteState) : Prop :=
  exists es, es <+: s.state.sealed ∧ ofBeBytes n0 + es.length + 1 = 256 ^ n0.length ∧
    plaintexts es <+: s.reported

section Reports

variable {cipher : AeadCipher} {algorithm : AeadAlgorithm} {n0 : List Byte}
  {s : Session AeadWriteState}

theorem step_reported (call : Call) :
    s.reported <+: ((aeadWriter cipher algorithm).step s call).reported := by
  cases call with
  | flush => exact prefix_rfl
  | write buf => exact prefix_append _ _

theorem Wrapped.step (h : Wrapped n0 s) (call : Call) :
    Wrapped n0 ((aeadWriter cipher algorithm).step s call) := by
  obtain ⟨es, hes, hlast, hreported⟩ := h
  exact ⟨es, (sealed_kept es).step s call hes, hlast, hreported.trans (step_reported call)⟩

theorem Counts.inStep {es : List Sealed} {st : AeadWriteState} (h : Counts n0 es st)
    (hrange : ofBeBytes n0 + es.length < 256 ^ n0.length) : InStep st := by
  rw [InStep, h.nonce, h.streamNonce, h.frameCount, ofBeBytes_nonceAt, Nat.mod_eq_of_lt hrange]

theorem Phase.inStep (h : Phase cipher algorithm n0 s) : InStep s.state ∨ Wrapped n0 s := by
  cases h with
  | idle hlog hcounts hrange => exact .inl (hcounts.inStep hrange)
  | openFrame hlog hcounts hrange => exact .inl (hcounts.inStep hrange)
  | claimed hlog hcounts hrange => exact .inl (hcounts.inStep hrange)
  | exhausted hlog hlast hnonce hstream hcount hsealed hpos hsent hrest hflight hreported =>
    rename_i es e pre
    refine .inr ⟨es, ?_, hlast, ?_⟩
    · rw [hsealed]
      exact prefix_append _ _
    · exact initial_of_eq hreported.symm

/-- An empty write changes nothing. -/
theorem write_empty (h : Phase cipher algorithm n0 s) (hrepolls : s.Repolls (.write [])) :
    Phase cipher algorithm n0 ((aeadWriter cipher algorithm).step s (.write [])) := by
  have hpoll : exists o : Outcome Nat, o.isPending = false ∧
      pollWrite cipher algorithm s.state s.sink [] = (o, s.state, s.sink) := by
    cases herr : s.state.err with
    | true => exact ⟨_, rfl, by rw [pollWrite, herr, if_pos rfl]⟩
    | false => exact ⟨_, rfl, by rw [pollWrite, herr, if_neg Bool.false_ne_true, if_pos rfl]⟩
  obtain ⟨o, hpending, hpoll⟩ := hpoll
  obtain ⟨hstate, hsink, hflight, hreports⟩ := step_write_fields hpoll
  have hwritten : o.written [] = [] := by
    cases o with
    | pending => rfl
    | ready n => exact take_nil
    | failed e => rfl
  rw [hwritten, append_nil] at hreports
  rw [hpending, if_neg Bool.false_ne_true] at hflight
  have hnot : forall (e : Sealed) (b : List Byte), s.inFlight = some b -> e.plaintext ≠ [] ->
      e.plaintext = b.take defaultMaxPayloadSize -> False := by
    intro e b hsome hne hchunk
    rw [hrepolls.eq hsome, take_nil] at hchunk
    exact hne hchunk
  cases h with
  | idle hlog hcounts hrange hpending hpos hclaimed hsent hreported =>
    refine .idle hlog ?_ hrange ?_ ?_ ?_ ?_ ?_
    · rw [hstate]
      exact hcounts
    · rw [hstate]
      exact hpending
    · rw [hstate]
      exact hpos
    · rw [hstate]
      exact hclaimed
    · rw [hsink]
      exact hsent
    · rw [hreports]
      exact hreported
  | openFrame hlog hcounts hrange herr hclaimed hpos hsent hrest hsome hchunk hreported =>
    exact absurd hchunk fun hchunk => hnot _ _ hsome (logged_append hlog).2.1.nonempty hchunk
  | claimed hlog hcounts hrange herr hclaimed hpending hpos hsent hsome hchunk hreported =>
    exact absurd hchunk fun hchunk => hnot _ _ hsome (logged_append hlog).2.1.nonempty hchunk
  | exhausted hlog hlast hnonce hstream hcount hsealed hpos hsent hrest hnone hreported =>
    rename_i es e pre
    refine @Phase.exhausted _ _ _ _ es e pre hlog hlast ?_ ?_ ?_ ?_ ?_ ?_ ?_ hflight ?_
    · rw [hstate]
      exact hnonce
    · rw [hstate]
      exact hstream
    · rw [hstate]
      exact hcount
    · rw [hstate]
      exact hsealed
    · rw [hstate]
      exact hpos
    · rw [hsink]
      exact hsent
    · rw [hstate]
      exact hrest
    · rw [hreports]
      exact hreported

theorem step_covers (hworks : cipher.Works algorithm) (hsize : n0.length = algorithm.nonceSize)
    (s : Session AeadWriteState) (call : Call)
    (h : s.sink.Sound ∧ (Phase cipher algorithm n0 s ∨ Wrapped n0 s)) (hrepolls : s.Repolls call) :
    ((aeadWriter cipher algorithm).step s call).sink.Sound ∧
      (Phase cipher algorithm n0 ((aeadWriter cipher algorithm).step s call) ∨
        Wrapped n0 ((aeadWriter cipher algorithm).step s call)) := by
  obtain ⟨hsound, hphase | hwrapped⟩ := h
  · cases call with
    | flush => exact ⟨pollFlush_sound hsound, .inl (flush_phase hsound hphase)⟩
    | write buf =>
      refine ⟨pollWrite_sound hsound buf, ?_⟩
      by_cases hbuf : buf = []
      · rw [hbuf] at hrepolls ⊢
        exact .inl (write_empty hphase hrepolls)
      · rcases hphase.inStep with hstep | hwrapped
        · have hclear : Clear s (.write buf) :=
            ⟨hrepolls, fun b heq => Call.write.inj heq ▸ ⟨hbuf, hstep⟩⟩
          exact .inl (step_phase hworks hsize s _ ⟨hsound, hphase⟩ hclear).2
        · exact .inr (hwrapped.step _)
  · refine ⟨?_, .inr (hwrapped.step call)⟩
    cases call with
    | flush => exact pollFlush_sound hsound
    | write buf => exact pollWrite_sound hsound buf

theorem reported_of_covers (h : Phase cipher algorithm n0 s ∨ Wrapped n0 s) {k : Nat}
    (hrange : ofBeBytes n0 + k < 256 ^ n0.length) :
    plaintexts (s.state.sealed.take k) <+:
      s.reported ++ s.pendingBytes.take defaultMaxPayloadSize := by
  have hlength : (s.state.sealed.take k).length ≤ k := by
    rw [length_take]
    exact Nat.min_le_left _ _
  rcases h with hphase | ⟨es, hes, hlast, hreported⟩
  · exact hphase.sent.owed _ ( take_prefix _ _) (by omega)
  · have hprefix : s.state.sealed.take k <+: es :=
      prefix_of_prefix_length_le ( take_prefix _ _) hes (by omega)
    exact ((plaintexts_initial hprefix).trans hreported).trans (prefix_append _ _)

end Reports

end AeadWriteState

/-!
## A reader on any bytes
-/

namespace AeadReadState

/-- A reader that has opened so many frames: either it has not got its stream nonce, or its nonce
counts from it, and once a frame was opened the stream nonce is the writer's. -/
structure Good (n0 : List Byte) (k : Nat) (s : AeadReadState) : Prop where
  err : s.err = false
  tidy : s.readLen = 0 ∨ s.filled.length ≤ s.readLen
  start : s.headerRead = false -> k = 0
  counts : s.headerRead = true -> exists n, s.streamNonce = some n ∧ n.length = n0.length ∧
    s.nonce = nonceAt n k ∧ ofBeBytes n + k < 256 ^ n0.length ∧ (k ≠ 0 -> n = n0)

theorem Good.range {n0 : List Byte} {k : Nat} {s : AeadReadState} (h : Good n0 k s) :
    ofBeBytes n0 + k < 256 ^ n0.length := by
  by_cases hzero : k = 0
  · rw [hzero]
    exact ofBeBytes_lt n0
  · cases hheader : s.headerRead with
    | false => exact absurd (h.start hheader) hzero
    | true =>
      obtain ⟨n, _, _, _, hless, hsame⟩ := h.counts hheader
      rw [hsame hzero] at hless
      exact hless

/-- What a read of a given length may do on any source. -/
inductive AnyExact (s : AeadReadState) (len : Nat) :
    Outcome (List Byte) × AeadReadState × Source -> Prop
  | done {got : List Byte} {source : Source} (hlength : got.length = len) :
      AnyExact s len (.ready got, { s with readLen := 0, filled := got }, source)
  | pending {filled : List Byte} {source : Source} (hlength : filled.length ≤ len) :
      AnyExact s len (.pending, { s with readLen := len, filled := filled }, source)
  | failed {filled : List Byte} {source : Source} {e : IoError} (hlength : filled.length ≤ len) :
      AnyExact s len (.failed e, { s with readLen := len, filled := filled }, source)

theorem readLoop_length {len fuel : Nat} {source : Source} {filled : List Byte}
    (h : filled.length ≤ len) :
    (readLoop len fuel source filled).2.1.length ≤ len ∧
      ((readLoop len fuel source filled).1 = .ready () ->
        (readLoop len fuel source filled).2.1.length = len) := by
  induction fuel generalizing source filled with
  | zero => exact ⟨h, fun hready => Outcome.noConfusion rfl (heq_of_eq hready)⟩
  | succ fuel ih =>
    rw [readLoop]
    by_cases hall : len ≤ filled.length
    · rw [if_pos hall]
      exact ⟨h, fun _ => Nat.le_antisymm h hall⟩
    · rw [if_neg hall]
      cases hread : source.pollRead (len - filled.length) with
      | mk outcome source' =>
        cases outcome with
        | pending => exact ⟨h, fun hready => Outcome.noConfusion rfl (heq_of_eq hready)⟩
        | failed e => exact ⟨h, fun hready => Outcome.noConfusion rfl (heq_of_eq hready)⟩
        | ready got =>
          obtain ⟨_, hfits⟩ := Source.pollRead_ready hread
          dsimp only
          split
          · exact ⟨h, fun hready => Outcome.noConfusion rfl (heq_of_eq hready)⟩
          · apply ih
            rw [length_append]
            omega

theorem pollReadExact_any {s : AeadReadState} {source : Source} {len : Nat}
    (htidy : s.readLen = 0 ∨ s.filled.length ≤ s.readLen) (hlen : 0 < len) :
    AnyExact s len (pollReadExact s source len) := by
  have hresumed : (s.resumed len).length ≤ len := by
    unfold resumed
    split
    · rename_i hsame
      rcases htidy with hzero | hfilled
      · omega
      · rw [← hsame]
        exact hfilled
    · exact Nat.zero_le len
  obtain ⟨hle, hready⟩ := @readLoop_length len (len + 1) source _ hresumed
  rw [pollReadExact]
  generalize readLoop len (len + 1) source (s.resumed len) = answer at hle hready
  obtain ⟨outcome, filled, source'⟩ := answer
  cases outcome with
  | ready _ => exact .done (hready rfl)
  | pending => exact .pending hle
  | failed e => exact .failed hle

/-- What the reading of a frame may do on any source. -/
inductive AnyFrame (n0 : List Byte) (log : List Sealed) (k : Nat) (buf : List Byte) (pos : Nat) :
    Outcome Bool × AeadReadState × Source -> Prop
  | pending {s : AeadReadState} {source : Source} (hgood : Good n0 k s)
      (hbuf : s.buf = buf ∧ s.bufPos = pos) : AnyFrame n0 log k buf pos (.pending, s, source)
  | eof {s : AeadReadState} {source : Source} (hgood : Good n0 k s)
      (hbuf : s.buf = buf ∧ s.bufPos = pos) : AnyFrame n0 log k buf pos (.ready false, s, source)
  | frame {s : AeadReadState} {source : Source} {e : Sealed} (hlog : log[k]? = some e)
      (hgood : Good n0 (k + 1) s) (hbuf : s.buf = e.plaintext ∧ s.bufPos = 0) :
      AnyFrame n0 log k buf pos (.ready true, s, source)
  | failed {s : AeadReadState} {source : Source} {e : IoError} :
      AnyFrame n0 log k buf pos (.failed e, s, source)

section Any

variable {cipher : AeadCipher} {algorithm : AeadAlgorithm} {n0 : List Byte} {log : List Sealed}
  {k : Nat} {s : AeadReadState}

/-- The nonces of the log, and few enough of them to be different. -/
structure Numbers (n0 : List Byte) (log : List Sealed) : Prop where
  entries : forall i e, log[i]? = some e ->
    e.nonce = nonceAt n0 i ∧ exists header, e.aad = n0 ++ header
  short : log.length < 256 ^ n0.length

theorem opened_in_turn (hnumbers : Numbers n0 log) (hideal : cipher.Ideal log)
    {n header ciphertext plaintext : List Byte} (hlength : n.length = n0.length)
    (hrange : ofBeBytes n + k < 256 ^ n0.length)
    (hopens : cipher.decrypt (nonceAt n k) ciphertext (n ++ header) = .ok plaintext) :
    n = n0 ∧ exists e, log[k]? = some e ∧ e.plaintext = plaintext := by
  obtain ⟨e, hmem, hnonce, haad, _, hplain⟩ := hideal _ _ _ _ hopens
  obtain ⟨i, hi⟩ := List.getElem?_of_mem hmem
  obtain ⟨hnumber, header', haad'⟩ := hnumbers.entries i e hi
  have hsame : n = n0 := by
    rw [haad'] at haad
    exact (append_inj haad hlength.symm).1.symm
  refine ⟨hsame, e, ?_, hplain⟩
  rw [hsame] at hrange hnonce
  have hvalue := congrArg ofBeBytes (hnumber.symm.trans hnonce)
  rw [ofBeBytes_nonceAt, ofBeBytes_nonceAt, Nat.mod_eq_of_lt hrange] at hvalue
  obtain ⟨hlt, _⟩ := List.getElem?_eq_some_iff.mp hi
  have hshort := hnumbers.short
  have hturn : i = k := by
    by_cases hwraps : ofBeBytes n0 + i < 256 ^ n0.length
    · rw [Nat.mod_eq_of_lt hwraps] at hvalue
      omega
    · rw [Nat.mod_eq_sub_mod (Nat.not_lt.mp hwraps), Nat.mod_eq_of_lt (by omega)] at hvalue
      omega
  rw [← hturn]
  exact hi

/-- What the opening of a frame may do. -/
inductive AnyOpened (n0 : List Byte) (log : List Sealed) (k : Nat) :
    Except IoError Unit × AeadReadState -> Prop
  | failed {s : AeadReadState} {e : IoError} : AnyOpened n0 log k (.error e, s)
  | opened {s : AeadReadState} {e : Sealed} (hlog : log[k]? = some e) (hgood : Good n0 (k + 1) s)
      (hbuf : s.buf = e.plaintext ∧ s.bufPos = 0) : AnyOpened n0 log k (.ok (), s)

theorem openFrame_any (hnumbers : Numbers n0 log) (hideal : cipher.Ideal log)
    (hgood : Good n0 k s) (hheader : s.headerRead = true) (ciphertext : List Byte) :
    AnyOpened n0 log k (openFrame cipher s ciphertext) := by
  obtain ⟨n, hstream, hlength, hnonce, hrange, hsame⟩ := hgood.counts hheader
  rw [openFrame, hstream, Option.getD_some]
  cases hopens : cipher.decrypt s.nonce ciphertext (n ++ s.headerBuf) with
  | error text => exact .failed
  | ok plaintext =>
    rw [hnonce] at hopens
    obtain ⟨hn, e, hentry, hplain⟩ := opened_in_turn hnumbers hideal hlength hrange hopens
    obtain ⟨hnext, hwraps⟩ := incrementNonce_nonceAt n k
    rw [← hnonce] at hnext hwraps
    dsimp only
    split
    · exact .failed
    · rename_i hwrap
      have hless : (ofBeBytes n + k) % 256 ^ n.length + 1 ≠ 256 ^ n.length :=
        fun hlast => hwrap (hwraps.mpr hlast)
      rw [hlength, Nat.mod_eq_of_lt hrange] at hless
      refine .opened hentry ⟨hgood.err, hgood.tidy, ?_, ?_⟩ ⟨hplain.symm, rfl⟩
      · intro hfalse
        rw [show s.headerRead = false from hfalse] at hheader
        cases hheader
      · intro _
        exact ⟨n, rfl, hlength, hnext, by omega, fun _ => hn⟩

theorem Good.kept {len : Nat} {filled : List Byte} (h : Good n0 k s) (hlength : filled.length ≤ len) :
    Good n0 k { s with readLen := len, filled := filled } :=
  ⟨h.err, .inr hlength, h.start, h.counts⟩

theorem Good.fresh {filled : List Byte} (h : Good n0 k s) :
    Good n0 k { s with readLen := 0, filled := filled } :=
  ⟨h.err, .inl rfl, h.start, h.counts⟩

theorem readCiphertext_any (hnumbers : Numbers n0 log) (hideal : cipher.Ideal log)
    (hgood : Good n0 k s) (hheader : s.headerRead = true) (source : Source) :
    AnyFrame n0 log k s.buf s.bufPos (readCiphertext cipher algorithm s source) := by
  rw [readCiphertext]
  split
  · exact .failed
  · split
    · exact .failed
    · rename_i hlong
      split
      · exact .failed
      · have hlen : 0 < ofBeBytes s.headerBuf :=
          Nat.lt_of_lt_of_le (Nat.succ_pos 15) (Nat.not_lt.mp hlong)
        have hexact := @pollReadExact_any s source _ hgood.tidy hlen
        generalize pollReadExact s source (ofBeBytes s.headerBuf) = answer at hexact
        cases hexact with
        | pending hlength => exact .pending (hgood.kept hlength) ⟨rfl, rfl⟩
        | failed hlength => exact .failed
        | done hlength =>
          rename_i got source'
          have hopened := @openFrame_any cipher n0 log k { s with readLen := 0, filled := got }
            hnumbers hideal hgood.fresh hheader got
          dsimp only
          generalize openFrame cipher { s with readLen := 0, filled := got } got = answer
            at hopened
          cases hopened with
          | failed => exact .failed
          | opened hlog hgood' hbuf => exact .frame hlog hgood' hbuf

theorem readHeader_any (hnumbers : Numbers n0 log) (hideal : cipher.Ideal log)
    (hgood : Good n0 k s) (hheader : s.headerRead = true) (source : Source) :
    AnyFrame n0 log k s.buf s.bufPos (readHeader cipher algorithm s source) := by
  rw [readHeader]
  split
  · exact readCiphertext_any hnumbers hideal hgood hheader source
  · have hexact := @pollReadExact_any s source aeadFrameHeaderSize hgood.tidy (Nat.succ_pos 3)
    generalize pollReadExact s source aeadFrameHeaderSize = answer at hexact
    cases hexact with
    | pending hlength => exact .pending (hgood.kept hlength) ⟨rfl, rfl⟩
    | failed hlength =>
      dsimp only
      split
      · exact .eof (hgood.kept hlength) ⟨rfl, rfl⟩
      · exact .failed
    | done hlength =>
      rename_i got source'
      have hready : Good n0 k { s with
          readLen := 0
          filled := got
          headerBuf := got
          headerHave := true } := ⟨hgood.err, .inl rfl, hgood.start, hgood.counts⟩
      exact readCiphertext_any hnumbers hideal hready hheader source'

theorem pollReadFrame_any (hsize : n0.length = algorithm.nonceSize) (hnumbers : Numbers n0 log)
    (hideal : cipher.Ideal log) (hgood : Good n0 k s) (source : Source) :
    AnyFrame n0 log k s.buf s.bufPos (pollReadFrame cipher algorithm s source) := by
  rw [pollReadFrame]
  split
  · rename_i hheader
    exact readHeader_any hnumbers hideal hgood hheader source
  · rename_i hheader
    have hzero := hgood.start (Bool.eq_false_iff.mpr hheader)
    have hpos : 0 < algorithm.nonceSize := by
      cases algorithm with
      | aes256Gcm => decide
      | xchacha20Poly1305 => decide
    have hexact := @pollReadExact_any s source algorithm.nonceSize hgood.tidy hpos
    generalize pollReadExact s source algorithm.nonceSize = answer at hexact
    cases hexact with
    | pending hlength => exact .pending (hgood.kept hlength) ⟨rfl, rfl⟩
    | failed hlength => exact .failed
    | done hlength =>
      rename_i got source'
      have hready : Good n0 k { s with
          readLen := 0
          filled := got
          nonce := got
          streamNonce := some got
          headerRead := true } := by
        refine ⟨hgood.err, .inl rfl, Bool.noConfusion, fun _ => ?_⟩
        refine ⟨got, rfl, hlength.trans hsize.symm, ?_, ?_, fun h => absurd hzero h⟩
        · rw [hzero, nonceAt_zero]
        · rw [hzero, hsize, ← hlength]
          exact ofBeBytes_lt got
      exact readHeader_any hnumbers hideal hready rfl source'

/-- All that was delivered, also after an end of the stream, is a part of the frames that the
reader has opened. -/
def Safe (n0 : List Byte) (log : List Sealed) (r : Reading AeadReadState) : Prop :=
  r.Ordered ∧ exists k, ofBeBytes n0 + k < 256 ^ n0.length ∧
    r.all <+: plaintexts (log.take k) ∧
    (r.state.err = true ∨ Good n0 k r.state ∧
      r.all ++ r.state.buf.drop r.state.bufPos = plaintexts (log.take k))

theorem plaintexts_take_succ {e : Sealed} (h : log[k]? = some e) :
    plaintexts (log.take (k + 1)) = plaintexts (log.take k) ++ e.plaintext := by
  rw [take_add_one, h, Option.toList_some, plaintexts_snoc]

theorem pollRead_err (h : s.err = true) (source : Source) (cap : Nat) :
    pollRead cipher algorithm s source cap =
      (.failed ⟨.brokenPipe, "previous read error"⟩, s, source) := by
  rw [pollRead, h, if_pos rfl]

theorem serve_drop (cap : Nat) :
    (s.serve cap).1 ++ (s.serve cap).2.buf.drop (s.serve cap).2.bufPos = s.buf.drop s.bufPos := by
  rw [serve]
  split
  · rename_i hall
    rw [drop_nil, append_nil]
    apply take_of_length_le
    rw [length_drop]
    omega
  · rw [← drop_drop, take_append_drop]

theorem Good.serve (h : Good n0 k s) (cap : Nat) : Good n0 k (s.serve cap).2 := by
  obtain ⟨herr, htidy, hstart, hcounts⟩ := h
  rw [AeadReadState.serve]
  split
  · exact ⟨herr, htidy, hstart, hcounts⟩
  · exact ⟨herr, htidy, hstart, hcounts⟩

variable {r : Reading AeadReadState} {st : AeadReadState}

theorem safe_serve {cap : Nat} {source : Source}
    (hordered : r.Ordered)
    (hpoll : pollRead cipher algorithm r.state r.source cap =
      (.ready (st.serve cap).1, (st.serve cap).2, source))
    (hgood : Good n0 k st)
    (htotal : r.all ++ st.buf.drop st.bufPos = plaintexts (log.take k)) :
    Safe n0 log ((aeadReader cipher algorithm).step r cap) := by
  obtain ⟨hstate, _, hall, hordered'⟩ :=
    @Reader.step_fields _ (aeadReader cipher algorithm) r cap _ _ _ hpoll hordered
  have hrest : ((aeadReader cipher algorithm).step r cap).all ++
      (st.serve cap).2.buf.drop (st.serve cap).2.bufPos = plaintexts (log.take k) := by
    rw [hall, Outcome.read, append_assoc, serve_drop, htotal]
  refine ⟨hordered', k, hgood.range, ⟨_, hrest⟩, .inr ?_⟩
  rw [hstate]
  exact ⟨hgood.serve cap, hrest⟩

theorem safe_quiet {cap : Nat} {o : Outcome (List Byte)} {source : Source} (hordered : r.Ordered)
    (hpoll : pollRead cipher algorithm r.state r.source cap = (o, st, source)) (ho : o.read = [])
    (hrange : ofBeBytes n0 + k < 256 ^ n0.length) (hall : r.all <+: plaintexts (log.take k))
    (hnext : st.err = true ∨ Good n0 k st ∧
      r.all ++ st.buf.drop st.bufPos = plaintexts (log.take k)) :
    Safe n0 log ((aeadReader cipher algorithm).step r cap) := by
  obtain ⟨hstate, _, hsame, hordered'⟩ :=
    @Reader.step_fields _ (aeadReader cipher algorithm) r cap _ _ _ hpoll hordered
  rw [ho, append_nil] at hsame
  refine ⟨hordered', k, hrange, ?_, ?_⟩
  · rw [hsame]
    exact hall
  · rw [hstate, hsame]
    exact hnext

theorem step_safe (hsize : n0.length = algorithm.nonceSize) (hnumbers : Numbers n0 log)
    (hideal : cipher.Ideal log) (r : Reading AeadReadState) (cap : Nat) (h : Safe n0 log r) :
    Safe n0 log ((aeadReader cipher algorithm).step r cap) := by
  obtain ⟨hordered, k, hrange, hall, herr | ⟨hgood, htotal⟩⟩ := h
  · exact safe_quiet hordered (pollRead_err herr r.source cap) rfl hrange hall (.inl herr)
  · have hpoll : pollRead cipher algorithm r.state r.source cap =
        pollRead cipher algorithm r.state r.source cap := rfl
    nth_rewrite 2 [pollRead] at hpoll
    rw [hgood.err, if_neg Bool.false_ne_true] at hpoll
    by_cases hcap : cap = 0
    · rw [if_pos hcap] at hpoll
      exact safe_quiet hordered hpoll rfl hrange hall (.inr ⟨hgood, htotal⟩)
    · rw [if_neg hcap] at hpoll
      by_cases hbuf : r.state.bufPos < r.state.buf.length
      · rw [if_pos hbuf] at hpoll
        exact safe_serve hordered hpoll hgood htotal
      · rw [if_neg hbuf] at hpoll
        have hserved : r.state.buf.drop r.state.bufPos = [] :=
          drop_eq_nil_of_le (Nat.not_lt.mp hbuf)
        have hframe := @pollReadFrame_any cipher algorithm n0 log k r.state hsize hnumbers hideal
          hgood r.source
        generalize pollReadFrame cipher algorithm r.state r.source = answer at hframe hpoll
        cases hframe with
        | pending hgood' hbuf' =>
          refine safe_quiet hordered hpoll rfl hrange hall (.inr ⟨hgood', ?_⟩)
          rw [hbuf'.1, hbuf'.2, htotal]
        | eof hgood' hbuf' =>
          refine safe_quiet hordered hpoll rfl hrange hall (.inr ⟨hgood', ?_⟩)
          rw [hbuf'.1, hbuf'.2, htotal]
        | failed => exact safe_quiet hordered hpoll rfl hrange hall (.inl rfl)
        | frame hlog hgood' hbuf' =>
          refine safe_serve hordered hpoll hgood' ?_
          rw [hserved, append_nil] at htotal
          rw [hbuf'.1, hbuf'.2, drop_zero, plaintexts_take_succ hlog, htotal]

theorem safe_start (script : List ReadEvent) :
    Safe n0 log (Reading.start (new algorithm) script) := by
  refine ⟨fun _ => rfl, 0, ofBeBytes_lt n0, nil_prefix, .inr ⟨⟨rfl, .inl rfl, fun _ => rfl,
    Bool.noConfusion⟩, rfl⟩⟩

theorem failed_run (hordered : r.Ordered) (herr : r.state.err = true) (caps : List Nat) :
    (Run.run (aeadReader cipher algorithm).step r caps).all = r.all := by
  induction caps generalizing r with
  | nil => rfl
  | cons cap caps ih =>
    obtain ⟨hstate, _, hall, hordered'⟩ := @Reader.step_fields _ (aeadReader cipher algorithm) r
      cap _ _ _ (pollRead_err herr r.source cap) hordered
    rw [Outcome.read, append_nil] at hall
    rw [Run.run_cons, ih hordered' (by rw [hstate]; exact herr), hall]

theorem failed_err {source source' : Source} {cap : Nat} {e : IoError}
    (h : pollRead cipher algorithm s source cap = (.failed e, st, source')) : st.err = true := by
  unfold pollRead at h
  split at h
  · rename_i herr
    cases h
    exact herr
  · split at h
    · cases h
    · split at h
      · cases h
      · split at h
        · cases h
        · cases h
        · cases h
          rfl
        · cases h

end Any

/-- Whatever bytes a reader gets, all it delivers is a prefix of what the writer has sealed, and
for a writer whose caller repeats pending writes a prefix of what was reported and of the pending
chunk.  After an error nothing is delivered.  The writer's counter has 64 bits. -/
theorem delivers_only_sealed {sealing opening : AeadCipher} {algorithm : AeadAlgorithm}
    {n0 : List Byte} (hsize : n0.length = algorithm.nonceSize) {wscript : List WriteEvent}
    {calls : List Call} {w : Session AeadWriteState}
    (hw : w = Run.run (AeadWriteState.aeadWriter sealing algorithm).step
      (Session.start (AeadWriteState.new n0) wscript) calls)
    (hcount : w.state.frameCount < 2 ^ 64) (hideal : opening.Ideal w.state.sealed)
    {script : List ReadEvent} {caps : List Nat} {r : Reading AeadReadState}
    (hr : r = Run.run (aeadReader opening algorithm).step (Reading.start (new algorithm) script)
      caps) :
    r.all <+: plaintexts w.state.sealed ∧
      (sealing.Works algorithm -> Sink.Sound ⟨[], wscript⟩ ->
        Run.Along (AeadWriteState.aeadWriter sealing algorithm).step Session.Repolls
          (Session.start (AeadWriteState.new n0) wscript) calls ->
        r.all <+: w.reported ++ w.pendingBytes.take defaultMaxPayloadSize) ∧
      forall cap e st source,
        pollRead opening algorithm r.state r.source cap = (.failed e, st, source) ->
        forall later, (Run.run (aeadReader opening algorithm).step r (cap :: later)).all = r.all := by
  have hnumbered : AeadWriteState.Numbered n0 w.state := by
    rw [hw]
    exact @Run.run_preserves _ _ _ (fun w => AeadWriteState.Numbered n0 w.state)
      (fun s call h => AeadWriteState.numbered_kept.step s call h)
      (Session.start (AeadWriteState.new n0) wscript) calls (AeadWriteState.numbered_new n0)
  have hnumbers : Numbers n0 w.state.sealed := ⟨hnumbered.log, hnumbered.length_lt hsize hcount⟩
  have hsafe : Safe n0 w.state.sealed r := by
    rw [hr]
    exact Run.run_preserves (step_safe hsize hnumbers hideal) caps (safe_start script)
  obtain ⟨hordered, k, hrange, hall, _⟩ := hsafe
  refine ⟨hall.trans (AeadWriteState.plaintexts_initial ( take_prefix _ _)), ?_, ?_⟩
  · intro hworks hsink hcalls
    have hcovers := Run.run_invariant (AeadWriteState.step_covers hworks hsize)
      (⟨hsink, .inl (AeadWriteState.phase_start wscript)⟩ :
        (Session.start (AeadWriteState.new n0) wscript).sink.Sound ∧ _) hcalls
    rw [← hw] at hcovers
    exact hall.trans (AeadWriteState.reported_of_covers hcovers.2 hrange)
  · intro cap e st source hpoll later
    obtain ⟨hstate, _, hsame, hordered'⟩ :=
      @Reader.step_fields _ (aeadReader opening algorithm) r cap _ _ _ hpoll hordered
    rw [Outcome.read, append_nil] at hsame
    rw [Run.run_cons, failed_run hordered' (by rw [hstate]; exact failed_err hpoll), hsame]

def logCipher (log : List Sealed) : AeadCipher where
  encrypt := tagCipher.encrypt
  decrypt nonce ciphertext aad :=
    match log.find? fun e => e.nonce = nonce ∧ e.aad = aad ∧ e.ciphertext = ciphertext with
    | some e => .ok e.plaintext
    | none => .error "aead::Error"

theorem logCipher_ideal (log : List Sealed) : (logCipher log).Ideal log := by
  intro nonce ciphertext aad plaintext hopens
  change (match log.find? _ with
    | some e => Except.ok e.plaintext
    | none => Except.error "aead::Error") = Except.ok plaintext at hopens
  split at hopens
  · rename_i e hfind
    cases hopens
    have hsome := find?_some hfind
    rw [decide_eq_true_iff] at hsome
    exact ⟨e, mem_of_find?_eq_some hfind, hsome.1, hsome.2.1, hsome.2.2, rfl⟩
  · cases hopens

def forgedSource : List ReadEvent :=
  [.chunk (sampleNonce ++ [0, 0, 0, 18, 1, 2, 7] ++ replicate 15 0),
    .chunk ([0, 0, 0, 17, 8, 3] ++ replicate 15 0)]

theorem delivers_only_sealed_sample :
    (Run.run (aeadReader (logCipher sampleSession.state.sealed) .aes256Gcm).step
        (Reading.start (new .aes256Gcm) forgedSource) [8, 8, 8]).all <+:
      sampleSession.reported ++ sampleSession.pendingBytes.take defaultMaxPayloadSize ∧
    (Run.run (aeadReader (logCipher sampleSession.state.sealed) .aes256Gcm).step
        (Reading.start (new .aes256Gcm) forgedSource) [8, 8, 8]).all = [1, 2] := by
  have hsealed := delivers_only_sealed
    (show sampleNonce.length = AeadAlgorithm.nonceSize .aes256Gcm by decide)
    (show sampleSession = _ from rfl) (by decide +kernel) (logCipher_ideal _)
    (show Run.run (aeadReader (logCipher sampleSession.state.sealed) .aes256Gcm).step
        (Reading.start (new .aes256Gcm) forgedSource) [8, 8, 8] = _ from rfl)
  exact ⟨hsealed.2.1 (tagCipher_works _) (by decide) (by decide +kernel), by decide +kernel⟩

end AeadReadState

end Stream
end FrpRs
