import FrpRs.Stream.AeadReader

/-!
# Round trips of AEAD streams

What a write session has reported is what a peer delivers of the bytes that were accepted, also
if they are cut anywhere.  No nonce is used for two frames.

A write whose frame has the last nonce fails, but nothing stops the writes after it.  They are
excluded here.
-/

namespace FrpRs
namespace Stream

open List Bytes Poll

section Cuts

variable {cipher : AeadCipher} {algorithm : AeadAlgorithm} {n0 : List Byte}

theorem frames_cons (e : Sealed) (es : List Sealed) :
    frames algorithm (e :: es) = e.frame algorithm ++ frames algorithm es :=
  flatMap_cons

theorem frame_too_long {e : Sealed} {more p : List Byte}
    (hshort : p.length < (e.frame algorithm).length) : ¬ e.frame algorithm ++ more <+: p := by
  intro h
  have hlength := h.length_le
  rw [length_append] at hlength
  omega

/-- The whole frames in the first bytes of a stream: all that fit and do not have the last
nonce. -/
structure Whole (algorithm : AeadAlgorithm) (n0 : List Byte) (k : Nat) (all : List Sealed)
    (p : List Byte) (es : List Sealed) (clean : Bool) : Prop where
  initial : es <+: all
  inside : frames algorithm es <+: p
  clean : clean = true ↔ p = frames algorithm es
  maximal : forall fs, fs <+: all -> frames algorithm fs <+: p ->
    ofBeBytes n0 + k + fs.length < 256 ^ n0.length -> fs <+: es

/-- Wherever the frames are cut, some whole frames are there. -/
theorem follows_of_prefix {k : Nat} {all : List Sealed} {p : List Byte}
    (hlog : Logged cipher algorithm n0 k all)
    (hrange : ofBeBytes n0 + k + all.length ≤ 256 ^ n0.length) (hp : p <+: frames algorithm all) :
    exists es clean, Follows cipher algorithm n0 k p es clean ∧
      Whole algorithm n0 k all p es clean := by
  induction all generalizing k p with
  | nil =>
    have hnil : p = [] := prefix_nil.mp hp
    rw [hnil]
    refine ⟨[], true, .done k, prefix_rfl, nil_prefix, ⟨fun _ => rfl, fun _ => rfl⟩, ?_⟩
    intro fs hfs _ _
    exact hfs
  | cons e all ih =>
    obtain ⟨hvalid, hlater⟩ := hlog
    rw [frames_cons] at hp
    rw [length_cons] at hrange
    have hpos := @length_frame algorithm e
    by_cases hcut : p.length < (e.frame algorithm).length
    · have hmaximal : forall fs : List Sealed, fs <+: e :: all -> frames algorithm fs <+: p ->
          ofBeBytes n0 + k + fs.length < 256 ^ n0.length -> fs <+: [] := by
        intro fs hfs hinside _
        cases fs with
        | nil => exact prefix_rfl
        | cons f fs =>
          rw [(cons_prefix_cons.mp hfs).1, frames_cons] at hinside
          exact absurd hinside (frame_too_long hcut)
      by_cases hnil : p = []
      · refine ⟨[], true, ?_, nil_prefix, nil_prefix, ⟨fun _ => hnil, fun _ => rfl⟩,
          hmaximal⟩
        rw [hnil]
        exact .done k
      · obtain ⟨rest, hrest⟩ :=
          prefix_of_prefix_length_le hp (prefix_append _ _) (Nat.le_of_lt hcut)
        refine ⟨[], false, .cut hvalid hrest hnil ?_, nil_prefix, nil_prefix, ?_, hmaximal⟩
        · intro hempty
          rw [hempty, append_nil] at hrest
          rw [hrest] at hcut
          exact Nat.lt_irrefl _ hcut
        · exact ⟨fun h => absurd h Bool.false_ne_true, fun h => absurd h hnil⟩
    · obtain ⟨p', hp'⟩ :=
        prefix_of_prefix_length_le (prefix_append _ _) hp (Nat.not_lt.mp hcut)
      rw [← hp', prefix_append_right_inj] at hp
      rw [← hp']
      by_cases hlast : ofBeBytes n0 + k + 1 = 256 ^ n0.length
      · have hall : all = [] := length_eq_zero_iff.mp (by omega)
        rw [hall] at hp
        rw [prefix_nil.mp hp, append_nil]
        refine ⟨[], false, .last hvalid hlast, nil_prefix, nil_prefix, ?_, ?_⟩
        · refine ⟨fun h => absurd h Bool.false_ne_true, fun h => ?_⟩
          rw [h] at hpos
          exact absurd hpos (Nat.lt_irrefl 0)
        · intro fs _ _ hless
          cases fs with
          | nil => exact prefix_rfl
          | cons f fs =>
            rw [length_cons] at hless
            omega
      · obtain ⟨es, clean, hfollows, hwhole⟩ := ih hlater (by omega) hp
        refine ⟨e :: es, clean, .frame hvalid (by omega) hfollows,
          cons_prefix_cons.mpr ⟨rfl, hwhole.initial⟩, ?_, ?_, ?_⟩
        · rw [frames_cons, prefix_append_right_inj]
          exact hwhole.inside
        · rw [frames_cons, append_cancel_left_eq]
          exact hwhole.clean
        · intro fs hfs hinside hless
          cases fs with
          | nil => exact nil_prefix
          | cons f fs =>
            obtain ⟨hsame, htail⟩ := cons_prefix_cons.mp hfs
            rw [hsame, frames_cons, prefix_append_right_inj] at hinside
            rw [length_cons] at hless
            exact cons_prefix_cons.mpr
              ⟨hsame, hwhole.maximal fs htail hinside (by omega)⟩

theorem Follows.range {k : Nat} {bytes : List Byte} {es : List Sealed} {clean : Bool}
    (h : Follows cipher algorithm n0 k bytes es clean)
    (hk : ofBeBytes n0 + k < 256 ^ n0.length) :
    ofBeBytes n0 + k + es.length < 256 ^ n0.length := by
  induction h with
  | done k => exact hk
  | cut hvalid hframe hbytes hrest => exact hk
  | last hvalid hlast => exact hk
  | frame hvalid hrange hnext ih =>
    rw [length_cons]
    omega

theorem nonces_nodup {k : Nat} {es : List Sealed} (hlog : Logged cipher algorithm n0 k es)
    (hrange : ofBeBytes n0 + k + es.length ≤ 256 ^ n0.length) :
    (es.map Sealed.nonce).Nodup := by
  have hlater : forall (j i : Nat) (fs : List Sealed), Logged cipher algorithm n0 j fs -> i < j ->
      ofBeBytes n0 + j + fs.length ≤ 256 ^ n0.length -> nonceAt n0 i ∉ fs.map Sealed.nonce := by
    intro j i fs
    induction fs generalizing j with
    | nil => exact fun _ _ _ hmem => absurd hmem not_mem_nil
    | cons f fs ih =>
      intro hlog hless hrange hmem
      rw [length_cons] at hrange
      rcases mem_cons.mp hmem with heq | hmem
      · rw [hlog.1.nonce] at heq
        have hsame := nonceAt_inj (by omega) (by omega) heq
        omega
      · exact ih (j + 1) hlog.2 (by omega) (by omega) hmem
  induction es generalizing k with
  | nil => exact nodup_nil
  | cons e es ih =>
    rw [length_cons] at hrange
    refine nodup_cons.mpr ⟨?_, ih hlog.2 (by omega)⟩
    rw [hlog.1.nonce]
    exact hlater (k + 1) k es hlog.2 (Nat.lt_succ_self k) (by omega)

end Cuts

/-!
## What a session owes its peer
-/

namespace AeadWriteState

/-- The frames of a session, of which the reported ones are out. -/
structure Sent (cipher : AeadCipher) (algorithm : AeadAlgorithm) (n0 : List Byte)
    (s : Session AeadWriteState) : Prop where
  log : Logged cipher algorithm n0 0 s.state.sealed
  range : ofBeBytes n0 + s.state.sealed.length ≤ 256 ^ n0.length
  accepted : s.sink.accepted <+: wire algorithm n0 s.state.sealed
  owed : forall es, es <+: s.state.sealed -> ofBeBytes n0 + es.length < 256 ^ n0.length ->
    plaintexts es <+: s.reported ++ s.pendingBytes.take defaultMaxPayloadSize
  reported : exists es, es <+: s.state.sealed ∧ ofBeBytes n0 + es.length < 256 ^ n0.length ∧
    wire algorithm n0 es <+: s.sink.accepted ∧ plaintexts es = s.reported

section Phases

variable {cipher : AeadCipher} {algorithm : AeadAlgorithm} {n0 : List Byte}
  {s : Session AeadWriteState}

theorem plaintexts_initial {es fs : List Sealed} (h : es <+: fs) : plaintexts es <+: plaintexts fs := by
  obtain ⟨rest, hrest⟩ := h
  rw [← hrest, plaintexts, plaintexts, flatMap_append]
  exact prefix_append _ _

theorem sent_ahead {es : List Sealed} {e : Sealed} {pre b : List Byte}
    (hlog : Logged cipher algorithm n0 0 (es ++ [e])) (hcounts : Counts n0 (es ++ [e]) s.state)
    (hrange : ofBeBytes n0 + (es ++ [e]).length < 256 ^ n0.length)
    (hsent : s.sink.accepted = wire algorithm n0 es ++ pre)
    (hpre : pre <+: piece algorithm n0 es e) (hflight : s.inFlight = some b)
    (hchunk : e.plaintext = b.take defaultMaxPayloadSize) (hreported : s.reported = plaintexts es) :
    Sent cipher algorithm n0 s := by
  have hsealed := hcounts.sealed
  have hless : ofBeBytes n0 + es.length < 256 ^ n0.length := by
    rw [length_append, length_singleton] at hrange
    omega
  refine ⟨?_, ?_, ?_, ?_, es, ?_, hless, ?_, hreported.symm⟩
  · rw [hsealed]
    exact hlog
  · rw [hsealed]
    exact Nat.le_of_lt hrange
  · rw [hsealed, hsent, wire_snoc, prefix_append_right_inj]
    exact hpre
  · intro fs hfs _
    rw [hsealed] at hfs
    rw [hreported, Session.pendingBytes, hflight, Option.getD_some, ← hchunk, ← plaintexts_snoc]
    exact plaintexts_initial hfs
  · rw [hsealed]
    exact prefix_append _ _
  · rw [hsent]
    exact prefix_append _ _

theorem Phase.sent (h : Phase cipher algorithm n0 s) : Sent cipher algorithm n0 s := by
  cases h with
  | idle hlog hcounts hrange hpending hpos hclaimed hsent hreported =>
    rename_i es
    have hsealed := hcounts.sealed
    refine ⟨?_, ?_, ?_, ?_, es, ?_, hrange, ?_, hreported.symm⟩
    · rw [hsealed]
      exact hlog
    · rw [hsealed]
      exact Nat.le_of_lt hrange
    · rw [hsealed]
      exact initial_of_eq hsent
    · intro fs hfs _
      rw [hsealed] at hfs
      rw [hreported]
      exact (plaintexts_initial hfs).trans (prefix_append _ _)
    · exact ⟨[], (append_nil es).trans hsealed.symm⟩
    · exact initial_of_eq hsent.symm
  | openFrame hlog hcounts hrange herr hclaimed hpos hsent hrest hflight hchunk hreported =>
    exact sent_ahead hlog hcounts hrange hsent ⟨_, hrest⟩ hflight hchunk hreported
  | claimed hlog hcounts hrange herr hclaimed hpending hpos hsent hflight hchunk hreported =>
    rw [wire_snoc] at hsent
    exact sent_ahead hlog hcounts hrange hsent prefix_rfl hflight hchunk hreported
  | exhausted hlog hlast hnonce hstream hcount hsealed hpos hsent hrest hflight hreported =>
    rename_i es e pre
    refine ⟨?_, ?_, ?_, ?_, es, ?_, by omega, ?_, hreported.symm⟩
    · rw [hsealed]
      exact hlog
    · rw [hsealed, length_append, length_singleton]
      omega
    · rw [hsealed, hsent, wire_snoc, prefix_append_right_inj]
      exact ⟨_, hrest⟩
    · intro fs hfs hless
      rw [hsealed] at hfs
      have hshort : fs.length ≤ es.length := by omega
      have hprefix := prefix_of_prefix_length_le hfs (prefix_append es [e]) hshort
      rw [hreported]
      exact (plaintexts_initial hprefix).trans (prefix_append _ _)
    · rw [hsealed]
      exact prefix_append _ _
    · rw [hsent]
      exact prefix_append _ _

theorem phase_start (script : List WriteEvent) :
    Phase cipher algorithm n0 (Session.start (new n0) script) := by
  refine @Phase.idle _ _ _ _ [] trivial ⟨rfl, (nonceAt_zero n0).symm, rfl, rfl, rfl⟩ ?_ rfl rfl rfl
    rfl rfl
  exact ofBeBytes_lt n0

theorem sent_of_clear (hworks : cipher.Works algorithm) (hsize : n0.length = algorithm.nonceSize)
    {script : List WriteEvent} (hscript : Sink.Sound ⟨[], script⟩) {calls : List Call}
    (hcalls : Run.Along (aeadWriter cipher algorithm).step Clear (Session.start (new n0) script)
      calls) :
    Sent cipher algorithm n0
      (Run.run (aeadWriter cipher algorithm).step (Session.start (new n0) script) calls) :=
  (Run.run_invariant (step_phase hworks hsize)
    (⟨hscript, phase_start script⟩ :
      (Session.start (new n0) script).sink.Sound ∧ Phase cipher algorithm n0 _) hcalls).2.sent

end Phases

end AeadWriteState

/-!
## Readings of a session
-/

namespace AeadReadState

/-- What a peer makes of the first bytes of a session.  It delivers, in order, what was reported
and perhaps the chunk whose write is still pending.  At the end these are the payloads of the
whole frames, except one under the last nonce, and all that was reported if nothing is cut off.
The end is clean exactly after a whole frame or the stream nonce.  Enough polls reach the end. -/
structure Delivers (algorithm : AeadAlgorithm) (n0 : List Byte) (s : Session AeadWriteState)
    (p : List Byte) (polls enough : Nat) (r : Reading AeadReadState) : Prop where
  inOrder : r.delivered <+: s.reported ++ s.pendingBytes.take defaultMaxPayloadSize
  ends : forall e, r.ending = some e -> exists es, es <+: s.state.sealed ∧
    r.delivered = plaintexts es ∧
    (es = [] ∨ n0 ++ frames algorithm es <+: p) ∧
    (forall fs, fs <+: s.state.sealed -> n0 ++ frames algorithm fs <+: p ->
      ofBeBytes n0 + fs.length < 256 ^ n0.length -> fs <+: es) ∧
    (e = .eof ↔ p = n0 ++ frames algorithm es)
  whole : p = s.sink.accepted -> r.ending.isSome = true -> s.reported <+: r.delivered
  enough : enough < polls -> r.ending.isSome = true

def enoughPolls (s : Session AeadWriteState) (script : List ReadEvent) : Nat :=
  Source.weight ⟨script⟩ + (s.reported.length + s.pendingBytes.length)

section Readings

variable {cipher : AeadCipher} {algorithm : AeadAlgorithm} {n0 : List Byte}

/-- What a peer owes at the start. -/
theorem reads_start (hsize : n0.length = algorithm.nonceSize) {s : Session AeadWriteState}
    (hsent : AeadWriteState.Sent cipher algorithm n0 s) {p : List Byte}
    (hp : p <+: s.sink.accepted) {script : List ReadEvent} (hscript : Source.Sound ⟨script⟩)
    (hbytes : Source.bytes ⟨script⟩ = p) :
    exists es clean, Reads cipher algorithm n0 clean (new algorithm) ⟨script⟩ (plaintexts es) ∧
      es <+: s.state.sealed ∧ ofBeBytes n0 + es.length < 256 ^ n0.length ∧
      (es = [] ∨ n0 ++ frames algorithm es <+: p) ∧
      (forall fs, fs <+: s.state.sealed -> n0 ++ frames algorithm fs <+: p ->
        ofBeBytes n0 + fs.length < 256 ^ n0.length -> fs <+: es) ∧
      (clean = true ↔ p = n0 ++ frames algorithm es) := by
  have hpos : 0 < algorithm.nonceSize := by
    cases algorithm with
    | aes256Gcm => decide
    | xchacha20Poly1305 => decide
  have hfresh : resumed (new algorithm) algorithm.nonceSize = [] := if_neg (Nat.ne_of_lt hpos)
  have hwire := hp.trans hsent.accepted
  by_cases hshort : p.length < algorithm.nonceSize
  · have hlong : forall fs, ¬ n0 ++ frames algorithm fs <+: p := by
      intro fs h
      have hlength := h.length_le
      rw [length_append] at hlength
      omega
    refine ⟨[], false, .short hscript rfl (Nat.le_refl 0) rfl rfl ?_ rfl, nil_prefix,
      ofBeBytes_lt n0, Or.inl rfl, fun fs _ h _ => absurd h (hlong fs), ?_⟩
    · rw [hfresh, hbytes]
      exact hshort
    · refine ⟨fun h => absurd h Bool.false_ne_true, fun h => ?_⟩
      rw [h] at hlong
      exact absurd prefix_rfl (hlong [])
  · have hsealed : s.state.sealed ≠ [] := by
      intro hnil
      rw [hnil, wire, if_pos rfl] at hwire
      rw [prefix_nil.mp hwire] at hshort
      exact hshort hpos
    rw [wire, if_neg hsealed] at hwire
    obtain ⟨p', hp'⟩ := prefix_of_prefix_length_le (prefix_append _ _) hwire
      (by rw [hsize]; exact Nat.not_lt.mp hshort)
    rw [← hp', prefix_append_right_inj] at hwire
    obtain ⟨es, clean, hfollows, hwhole⟩ := follows_of_prefix hsent.log hsent.range hwire
    refine ⟨es, clean, .nonce hscript rfl (Nat.le_refl 0) rfl rfl rfl ?_ ?_ hfollows rfl,
      hwhole.initial, ?_, ?_, ?_, ?_⟩
    · rw [hfresh]
      exact Nat.zero_le _
    · rw [hfresh, hbytes, hp']
      rfl
    · have hless := hfollows.range (ofBeBytes_lt n0)
      omega
    · refine Or.inr ?_
      rw [← hp', prefix_append_right_inj]
      exact hwhole.inside
    · intro fs hfs hinside hless
      rw [← hp', prefix_append_right_inj] at hinside
      exact hwhole.maximal fs hfs hinside hless
    · rw [← hp', append_cancel_left_eq]
      exact hwhole.clean

/-- A peer delivers what a session without writes after the last nonce has reported. -/
theorem delivers_sealed (hworks : cipher.Works algorithm) (hsize : n0.length = algorithm.nonceSize)
    {wscript : List WriteEvent} (hsink : Sink.Sound ⟨[], wscript⟩) {calls : List Call}
    (hcalls : Run.Along (AeadWriteState.aeadWriter cipher algorithm).step AeadWriteState.Clear
      (Session.start (AeadWriteState.new n0) wscript) calls)
    {s : Session AeadWriteState}
    (hs : s = Run.run (AeadWriteState.aeadWriter cipher algorithm).step
      (Session.start (AeadWriteState.new n0) wscript) calls) :
    (s.state.sealed.map Sealed.nonce).Nodup ∧
      forall p, p <+: s.sink.accepted -> forall script, Source.Sound ⟨script⟩ ->
        Source.bytes ⟨script⟩ = p -> forall caps : List Nat, (forall cap, cap ∈ caps -> 0 < cap) ->
        Delivers algorithm n0 s p caps.length (enoughPolls s script)
          (Run.run (aeadReader cipher algorithm).step (Reading.start (new algorithm) script)
            caps) := by
  have hsent := AeadWriteState.sent_of_clear hworks hsize hsink hcalls
  rw [← hs] at hsent
  refine ⟨nonces_nodup hsent.log hsent.range, ?_⟩
  intro p hp script hscript hbytes caps hcaps
  obtain ⟨es, clean, hreads, hinitial, hless, hinside, hmaximal, hclean⟩ :=
    reads_start hsize hsent hp hscript hbytes
  have hpolls : Run.Along (aeadReader cipher algorithm).step
      (Reading.Polls fun _ _ cap => 0 < cap) (Reading.start (new algorithm) script) caps :=
    Run.along_of_forall fun _ cap hmem _ => hcaps cap hmem
  have howes := (serves hsize clean).run hreads hpolls
  have howed := hsent.owed es hinitial hless
  generalize hr : Run.run (aeadReader cipher algorithm).step
    (Reading.start (new algorithm) script) caps = r at howes ⊢
  have hended : forall e, r.ending = some e -> r.delivered = plaintexts es ∧ Final clean e := by
    intro e hend
    rcases howes with ⟨hnone, _⟩ | ⟨e', hend', hfinal, htotal⟩
    · rw [hend] at hnone
      cases hnone
    · rw [hend] at hend'
      cases hend'
      exact ⟨htotal, hfinal⟩
  refine ⟨?_, ?_, ?_, ?_⟩
  · rcases howes with ⟨_, owed, htotal, _⟩ | ⟨_, _, _, htotal⟩
    · exact List.IsPrefix.trans ⟨owed, htotal⟩ howed
    · rw [htotal]
      exact howed
  · intro e hend
    obtain ⟨htotal, hfinal⟩ := hended e hend
    exact ⟨es, hinitial, htotal, hinside, hmaximal, hfinal.trans hclean⟩
  · intro hall hend
    obtain ⟨e, hend⟩ := Option.isSome_iff_exists.mp hend
    obtain ⟨fs, hfs, hless', hwire, hreported⟩ := hsent.reported
    rw [(hended e hend).1, ← hreported]
    apply AeadWriteState.plaintexts_initial
    by_cases hnil : fs = []
    · rw [hnil]
      exact nil_prefix
    · rw [wire, if_neg hnil, ← hall] at hwire
      exact hmaximal fs hfs hwire hless'
  · intro henough
    rw [← hr]
    apply (serves hsize clean).ends hreads hpolls
    have hlength := howed.length_le
    rw [length_append, length_take] at hlength
    rw [enoughPolls] at henough
    change Source.weight ⟨script⟩ + (plaintexts es).length < caps.length
    omega

end Readings

/-- A cipher that adds a tag of the nonce's last byte and fifteen zeros. -/
def tagCipher : AeadCipher where
  encrypt nonce plaintext _ := .ok (plaintext ++ (nonce.getLastD 0 :: replicate 15 0))
  decrypt nonce ciphertext _ :=
    if ciphertext.drop (ciphertext.length - 16) = nonce.getLastD 0 :: replicate 15 0 then
      .ok (ciphertext.take (ciphertext.length - 16))
    else .error "aead::Error"

theorem tagCipher_works (algorithm : AeadAlgorithm) : tagCipher.Works algorithm := by
  refine ⟨fun nonce plaintext aad _ _ => ⟨_, rfl, ?_, ?_⟩⟩
  · rw [length_append]
    rfl
  · have hlength : (plaintext ++ (nonce.getLastD 0 :: replicate 15 0)).length - 16 =
        plaintext.length := by
      rw [length_append]
      rfl
    change (if (plaintext ++ (nonce.getLastD 0 :: replicate 15 0)).drop _ = _ then
      Except.ok ((plaintext ++ (nonce.getLastD 0 :: replicate 15 0)).take _)
      else Except.error "aead::Error") = .ok plaintext
    rw [hlength, drop_left, if_pos rfl, take_left]

def sampleNonce : List Byte :=
  replicate 11 0 ++ [7]

def sampleCalls : List Call :=
  [.write [1, 2], .write [1, 2], .flush, .write [1, 2], .write [3]]

def sampleSink : List WriteEvent :=
  [.accept 9, .pending, .accept 4, .pending, .accept 40, .accept 1, .accept 40]

def sampleSession : Session AeadWriteState :=
  Run.run (AeadWriteState.aeadWriter tagCipher .aes256Gcm).step
    (Session.start (AeadWriteState.new sampleNonce) sampleSink) sampleCalls

def sampleSource : List ReadEvent :=
  [.chunk (sampleNonce.take 5), .pending, .chunk (sampleNonce.drop 5 ++ [0, 0]),
    .chunk ([0, 18, 1, 2, 7] ++ replicate 15 0 ++ [0])]

theorem delivers_sealed_sample :
    sampleSession.reported = [1, 2, 3] ∧
    Delivers .aes256Gcm sampleNonce sampleSession (Source.bytes ⟨sampleSource⟩) 4
      (enoughPolls sampleSession sampleSource)
      (Run.run (aeadReader tagCipher .aes256Gcm).step
        (Reading.start (new .aes256Gcm) sampleSource) [1, 1, 5, 5]) := by
  have hdelivers := delivers_sealed (tagCipher_works .aes256Gcm)
    (show sampleNonce.length = AeadAlgorithm.nonceSize .aes256Gcm by decide)
    (show Sink.Sound ⟨[], sampleSink⟩ by decide)
    (show Run.Along (AeadWriteState.aeadWriter tagCipher .aes256Gcm).step AeadWriteState.Clear
      (Session.start (AeadWriteState.new sampleNonce) sampleSink) sampleCalls by decide +kernel)
    (show sampleSession = _ from rfl)
  exact ⟨by decide +kernel, hdelivers.2 _ (by decide +kernel) sampleSource (by decide) rfl
    [1, 1, 5, 5] (by decide)⟩

/-- The second of two writes on a stream that begins with the last nonce is reported, but its peer
delivers nothing and fails. -/
theorem write_after_last_nonce_lost :
    exists s : Session AeadWriteState,
      s = Run.run (AeadWriteState.aeadWriter tagCipher .aes256Gcm).step
        (Session.start (AeadWriteState.new (replicate 12 255)) [.accept 40, .accept 40])
        [.write [1], .write [2]] ∧
      s.reported = [2] ∧ s.inFlight = none ∧
      exists r : Reading AeadReadState,
        r = Run.run (aeadReader tagCipher .aes256Gcm).step
          (Reading.start (new .aes256Gcm) [.chunk s.sink.accepted]) [8] ∧
        r.delivered = [] ∧
        r.ending = some (.failed (AeadWriteState.otherError "AEAD read nonce exhausted")) :=
  ⟨_, rfl, by decide +kernel, by decide +kernel, _, rfl, by decide +kernel, by decide +kernel⟩

end AeadReadState

end Stream
end FrpRs
