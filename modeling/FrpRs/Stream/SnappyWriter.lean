import FrpRs.Stream.SnappyReader

/-!
# The compressing writer

`SnappyStreamWriter` in `frp-core/src/snappy_stream.rs`.  The compressor is a parameter: it
turns one input after the other into pieces of one compressed stream.  A piece the inner
writer takes only in part is kept and retried, and the write is reported with its own length
once the piece is out.

A flush that finishes the piece drops this length, so that the retry of the write compresses
its buffer again.  As long as no flush does so, every write is compressed once.
-/

namespace FrpRs
namespace Stream

open List Bytes Poll
open SnappyStreamReader (literalRaw identifierChunk)

/-- A compressor with its state. -/
structure Compressor (γ : Type) where
  compress : γ -> List Byte -> Except String (List Byte × γ)

namespace Compressor

variable {γ : Type}

def form (k : Compressor γ) : γ -> List (List Byte) -> List Byte
  | _, [] => []
  | c, input :: inputs =>
    match k.compress c input with
    | .ok (out, c') => out ++ k.form c' inputs
    | .error _ => []

def after (k : Compressor γ) : γ -> List (List Byte) -> γ
  | c, [] => c
  | c, input :: inputs =>
    match k.compress c input with
    | .ok (_, c') => k.after c' inputs
    | .error _ => c

/-- Every input is compressed, and the stream decodes to the inputs. -/
structure Decodes (k : Compressor γ) (start : γ) (decode : List Byte -> Option (List Byte)) :
    Prop where
  compresses : forall c input, exists out c', k.compress c input = .ok (out, c')
  decodes : forall inputs, decode (k.form start inputs) = some inputs.flatten

end Compressor

structure SnappyStreamWriter (γ : Type) where
  compressor : γ
  pending : Option (List Byte)
  pendingPos : Nat
  pendingOrigLen : Nat
deriving DecidableEq, Repr

namespace SnappyStreamWriter

variable {γ : Type}

def new (compressor : γ) : SnappyStreamWriter γ where
  compressor := compressor
  pending := none
  pendingPos := 0
  pendingOrigLen := 0

/-- Ready with the length of a write whose piece is out by now, if there was one. -/
def drainPending (s : SnappyStreamWriter γ) (sink : Sink) :
    Outcome (Option Nat) × SnappyStreamWriter γ × Sink :=
  match s.pending with
  | none => (.ready none, s, sink)
  | some pending =>
    match sink.drain pending s.pendingPos with
    | (.done, sink) =>
      (.ready (some s.pendingOrigLen),
        { s with pending := none, pendingPos := 0, pendingOrigLen := 0 }, sink)
    | (.failed e, sink) => (.failed e, s, sink)
    | (.part pos, sink) => (.pending, { s with pendingPos := pos }, sink)
    | (.pending, sink) => (.pending, s, sink)

/-- A write with nothing to retry. -/
def writeCompressed (k : Compressor γ) (s : SnappyStreamWriter γ) (sink : Sink)
    (buf : List Byte) : Outcome Nat × SnappyStreamWriter γ × Sink :=
  match k.compress s.compressor buf with
  | .error e => (.failed ⟨.invalidData, e⟩, s, sink)
  | .ok (out, compressor) =>
    let s := { s with compressor := compressor }
    match sink.pollWrite out with
    | (.ready n, sink) =>
      if out.length ≤ n then (.ready buf.length, s, sink)
      else
        (.pending, { s with pending := some out, pendingPos := n,
                            pendingOrigLen := buf.length }, sink)
    | (.failed e, sink) => (.failed e, s, sink)
    | (.pending, sink) =>
      (.pending, { s with pending := some out, pendingPos := 0,
                          pendingOrigLen := buf.length }, sink)

def pollWrite (k : Compressor γ) (s : SnappyStreamWriter γ) (sink : Sink) (buf : List Byte) :
    Outcome Nat × SnappyStreamWriter γ × Sink :=
  match drainPending s sink with
  | (.ready (some origLen), s, sink) => (.ready origLen, s, sink)
  | (.ready none, s, sink) => writeCompressed k s sink buf
  | (.failed e, s, sink) => (.failed e, s, sink)
  | (.pending, s, sink) => (.pending, s, sink)

/-- A flush that finishes a piece is pending once more. -/
def pollFlush (s : SnappyStreamWriter γ) (sink : Sink) :
    Outcome Unit × SnappyStreamWriter γ × Sink :=
  match drainPending s sink with
  | (.ready (some _), s, sink) => (.pending, s, sink)
  | (.ready none, s, sink) => (sink.pollFlush.1, s, sink.pollFlush.2)
  | (.failed e, s, sink) => (.failed e, s, sink)
  | (.pending, s, sink) => (.pending, s, sink)

def snappyWriter (k : Compressor γ) : Writer (SnappyStreamWriter γ) where
  pollWrite := pollWrite k
  pollFlush := pollFlush

/-!
## What a session has sent
-/

section Form

variable {k : Compressor γ} {start : γ} {decode : List Byte -> Option (List Byte)}

theorem form_snoc (hk : k.Decodes start decode) (c : γ) (inputs : List (List Byte))
    {input out : List Byte} {c' : γ} (h : k.compress (k.after c inputs) input = .ok (out, c')) :
    k.form c (inputs ++ [input]) = k.form c inputs ++ out ∧
      k.after c (inputs ++ [input]) = c' := by
  induction inputs generalizing c with
  | nil =>
    rw [Compressor.after] at h
    rw [nil_append, Compressor.form, Compressor.form, Compressor.after, h]
    exact ⟨append_nil out, rfl⟩
  | cons first inputs ih =>
    obtain ⟨piece, next, hpiece⟩ := hk.compresses c first
    rw [Compressor.after, hpiece] at h
    obtain ⟨hform, hafter⟩ := ih next h
    rw [cons_append, Compressor.form, Compressor.form, Compressor.after, hpiece]
    dsimp only
    rw [hform, append_assoc]
    exact ⟨rfl, hafter⟩

theorem form_prefix (hk : k.Decodes start decode) (c : γ) (inputs more : List (List Byte)) :
    k.form c inputs <+: k.form c (inputs ++ more) := by
  induction inputs generalizing c with
  | nil => exact nil_prefix
  | cons first inputs ih =>
    obtain ⟨piece, next, hpiece⟩ := hk.compresses c first
    rw [cons_append, Compressor.form, Compressor.form, hpiece]
    exact (prefix_append_right_inj piece).mpr (ih next)

end Form

/-- The writes that were compressed are those that were reported, or one more, whose piece is
being sent. -/
inductive Phase (k : Compressor γ) (start : γ) (s : Session (SnappyStreamWriter γ)) : Prop
  | idle (hstate : s.state = new (k.after start s.offered))
      (hsent : s.sink.accepted = k.form start s.offered) (hflight : s.inFlight = none)
      (hreported : s.reported = s.offered.flatten)
  | openWrite (out : List Byte) (pos : Nat) (sent : List (List Byte)) (b : List Byte)
      (hstate : s.state = { new (k.after start (sent ++ [b])) with
        pending := some out
        pendingPos := pos
        pendingOrigLen := b.length })
      (hpos : pos < out.length)
      (hsent : s.sink.accepted ++ out.drop pos = k.form start (sent ++ [b]))
      (hflight : s.inFlight = some b) (hoffered : s.offered = sent ++ [b])
      (hreported : s.reported = sent.flatten)
  /-- A pending write that gave no bytes fails from then on. -/
  | stuck (sent more : List (List Byte))
      (hstate : s.state = { new (k.after start (sent ++ [[]])) with pending := some [] })
      (hsent : s.sink.accepted = k.form start (sent ++ [[]]))
      (hoffered : s.offered = sent ++ [[]] ++ more)
      (hreported : s.reported = sent.flatten)

section Steps

variable {k : Compressor γ} {start : γ} {decode : List Byte -> Option (List Byte)}
  {s : Session (SnappyStreamWriter γ)}

theorem eq_nil_of_compress_nil (hk : k.Decodes start decode) {inputs : List (List Byte)}
    {input : List Byte} {c' : γ} (h : k.compress (k.after start inputs) input = .ok ([], c')) :
    input = [] := by
  obtain ⟨hform, _⟩ := form_snoc hk start inputs h
  have hdecodes := hk.decodes (inputs ++ [input])
  rw [hform, append_nil, hk.decodes, Option.some.injEq, flatten_append,
    flatten_singleton] at hdecodes
  exact (self_eq_append_right.mp hdecodes)

theorem write_idle (hk : k.Decodes start decode) (hsound : s.sink.Sound)
    (hstate : s.state = new (k.after start s.offered))
    (hsent : s.sink.accepted = k.form start s.offered) (hflight : s.inFlight = none)
    (hreported : s.reported = s.offered.flatten) (buf : List Byte) :
    Phase k start ((snappyWriter k).step s (.write buf)) := by
  obtain ⟨out, c', hcompress⟩ := hk.compresses (k.after start s.offered) buf
  obtain ⟨hform, hafter⟩ := form_snoc hk start s.offered hcompress
  have hpoll : (snappyWriter k).pollWrite s.state s.sink buf =
      writeCompressed k (new (k.after start s.offered)) s.sink buf := by
    rw [hstate]
    rfl
  have hcompress' : k.compress (new (k.after start s.offered)).compressor buf = .ok (out, c') :=
    hcompress
  rw [writeCompressed, hcompress'] at hpoll
  dsimp only [new] at hpoll
  have hoffered : (if s.inFlight.isSome then s.offered else s.offered ++ [buf]) =
      s.offered ++ [buf] := by
    rw [hflight]
    rfl
  have hnone : s.reported ++ Outcome.written buf .pending = s.offered.flatten := by
    rw [← hreported]
    exact append_nil _
  have hwait : forall (pos : Nat) (sink' : Sink), pos < out.length ->
      sink'.accepted ++ out.drop pos = s.sink.accepted ++ out ->
      (snappyWriter k).pollWrite s.state s.sink buf =
        (.pending, { new c' with
          pending := some out
          pendingPos := pos
          pendingOrigLen := buf.length }, sink') ->
      Phase k start ((snappyWriter k).step s (.write buf)) := by
    intro pos sink' hpos haccepted hpoll
    rw [Writer.step_write hpoll]
    refine Phase.openWrite out pos s.offered buf ?_ hpos ?_ rfl hoffered hnone
    · rw [hafter]
    · rw [hform, ← hsent]
      exact haccepted
  cases hwrite : s.sink.pollWrite out with
  | mk o sink' =>
    rw [hwrite] at hpoll
    cases o with
    | ready n =>
      obtain ⟨_, haccepted⟩ := Sink.pollWrite_ready hwrite
      dsimp only at hpoll
      by_cases hall : out.length ≤ n
      · rw [if_pos hall] at hpoll
        rw [Writer.step_write hpoll]
        refine Phase.idle ?_ ?_ rfl ?_
        · rw [hoffered, hafter]
          rfl
        · rw [hoffered, hform, ← hsent, haccepted, take_of_length_le hall]
        · rw [hoffered, Outcome.written, take_length, hreported, flatten_append,
            flatten_singleton]
      · rw [if_neg hall] at hpoll
        refine hwait n sink' (by omega) ?_ hpoll
        rw [haccepted, append_assoc, take_append_drop]
    | failed e => exact absurd hwrite fun hwrite => hsound.not_failed hwrite
    | pending =>
      have haccepted := Sink.pollWrite_pending hwrite
      by_cases hnil : out = []
      · rw [hnil] at hcompress hpoll hform
        have hbuf := eq_nil_of_compress_nil hk hcompress
        rw [Writer.step_write hpoll]
        rw [hbuf] at hoffered hnone hform hafter ⊢
        refine Phase.stuck s.offered [] ?_ ?_ ?_ hnone
        · rw [hafter]
          rfl
        · rw [hform, append_nil, ← hsent]
          exact haccepted
        · rw [append_nil]
          exact hoffered
      · refine hwait 0 sink' (length_pos_iff.mpr hnil) ?_ hpoll
        rw [haccepted]
        rfl

def KeepsLength (s : Session (SnappyStreamWriter γ)) : Call -> Prop
  | .write _ => True
  | .flush =>
    s.state.pending.any (fun piece => s.sink.takesAll (piece.drop s.state.pendingPos)) = false

instance (s : Session (SnappyStreamWriter γ)) : (call : Call) -> Decidable (KeepsLength s call)
  | .write _ => isTrue trivial
  | .flush => inferInstanceAs (Decidable (_ = false))

section OpenWrite

variable (hsound : s.sink.Sound) {out : List Byte} {pos : Nat}
  {sent : List (List Byte)} {b : List Byte}
  (hstate : s.state = { new (k.after start (sent ++ [b])) with
    pending := some out
    pendingPos := pos
    pendingOrigLen := b.length })
  (hpos : pos < out.length)
  (hsent : s.sink.accepted ++ out.drop pos = k.form start (sent ++ [b]))
  (hflight : s.inFlight = some b) (hoffered : s.offered = sent ++ [b])
  (hreported : s.reported = sent.flatten)
include hsound hstate hpos hsent hflight hoffered hreported

theorem write_openWrite :
    Phase k start ((snappyWriter k).step s (.write b)) := by
  have hpoll : (snappyWriter k).pollWrite s.state s.sink b =
      pollWrite k { new (k.after start (sent ++ [b])) with
        pending := some out
        pendingPos := pos
        pendingOrigLen := b.length } s.sink b := by
    rw [hstate]
    rfl
  rw [pollWrite, drainPending] at hpoll
  dsimp only [new] at hpoll
  have hbegun : (if s.inFlight.isSome then s.offered else s.offered ++ [b]) = sent ++ [b] := by
    rw [hflight]
    exact hoffered
  have hnone : s.reported ++ Outcome.written b .pending = sent.flatten := by
    rw [← hreported]
    exact append_nil _
  cases hdrain : s.sink.drain out pos with
  | mk p sink' =>
    have haccepted := Sink.drain_accepted hdrain
    rw [hsent] at haccepted
    rw [hdrain] at hpoll
    cases p with
    | done =>
      rw [Progress.rest, append_nil] at haccepted
      rw [Writer.step_write hpoll]
      refine Phase.idle ?_ ?_ rfl ?_
      · rw [hbegun]
        rfl
      · rw [hbegun, haccepted]
      · rw [hbegun, hreported, Outcome.written, take_length, flatten_append,
          flatten_singleton]
    | failed e => exact absurd (hsound.drain_failed hdrain) (Nat.not_le.mpr hpos)
    | part pos' =>
      rw [Writer.step_write hpoll]
      exact Phase.openWrite out pos' sent b rfl (Sink.drain_part hdrain) haccepted rfl hbegun
        hnone
    | pending =>
      rw [Writer.step_write hpoll]
      exact Phase.openWrite out pos sent b rfl hpos haccepted rfl hbegun hnone

theorem flush_openWrite (hkeeps : KeepsLength s .flush) :
    Phase k start ((snappyWriter k).step s .flush) := by
  have hpoll : (snappyWriter k).pollFlush s.state s.sink =
      pollFlush { new (k.after start (sent ++ [b])) with
        pending := some out
        pendingPos := pos
        pendingOrigLen := b.length } s.sink := by
    rw [hstate]
    rfl
  rw [pollFlush, drainPending] at hpoll
  dsimp only [new] at hpoll
  cases hdrain : s.sink.drain out pos with
  | mk p sink' =>
    have haccepted := Sink.drain_accepted hdrain
    rw [hsent] at haccepted
    rw [hdrain] at hpoll
    cases p with
    | done =>
      have hall := Sink.drain_done hdrain
      rw [KeepsLength, hstate] at hkeeps
      rw [Option.any_some, hall] at hkeeps
      cases hkeeps
    | failed e => exact absurd (hsound.drain_failed hdrain) (Nat.not_le.mpr hpos)
    | part pos' =>
      rw [Writer.step_flush hpoll]
      exact Phase.openWrite out pos' sent b rfl (Sink.drain_part hdrain) haccepted hflight
        hoffered hreported
    | pending =>
      rw [Writer.step_flush hpoll]
      exact Phase.openWrite out pos sent b rfl hpos haccepted hflight hoffered hreported

end OpenWrite

section Stuck

variable {sent more : List (List Byte)}
  (hstate : s.state = { new (k.after start (sent ++ [[]])) with pending := some [] })
  (hsent : s.sink.accepted = k.form start (sent ++ [[]]))
  (hoffered : s.offered = sent ++ [[]] ++ more) (hreported : s.reported = sent.flatten)
include hstate hsent hoffered hreported

theorem write_stuck_phase (buf : List Byte) :
    Phase k start ((snappyWriter k).step s (.write buf)) := by
  have hpoll : (snappyWriter k).pollWrite s.state s.sink buf =
      pollWrite k { new (k.after start (sent ++ [[]])) with pending := some [] } s.sink buf := by
    rw [hstate]
    rfl
  rw [pollWrite, drainPending] at hpoll
  dsimp only [new] at hpoll
  have hbegun : exists more', (if s.inFlight.isSome then s.offered else s.offered ++ [buf]) =
      sent ++ [[]] ++ more' := by
    split
    · exact ⟨more, hoffered⟩
    · exact ⟨more ++ [buf], by rw [hoffered, append_assoc]⟩
  obtain ⟨more', hmore⟩ := hbegun
  have hstay : forall (o : Outcome Nat) (sink' : Sink), o.written buf = [] ->
      sink'.accepted = s.sink.accepted ->
      (snappyWriter k).pollWrite s.state s.sink buf =
        (o, { new (k.after start (sent ++ [[]])) with pending := some [] }, sink') ->
      Phase k start ((snappyWriter k).step s (.write buf)) := by
    intro o sink' ho haccepted hpoll
    rw [Writer.step_write hpoll, ho, append_nil]
    exact Phase.stuck sent more' rfl (haccepted.trans hsent) hmore hreported
  cases hdrain : s.sink.drain [] 0 with
  | mk p sink' =>
    obtain ⟨hp, haccepted⟩ := Sink.drain_empty hdrain
    rw [hdrain] at hpoll
    rcases hp with hp | ⟨e, hp⟩
    · rw [hp] at hpoll
      exact hstay .pending sink' rfl haccepted hpoll
    · rw [hp] at hpoll
      exact hstay (.failed e) sink' rfl haccepted hpoll

theorem flush_stuck_phase :
    Phase k start ((snappyWriter k).step s .flush) := by
  have hpoll : (snappyWriter k).pollFlush s.state s.sink =
      pollFlush { new (k.after start (sent ++ [[]])) with pending := some [] } s.sink := by
    rw [hstate]
    rfl
  rw [pollFlush, drainPending] at hpoll
  dsimp only [new] at hpoll
  cases hdrain : s.sink.drain [] 0 with
  | mk p sink' =>
    obtain ⟨hp, haccepted⟩ := Sink.drain_empty hdrain
    rw [hdrain] at hpoll
    rcases hp with hp | ⟨e, hp⟩
    · rw [hp] at hpoll
      rw [Writer.step_flush hpoll]
      exact Phase.stuck sent more rfl (haccepted.trans hsent) hoffered hreported
    · rw [hp] at hpoll
      rw [Writer.step_flush hpoll]
      exact Phase.stuck sent more rfl (haccepted.trans hsent) hoffered hreported

end Stuck

theorem drainPending_sound {st : SnappyStreamWriter γ} {sink : Sink} (h : sink.Sound) :
    (drainPending st sink).2.2.Sound := by
  unfold drainPending
  split
  · exact h
  · rename_i pending _
    have hsink := h.drain pending st.pendingPos
    split
    all_goals
      rename_i heq
      rw [heq] at hsink
      exact hsink

variable {st : SnappyStreamWriter γ}

theorem writeCompressed_sound {sink : Sink} (h : sink.Sound) (buf : List Byte) :
    (writeCompressed k st sink buf).2.2.Sound := by
  unfold writeCompressed
  split
  · exact h
  · rename_i out c' _
    have hsink := h.pollWrite out
    split
    · rename_i heq
      rw [heq] at hsink
      split
      · exact hsink
      · exact hsink
    all_goals
      rename_i heq
      rw [heq] at hsink
      exact hsink

theorem pollWrite_sound {sink : Sink} (h : sink.Sound) (buf : List Byte) :
    (pollWrite k st sink buf).2.2.Sound := by
  have hsink := @drainPending_sound γ st sink h
  unfold pollWrite
  split
  · rename_i heq
    rw [heq] at hsink
    exact hsink
  · rename_i heq
    rw [heq] at hsink
    exact writeCompressed_sound hsink buf
  all_goals
    rename_i heq
    rw [heq] at hsink
    exact hsink

theorem pollFlush_sound {sink : Sink} (h : sink.Sound) :
    (pollFlush st sink).2.2.Sound := by
  have hsink := @drainPending_sound γ st sink h
  unfold pollFlush
  split
  · rename_i heq
    rw [heq] at hsink
    exact hsink
  · rename_i heq
    rw [heq] at hsink
    exact hsink.pollFlush
  all_goals
    rename_i heq
    rw [heq] at hsink
    exact hsink

def Clear (s : Session (SnappyStreamWriter γ)) (call : Call) : Prop :=
  s.Repolls call ∧ KeepsLength s call

instance (s : Session (SnappyStreamWriter γ)) (call : Call) : Decidable (Clear s call) :=
  inferInstanceAs (Decidable (_ ∧ _))

theorem step_phase (hk : k.Decodes start decode) (s : Session (SnappyStreamWriter γ))
    (call : Call) (h : s.sink.Sound ∧ Phase k start s) (hclear : Clear s call) :
    ((snappyWriter k).step s call).sink.Sound ∧ Phase k start ((snappyWriter k).step s call) := by
  obtain ⟨hsound, hphase⟩ := h
  cases call with
  | write buf =>
    refine ⟨pollWrite_sound hsound buf, ?_⟩
    cases hphase with
    | idle hstate hsent hflight hreported =>
      exact write_idle hk hsound hstate hsent hflight hreported buf
    | openWrite out pos sent b hstate hpos hsent hflight hoffered hreported =>
      rw [← hclear.1.eq hflight]
      exact write_openWrite hsound hstate hpos hsent hflight hoffered hreported
    | stuck sent more hstate hsent hoffered hreported =>
      exact write_stuck_phase hstate hsent hoffered hreported buf
  | flush =>
    refine ⟨pollFlush_sound hsound, ?_⟩
    cases hphase with
    | idle hstate hsent hflight hreported =>
      have hpoll : (snappyWriter k).pollFlush s.state s.sink =
          (s.sink.pollFlush.1, new (k.after start s.offered), s.sink.pollFlush.2) := by
        rw [hstate]
        rfl
      rw [Writer.step_flush hpoll]
      exact Phase.idle rfl ((Sink.pollFlush_accepted _).trans hsent) hflight hreported
    | openWrite out pos sent b hstate hpos hsent hflight hoffered hreported =>
      exact flush_openWrite hsound hstate hpos hsent hflight hoffered hreported hclear.2
    | stuck sent more hstate hsent hoffered hreported =>
      exact flush_stuck_phase hstate hsent hoffered hreported

end Steps

/-!
## Sessions
-/

def unsent (s : SnappyStreamWriter γ) : List Byte :=
  (s.pending.getD []).drop s.pendingPos

/-- What is sent is a prefix of the compressed writes, and with the bytes kept for a retry it
decodes to the reported bytes, or to these and the pending write. -/
structure CompressedOnce (k : Compressor γ) (start : γ)
    (decode : List Byte -> Option (List Byte)) (s : Session (SnappyStreamWriter γ)) : Prop where
  sent : s.sink.accepted <+: k.form start s.offered
  decoded : decode (s.sink.accepted ++ unsent s.state) = some s.reported ∨
    exists b, s.inFlight = some b ∧
      decode (s.sink.accepted ++ unsent s.state) = some (s.reported ++ b)

theorem Phase.compressedOnce {k : Compressor γ} {start : γ}
    {decode : List Byte -> Option (List Byte)} {s : Session (SnappyStreamWriter γ)}
    (hk : k.Decodes start decode) (h : Phase k start s) : CompressedOnce k start decode s := by
  cases h with
  | idle hstate hsent hflight hreported =>
    have hnothing : unsent s.state = [] := by rw [hstate]; rfl
    refine ⟨hsent ▸ prefix_rfl, .inl ?_⟩
    rw [hnothing, append_nil, hsent, hreported, hk.decodes]
  | openWrite out pos sent b hstate hpos hsent hflight hoffered hreported =>
    have hkept : unsent s.state = out.drop pos := by rw [hstate]; rfl
    refine ⟨hoffered ▸ ⟨_, hsent⟩, .inr ⟨b, hflight, ?_⟩⟩
    rw [hkept, hsent, hk.decodes, hreported, flatten_append, flatten_singleton]
  | stuck sent more hstate hsent hoffered hreported =>
    have hnothing : unsent s.state = [] := by rw [hstate]; rfl
    refine ⟨?_, .inl ?_⟩
    · rw [hsent, hoffered]
      exact form_prefix hk start _ more
    · rw [hnothing, append_nil, hsent, hk.decodes, hreported, flatten_append]
      simp

/-- Every write is compressed once, whatever the inner writer does, as long as no flush
finishes the piece of a pending write. -/
theorem compressedOnce_of_clear {k : Compressor γ} {start : γ}
    {decode : List Byte -> Option (List Byte)} (hk : k.Decodes start decode)
    {script : List WriteEvent} (hscript : Sink.Sound ⟨[], script⟩) (calls : List Call)
    (hcalls : Run.Along (snappyWriter k).step Clear (Session.start (new start) script) calls) :
    CompressedOnce k start decode
      (Run.run (snappyWriter k).step (Session.start (new start) script) calls) := by
  have hstart : (Session.start (new start) script).sink.Sound ∧
      Phase k start (Session.start (new start) script) :=
    ⟨hscript, Phase.idle rfl rfl rfl rfl⟩
  exact (Run.run_invariant (step_phase hk) hstart hcalls).2.compressedOnce hk

/-!
## The encoder on short data
-/

/-- What the `snap` encoder writes for data that does not get shorter. -/
def stored (data : List Byte) : List Byte :=
  0x01 :: leBytes 3 (4 + data.length) ++ (u32Le (Crc32c.crc32cMasked data) ++ data)

def identifier : List Byte :=
  0xFF :: leBytes 3 streamBody.length ++ streamBody

def pieceSize : Nat := 65536

def pieces : Nat -> List Byte -> List (List Byte)
  | 0, _ => []
  | _ + 1, [] => []
  | fuel + 1, b :: input =>
    (b :: input).take pieceSize :: pieces fuel ((b :: input).drop pieceSize)

def storing : Compressor Bool where
  compress started input :=
    if input = [] then .ok ([], started)
    else
      .ok ((if started then [] else identifier) ++ (pieces input.length input).flatMap stored, true)

/-- The decoder of a whole stream. -/
def decodeChunks (raw : SnapRaw) : Nat -> List Byte -> Option (List Byte)
  | _, [] => some []
  | 0, _ :: _ => none
  | fuel + 1, b :: bytes =>
    match chunkData raw b (((b :: bytes).take (4 + chunkLen (b :: bytes))).drop 4) with
    | .ok data =>
      (decodeChunks raw fuel ((b :: bytes).drop (4 + chunkLen (b :: bytes)))).map
        (data.getD [] ++ ·)
    | .error _ => none

def decode (bytes : List Byte) : Option (List Byte) :=
  decodeChunks literalRaw bytes.length bytes

variable {raw : SnapRaw}

theorem decodeChunks_encode (c : Chunk raw) (rest : List Byte) (fuel : Nat) :
    decodeChunks raw (fuel + 1) (c.encode ++ rest) =
      (decodeChunks raw fuel rest).map (c.payload ++ ·) := by
  have hlen := c.chunkLen_encode rest
  have hbody : ((c.encode ++ rest).take (4 + c.body.length)).drop 4 = c.body := by
    rw [take_left' c.length_encode, Chunk.encode, cons_append, drop_succ_cons,
      drop_left' (leBytes_length 3 _)]
  have hrest : (c.encode ++ rest).drop (4 + c.body.length) = rest :=
    drop_left' c.length_encode
  rw [Chunk.encode, cons_append, cons_append] at hlen hbody hrest ⊢
  rw [decodeChunks, hlen, hbody, hrest, c.chunkData_eq]
  rfl

theorem decodeChunks_encodeAll (cs : List (Chunk raw)) {fuel : Nat} (hfuel : cs.length ≤ fuel) :
    decodeChunks raw fuel (encodeAll cs) = some (payloads cs) := by
  induction cs generalizing fuel with
  | nil =>
    rw [encodeAll, flatMap_nil, decodeChunks]
    rfl
  | cons c cs ih =>
    cases fuel with
    | zero => exact absurd hfuel (Nat.not_succ_le_zero _)
    | succ fuel =>
      rw [length_cons] at hfuel
      rw [encodeAll, flatMap_cons, decodeChunks_encode]
      change Option.map _ (decodeChunks raw fuel (encodeAll cs)) = _
      rw [ih (by omega)]
      rfl

theorem length_le_encodeAll (cs : List (Chunk raw)) :
    cs.length ≤ (encodeAll cs).length := by
  induction cs with
  | nil => exact Nat.le_refl 0
  | cons c cs ih =>
    rw [encodeAll, flatMap_cons, length_append, c.length_encode, length_cons]
    change cs.length + 1 ≤ _ + (encodeAll cs).length
    omega

/-- The chunk of a piece. -/
def storedChunk (data : List Byte) (h : data.length ≤ pieceSize) : Chunk literalRaw where
  chunkType := 0x01
  body := u32Le (Crc32c.crc32cMasked data) ++ data
  data := some data
  valid := .uncompressed data
  short := by
    rw [length_append, u32Le_length]
    have hroom : 4 + pieceSize ≤ maxSnappyChunk := by decide
    omega

theorem encode_storedChunk (data : List Byte) (h : data.length ≤ pieceSize) :
    (storedChunk data h).encode = stored data := by
  rw [Chunk.encode, storedChunk, stored]
  rw [length_append, u32Le_length]

theorem stored_pieces (fuel : Nat) (input : List Byte) (hfuel : input.length ≤ fuel) :
    exists cs : List (Chunk literalRaw), (pieces fuel input).flatMap stored = encodeAll cs ∧
      payloads cs = input := by
  induction fuel generalizing input with
  | zero =>
    refine ⟨[], rfl, ?_⟩
    rw [length_eq_zero_iff.mp (Nat.le_zero.mp hfuel)]
    rfl
  | succ fuel ih =>
    cases input with
    | nil => exact ⟨[], rfl, rfl⟩
    | cons b input =>
      have hpiece : ((b :: input).take pieceSize).length ≤ pieceSize := by
        rw [length_take]
        exact Nat.min_le_left _ _
      have hless : ((b :: input).drop pieceSize).length ≤ fuel := by
        have hpos : 0 < pieceSize := by decide
        rw [length_cons] at hfuel
        rw [length_drop, length_cons]
        omega
      obtain ⟨cs, hencode, hpayload⟩ := ih _ hless
      refine ⟨storedChunk _ hpiece :: cs, ?_, ?_⟩
      · rw [pieces, flatMap_cons, hencode, encodeAll, encodeAll, flatMap_cons,
          encode_storedChunk]
      · change _ ++ payloads cs = _
        rw [hpayload]
        exact take_append_drop pieceSize (b :: input)

theorem storing_form (started : Bool) (inputs : List (List Byte)) :
    exists cs : List (Chunk literalRaw), storing.form started inputs = encodeAll cs ∧
      payloads cs = inputs.flatten := by
  induction inputs generalizing started with
  | nil => exact ⟨[], rfl, rfl⟩
  | cons input inputs ih =>
    by_cases hnil : input = []
    · obtain ⟨cs, hform, hpayload⟩ := ih started
      refine ⟨cs, ?_, ?_⟩
      · rw [Compressor.form, storing]
        dsimp only
        rw [if_pos hnil]
        exact hform
      · rw [hpayload, hnil]
        rfl
    · obtain ⟨later, hform, hpayload⟩ := ih true
      obtain ⟨cs, hstored, hdata⟩ := stored_pieces input.length input (Nat.le_refl _)
      have hhead : exists head : List (Chunk literalRaw),
          (if started then [] else identifier) = encodeAll head ∧ payloads head = [] := by
        cases started with
        | true => exact ⟨[], rfl, rfl⟩
        | false => exact ⟨[identifierChunk], by decide, rfl⟩
      obtain ⟨head, hidentifier, hnone⟩ := hhead
      refine ⟨head ++ cs ++ later, ?_, ?_⟩
      · rw [Compressor.form, storing]
        dsimp only
        rw [if_neg hnil]
        change (if started then [] else identifier) ++ (pieces input.length input).flatMap stored ++
          storing.form true inputs = _
        rw [hform, hidentifier, hstored, encodeAll, encodeAll, encodeAll, encodeAll,
          flatMap_append, flatMap_append]
      · rw [payloads] at hnone hdata hpayload ⊢
        rw [flatMap_append, flatMap_append, hnone, hdata, hpayload]
        rfl

theorem storing_decodes : storing.Decodes false decode where
  compresses := by
    intro started input
    by_cases hnil : input = []
    · exact ⟨_, _, if_pos hnil⟩
    · exact ⟨_, _, if_neg hnil⟩
  decodes := by
    intro inputs
    obtain ⟨cs, hform, hpayload⟩ := storing_form false inputs
    rw [decode, hform, decodeChunks_encodeAll cs (length_le_encodeAll cs), hpayload]

/-- A write is pending, a flush sends a byte of it, and the retry the rest. -/
theorem compressedOnce_of_clear_sample :
    CompressedOnce storing false decode
      (Run.run (snappyWriter storing).step
        (Session.start (new false) [.pending, .accept 1, .accept 100, .accept 100])
        [.write [1, 2], .flush, .write [1, 2], .write [3]]) :=
  compressedOnce_of_clear storing_decodes (by decide) _ (by decide +kernel)

/-- A write is pending, a flush sends all of it, and the retry compresses it again. -/
theorem flushed_write_compressed_twice :
    storing.Decodes false decode ∧
    Sink.Sound ⟨[], [.pending, .accept 100, .accept 100]⟩ ∧
    Run.Along (snappyWriter storing).step (fun s call => s.Repolls call)
      (Session.start (new false) [.pending, .accept 100, .accept 100])
      [.write [1, 2], .flush, .write [1, 2]] ∧
    ¬ (Run.run (snappyWriter storing).step
        (Session.start (new false) [.pending, .accept 100, .accept 100])
        [.write [1, 2], .flush, .write [1, 2]]).sink.accepted <+:
      storing.form false
        (Run.run (snappyWriter storing).step
          (Session.start (new false) [.pending, .accept 100, .accept 100])
          [.write [1, 2], .flush, .write [1, 2]]).offered := by
  refine ⟨storing_decodes, ?_⟩
  decide +kernel

end SnappyStreamWriter

end Stream
end FrpRs
