import FrpRs.Data.Bytes
import FrpRs.Data.Run

/-!
# Polled byte streams

A polled reader or writer answers at once: it is ready with a value, it failed, or it is
pending and will be asked again.  How an inner stream answers is given by a script of events,
one for every call.

A sink accepts a prefix of what it is offered.  A source hands out its chunks, each cut where
the reader's buffer ends.  A writer on top of a sink is used in sessions: a buffer whose write
is pending is offered again unchanged, and flushes may come at any time.
-/

namespace FrpRs
namespace Poll

open List Bytes

inductive ErrorKind where
  | unexpectedEof
  | writeZero
  | invalidData
  | brokenPipe
  | timedOut
  | other
deriving DecidableEq, Repr

structure IoError where
  kind : ErrorKind
  text : String
deriving DecidableEq, Repr

def writeZero : IoError where
  kind := .writeZero
  text := "write zero"

def invalidData (text : String) : IoError where
  kind := .invalidData
  text := text

inductive Outcome (α : Type) where
  | pending
  | ready (value : α)
  | failed (error : IoError)
deriving DecidableEq, Repr

/-!
## Sinks
-/

inductive WriteEvent where
  | pending
  | accept (n : Nat)
  | fail (error : IoError)
deriving DecidableEq, Repr

def WriteEvent.Sound : WriteEvent -> Prop
  | .pending => True
  | .accept n => 0 < n
  | .fail _ => False

instance : (event : WriteEvent) -> Decidable event.Sound
  | .pending => isTrue trivial
  | .accept n => inferInstanceAs (Decidable (0 < n))
  | .fail _ => isFalse id

/-- The bytes accepted so far, and how the next calls are answered.  After the last event
every call is pending. -/
structure Sink where
  accepted : List Byte
  script : List WriteEvent
deriving DecidableEq, Repr

namespace Sink

def pollWrite (sink : Sink) (bytes : List Byte) : Outcome Nat × Sink :=
  match sink.script with
  | [] => (.pending, sink)
  | .pending :: script => (.pending, { sink with script := script })
  | .accept n :: script =>
    (.ready (min n bytes.length),
      { accepted := sink.accepted ++ bytes.take n, script := script })
  | .fail e :: script => (.failed e, { sink with script := script })

def pollFlush (sink : Sink) : Outcome Unit × Sink :=
  match sink.script with
  | [] => (.pending, sink)
  | .pending :: script => (.pending, { sink with script := script })
  | .accept _ :: script => (.ready (), { sink with script := script })
  | .fail e :: script => (.failed e, { sink with script := script })

def Sound (sink : Sink) : Prop :=
  forall event, event ∈ sink.script -> event.Sound

instance (sink : Sink) : Decidable sink.Sound :=
  inferInstanceAs (Decidable (forall event, event ∈ sink.script -> event.Sound))

def takesAll (sink : Sink) (bytes : List Byte) : Bool :=
  match sink.script with
  | .accept n :: _ => bytes.length ≤ n
  | _ => false

end Sink

/-- How far the write of a buffer got. -/
inductive Progress where
  | pending
  | failed (error : IoError)
  | part (pos : Nat)
  | done
deriving DecidableEq, Repr

/-- What is left of a buffer of which `pos` bytes were written before. -/
def Progress.rest (buf : List Byte) (pos : Nat) : Progress -> List Byte
  | .pending => buf.drop pos
  | .failed _ => buf.drop pos
  | .part pos' => buf.drop pos'
  | .done => []

namespace Sink

/-- The first write of a buffer.  Nothing is left of an empty one. -/
def offer (sink : Sink) (buf : List Byte) : Progress × Sink :=
  match sink.pollWrite buf with
  | (.pending, sink) => (.pending, sink)
  | (.failed e, sink) => (.failed e, sink)
  | (.ready n, sink) =>
    if buf.length ≤ n then (.done, sink)
    else if n = 0 then (.failed Poll.writeZero, sink)
    else (.part n, sink)

/-- Another write of a buffer of which `pos` bytes are written. -/
def drain (sink : Sink) (buf : List Byte) (pos : Nat) : Progress × Sink :=
  match sink.pollWrite (buf.drop pos) with
  | (.pending, sink) => (.pending, sink)
  | (.failed e, sink) => (.failed e, sink)
  | (.ready n, sink) =>
    if n = 0 then (.failed Poll.writeZero, sink)
    else if buf.length ≤ pos + n then (.done, sink)
    else (.part (pos + n), sink)

variable {sink sink' : Sink} {bytes : List Byte}

theorem pollWrite_pending (h : sink.pollWrite bytes = (.pending, sink')) :
    sink'.accepted = sink.accepted := by
  unfold pollWrite at h
  split at h
  all_goals cases h
  · rfl
  · rfl

variable {e : IoError}

theorem pollWrite_failed (h : sink.pollWrite bytes = (.failed e, sink')) :
    sink'.accepted = sink.accepted := by
  unfold pollWrite at h
  split at h
  all_goals cases h
  rfl

theorem pollWrite_ready {n : Nat} (h : sink.pollWrite bytes = (.ready n, sink')) :
    n ≤ bytes.length ∧ sink'.accepted = sink.accepted ++ bytes.take n := by
  unfold pollWrite at h
  split at h
  all_goals cases h
  refine ⟨Nat.min_le_right _ _, ?_⟩
  rw [take_eq_take_min]

theorem Sound.tail {accepted accepted' : List Byte} {event : WriteEvent}
    {script : List WriteEvent} (h : Sound ⟨accepted, event :: script⟩) :
    Sound ⟨accepted', script⟩ :=
  fun _ hmem => h _ (mem_cons_of_mem event hmem)

theorem Sound.pollWrite (h : sink.Sound) (bytes : List Byte) :
    (sink.pollWrite bytes).2.Sound := by
  obtain ⟨accepted, script⟩ := sink
  cases script with
  | nil => exact h
  | cons event script =>
    cases event with
    | pending => exact h.tail
    | accept n => exact h.tail
    | fail e => exact h.tail

theorem Sound.pollFlush (h : sink.Sound) : sink.pollFlush.2.Sound := by
  obtain ⟨accepted, script⟩ := sink
  cases script with
  | nil => exact h
  | cons event script =>
    cases event with
    | pending => exact h.tail
    | accept n => exact h.tail
    | fail e => exact h.tail

theorem pollFlush_accepted (sink : Sink) : sink.pollFlush.2.accepted = sink.accepted := by
  unfold Sink.pollFlush
  split
  all_goals rfl

theorem Sound.not_failed (h : sink.Sound) (hpoll : sink.pollWrite bytes = (.failed e, sink')) :
    False := by
  obtain ⟨accepted, script⟩ := sink
  cases script with
  | nil => cases hpoll
  | cons event script =>
    cases event with
    | pending => cases hpoll
    | accept n => cases hpoll
    | fail e => exact h _ mem_cons_self

theorem Sound.accepts (h : sink.Sound) {n : Nat} (hpoll : sink.pollWrite bytes = (.ready n, sink'))
    (hbytes : bytes ≠ []) : 0 < n := by
  obtain ⟨accepted, script⟩ := sink
  have hlength := length_pos_iff.mpr hbytes
  cases script with
  | nil => cases hpoll
  | cons event script =>
    cases event with
    | pending => cases hpoll
    | fail e => cases hpoll
    | accept m =>
      have hm : 0 < m := h _ mem_cons_self
      cases hpoll
      omega

/-!
## Buffers
-/

variable {buf : List Byte}

variable {pos : Nat} {p : Progress}

theorem drain_accepted (h : sink.drain buf pos = (p, sink')) :
    sink'.accepted ++ p.rest buf pos = sink.accepted ++ buf.drop pos := by
  unfold drain at h
  split at h
  · rename_i hpoll
    cases h
    rw [pollWrite_pending hpoll, Progress.rest]
  · rename_i hpoll
    cases h
    rw [pollWrite_failed hpoll, Progress.rest]
  · rename_i n sink₁ hpoll
    obtain ⟨hle, haccepted⟩ := pollWrite_ready hpoll
    split at h
    · rename_i hzero
      cases h
      rw [haccepted, hzero, Progress.rest, take_zero, append_nil]
    · split at h
      · cases h
        have hall : (buf.drop pos).length ≤ n := by
          rw [length_drop]
          omega
        rw [haccepted, Progress.rest, append_nil, take_of_length_le hall]
      · cases h
        rw [haccepted, Progress.rest, append_assoc, ← drop_drop,
          take_append_drop]

theorem offer_accepted (h : sink.offer buf = (p, sink')) :
    sink'.accepted ++ p.rest buf 0 = sink.accepted ++ buf := by
  unfold offer at h
  split at h
  · rename_i hpoll
    cases h
    rw [pollWrite_pending hpoll, Progress.rest, drop_zero]
  · rename_i hpoll
    cases h
    rw [pollWrite_failed hpoll, Progress.rest, drop_zero]
  · rename_i n sink₁ hpoll
    obtain ⟨_, haccepted⟩ := pollWrite_ready hpoll
    split at h
    · rename_i hall
      cases h
      rw [haccepted, Progress.rest, append_nil, take_of_length_le hall]
    · split at h
      · rename_i hzero
        cases h
        rw [haccepted, hzero, Progress.rest, take_zero, append_nil, drop_zero]
      · cases h
        rw [haccepted, Progress.rest, append_assoc, take_append_drop]

theorem drain_snd (sink : Sink) (buf : List Byte) (pos : Nat) :
    (sink.drain buf pos).2 = (sink.pollWrite (buf.drop pos)).2 := by
  unfold drain
  split
  · rename_i hpoll
    rw [hpoll]
  · rename_i hpoll
    rw [hpoll]
  · rename_i hpoll
    rw [hpoll]
    split
    · rfl
    · split
      · rfl
      · rfl

theorem offer_snd (sink : Sink) (buf : List Byte) :
    (sink.offer buf).2 = (sink.pollWrite buf).2 := by
  unfold offer
  split
  · rename_i hpoll
    rw [hpoll]
  · rename_i hpoll
    rw [hpoll]
  · rename_i hpoll
    rw [hpoll]
    split
    · rfl
    · split
      · rfl
      · rfl

theorem pollWrite_grows (sink : Sink) (bytes : List Byte) :
    sink.accepted <+: (sink.pollWrite bytes).2.accepted := by
  unfold pollWrite
  split
  · exact prefix_rfl
  · exact prefix_rfl
  · exact prefix_append _ _
  · exact prefix_rfl

theorem drain_grows (h : sink.drain buf pos = (p, sink')) :
    sink.accepted <+: sink'.accepted := by
  have hsnd := drain_snd sink buf pos
  rw [h] at hsnd
  rw [show sink' = (sink.pollWrite (buf.drop pos)).2 from hsnd]
  exact pollWrite_grows sink _

theorem Sound.drain (h : sink.Sound) (buf : List Byte) (pos : Nat) :
    (sink.drain buf pos).2.Sound := by
  rw [drain_snd]
  exact h.pollWrite _

theorem Sound.offer (h : sink.Sound) (buf : List Byte) :
    (sink.offer buf).2.Sound := by
  rw [offer_snd]
  exact h.pollWrite _

theorem Sound.offer_not_failed (h : sink.Sound) (hoffer : sink.offer buf = (.failed e, sink')) :
    False := by
  unfold Sink.offer at hoffer
  split at hoffer
  · cases hoffer
  · rename_i hpoll
    exact h.not_failed hpoll
  · rename_i n sink₁ hpoll
    split at hoffer
    · cases hoffer
    · split at hoffer
      · rename_i hlong hzero
        have hbuf : buf ≠ [] := by
          intro hnil
          rw [hnil] at hlong
          exact hlong (Nat.zero_le n)
        have hpos := h.accepts hpoll hbuf
        omega
      · cases hoffer

theorem Sound.drain_failed (h : sink.Sound) (hdrain : sink.drain buf pos = (.failed e, sink')) :
    buf.length ≤ pos := by
  rw [← drop_eq_nil_iff]
  unfold Sink.drain at hdrain
  split at hdrain
  · cases hdrain
  · rename_i hpoll
    exact absurd hpoll fun hpoll => h.not_failed hpoll
  · rename_i n sink₁ hpoll
    split at hdrain
    · rename_i hzero
      apply Decidable.byContradiction
      intro hne
      have hpos := h.accepts hpoll hne
      omega
    · split at hdrain
      · cases hdrain
      · cases hdrain

theorem drain_part {pos pos' : Nat} (h : sink.drain buf pos = (.part pos', sink')) :
    pos' < buf.length := by
  unfold drain at h
  split at h
  · cases h
  · cases h
  · split at h
    · cases h
    · split at h
      · cases h
      · cases h
        omega

theorem drain_progress {pos pos' : Nat} (h : sink.drain buf pos = (.part pos', sink')) :
    pos < pos' := by
  unfold drain at h
  split at h
  · cases h
  · cases h
  · split at h
    · cases h
    · split at h
      · cases h
      · cases h
        omega

theorem offer_part {n : Nat} (h : sink.offer buf = (.part n, sink')) : n < buf.length := by
  unfold offer at h
  split at h
  · cases h
  · cases h
  · split at h
    · cases h
    · split at h
      · cases h
      · cases h
        omega

theorem Sound.drain_cases (h : sink.Sound) (hpos : pos < buf.length)
    (hdrain : sink.drain buf pos = (p, sink')) :
    (p = .done ∧ sink'.accepted = sink.accepted ++ buf.drop pos) ∨
      exists pos' more, (p = .part pos' ∨ p = .pending ∧ pos' = pos) ∧ pos' < buf.length ∧
        sink'.accepted = sink.accepted ++ more ∧ more ++ buf.drop pos' = buf.drop pos := by
  have haccepted := drain_accepted hdrain
  obtain ⟨more, hmore⟩ := drain_grows hdrain
  cases p with
  | failed e => exact absurd (h.drain_failed hdrain) (Nat.not_le.mpr hpos)
  | done =>
    rw [Progress.rest, append_nil] at haccepted
    exact .inl ⟨rfl, haccepted⟩
  | part pos' =>
    rw [Progress.rest, ← hmore, append_assoc, append_cancel_left_eq] at haccepted
    exact .inr ⟨pos', more, .inl rfl, drain_part hdrain, hmore.symm, haccepted⟩
  | pending =>
    rw [Progress.rest, ← hmore, append_assoc, append_cancel_left_eq] at haccepted
    exact .inr ⟨pos, more, .inr ⟨rfl, rfl⟩, hpos, hmore.symm, haccepted⟩

theorem drain_empty (h : sink.drain [] 0 = (p, sink')) :
    (p = .pending ∨ exists e, p = .failed e) ∧ sink'.accepted = sink.accepted := by
  have haccepted := drain_accepted h
  unfold drain at h
  split at h
  · cases h
    rw [Progress.rest, drop_nil, append_nil, append_nil] at haccepted
    exact ⟨.inl rfl, haccepted⟩
  · cases h
    rw [Progress.rest, drop_nil, append_nil, append_nil] at haccepted
    exact ⟨.inr ⟨_, rfl⟩, haccepted⟩
  · rename_i n sink₁ hpoll
    have hzero : n = 0 := Nat.le_zero.mp (pollWrite_ready hpoll).1
    rw [if_pos hzero] at h
    cases h
    rw [Progress.rest, drop_nil, append_nil, append_nil] at haccepted
    exact ⟨.inr ⟨_, rfl⟩, haccepted⟩

theorem drain_done (h : sink.drain buf pos = (.done, sink')) :
    sink.takesAll (buf.drop pos) = true := by
  obtain ⟨accepted, script⟩ := sink
  unfold drain at h
  split at h
  · cases h
  · cases h
  · rename_i n sink₁ hpoll
    split at h
    · cases h
    · split at h
      · rename_i hall
        cases script with
        | nil => cases hpoll
        | cons event script =>
          cases event with
          | pending => cases hpoll
          | fail e => cases hpoll
          | accept m =>
            cases hpoll
            rw [takesAll, decide_eq_true_iff]
            rw [length_drop] at hall ⊢
            omega
      · cases h

/-- Writes until the buffer is used up or a write is pending. -/
def drainLoop : Nat -> Sink -> List Byte -> Nat -> Outcome Unit × Nat × Sink
  | 0, sink, _, pos => (.pending, pos, sink)
  | fuel + 1, sink, buf, pos =>
    if buf.length ≤ pos then (.ready (), pos, sink)
    else
      match sink.drain buf pos with
      | (.done, sink) => (.ready (), buf.length, sink)
      | (.part pos, sink) => drainLoop fuel sink buf pos
      | (.failed e, sink) => (.failed e, pos, sink)
      | (.pending, sink) => (.pending, pos, sink)

/-- What a loop of writes may do. -/
inductive Emptied (sink : Sink) (buf : List Byte) (pos : Nat) : Outcome Unit × Nat × Sink -> Prop
  | done {pos' : Nat} {sink' : Sink} (hsent : sink'.accepted = sink.accepted ++ buf.drop pos) :
      Emptied sink buf pos (.ready (), pos', sink')
  | kept {pos' : Nat} {sink' : Sink} {more : List Byte} (hpos : pos' < buf.length)
      (hsent : sink'.accepted = sink.accepted ++ more)
      (hrest : more ++ buf.drop pos' = buf.drop pos) :
      Emptied sink buf pos (.pending, pos', sink')

theorem Sound.drainLoop (h : sink.Sound) (fuel : Nat) (buf : List Byte) (pos : Nat) :
    (sink.drainLoop fuel buf pos).2.2.Sound := by
  induction fuel generalizing sink pos with
  | zero => exact h
  | succ fuel ih =>
    have hsound := h.drain buf pos
    unfold Sink.drainLoop
    split
    · exact h
    · split
      · rename_i heq
        rw [heq] at hsound
        exact hsound
      · rename_i heq
        rw [heq] at hsound
        exact ih hsound _
      · rename_i heq
        rw [heq] at hsound
        exact hsound
      · rename_i heq
        rw [heq] at hsound
        exact hsound

theorem Sound.drainLoop_emptied (h : sink.Sound) {fuel : Nat} (hpos : pos ≤ buf.length)
    (hfuel : buf.length - pos < fuel) :
    Emptied sink buf pos (sink.drainLoop fuel buf pos) := by
  induction fuel generalizing sink pos with
  | zero => exact absurd hfuel (Nat.not_lt_zero _)
  | succ fuel ih =>
    unfold Sink.drainLoop
    by_cases hall : buf.length ≤ pos
    · rw [if_pos hall]
      refine .done ?_
      rw [drop_eq_nil_of_le hall, append_nil]
    · rw [if_neg hall]
      have hsound := h.drain buf pos
      cases hdrain : sink.drain buf pos with
      | mk p sink' =>
        rw [hdrain] at hsound
        rcases h.drain_cases (Nat.not_le.mp hall) hdrain with
          ⟨hp, haccepted⟩ | ⟨pos', more, hp | ⟨hp, hsame⟩, hpos', haccepted, hrest⟩
        · rw [hp]
          exact .done haccepted
        · rw [hp]
          have hgrows := drain_progress (hp ▸ hdrain)
          have hnext := ih hsound (Nat.le_of_lt hpos') (by omega)
          dsimp only
          generalize sink'.drainLoop fuel buf pos' = answer at hnext
          cases hnext with
          | done hsent =>
            refine .done ?_
            rw [hsent, haccepted, append_assoc, hrest]
          | kept hpos'' hsent hrest' =>
            rename_i pos'' sink'' more'
            refine @Emptied.kept _ _ _ pos'' sink'' (more ++ more') hpos'' ?_ ?_
            · rw [hsent, haccepted, append_assoc]
            · rw [append_assoc, hrest', hrest]
        · rw [hp]
          rw [hsame] at hrest
          exact .kept (Nat.not_le.mp hall) haccepted hrest

end Sink

/-!
## Sources
-/

inductive ReadEvent where
  | pending
  | chunk (bytes : List Byte)
  | fail (error : IoError)
deriving DecidableEq, Repr

def ReadEvent.Sound : ReadEvent -> Prop
  | .pending => True
  | .chunk bytes => bytes ≠ []
  | .fail _ => False

instance : (event : ReadEvent) -> Decidable event.Sound
  | .pending => isTrue trivial
  | .chunk bytes => inferInstanceAs (Decidable (bytes ≠ []))
  | .fail _ => isFalse id

def ReadEvent.bytes : ReadEvent -> List Byte
  | .pending => []
  | .chunk bytes => bytes
  | .fail _ => []

/-- How the next reads are answered.  After the last event a read finds the end. -/
structure Source where
  script : List ReadEvent
deriving DecidableEq, Repr

namespace Source

def bytes (source : Source) : List Byte :=
  source.script.flatMap ReadEvent.bytes

def Sound (source : Source) : Prop :=
  forall event, event ∈ source.script -> event.Sound

instance (source : Source) : Decidable source.Sound :=
  inferInstanceAs (Decidable (forall event, event ∈ source.script -> event.Sound))

/-- What does not fit into the buffer is left for the next read. -/
def pollRead (source : Source) (cap : Nat) : Outcome (List Byte) × Source :=
  match source.script with
  | [] => (.ready [], source)
  | .pending :: script => (.pending, ⟨script⟩)
  | .chunk c :: script =>
    (.ready (c.take cap), if c.length ≤ cap then ⟨script⟩ else ⟨.chunk (c.drop cap) :: script⟩)
  | .fail e :: script => (.failed e, ⟨script⟩)

def weight (source : Source) : Nat :=
  source.bytes.length + source.script.length

theorem bytes_cons (event : ReadEvent) (script : List ReadEvent) :
    bytes ⟨event :: script⟩ = event.bytes ++ bytes ⟨script⟩ :=
  flatMap_cons

theorem weight_cons (event : ReadEvent) (script : List ReadEvent) :
    weight ⟨event :: script⟩ = event.bytes.length + 1 + weight ⟨script⟩ := by
  rw [weight, weight, bytes_cons, length_append, length_cons]
  dsimp only
  omega

theorem Sound.tail {event : ReadEvent} {script : List ReadEvent} (h : Sound ⟨event :: script⟩) :
    Sound ⟨script⟩ :=
  fun _ hmem => h _ (mem_cons_of_mem event hmem)

variable {source source' : Source}

variable {cap : Nat}

theorem pollRead_pending (h : source.pollRead cap = (.pending, source')) :
    source'.bytes = source.bytes ∧ source'.weight < source.weight := by
  obtain ⟨script⟩ := source
  cases script with
  | nil => cases h
  | cons event script =>
    cases event with
    | chunk c => cases h
    | fail e => cases h
    | pending =>
      cases h
      refine ⟨rfl, ?_⟩
      rw [weight_cons]
      omega

theorem pollRead_failed {e : IoError} (h : source.pollRead cap = (.failed e, source')) :
    source'.bytes = source.bytes := by
  obtain ⟨script⟩ := source
  cases script with
  | nil => cases h
  | cons event script =>
    cases event with
    | chunk c => cases h
    | pending => cases h
    | fail e =>
      cases h
      rfl

theorem Sound.not_failed (h : source.Sound) {e : IoError}
    (hread : source.pollRead cap = (.failed e, source')) : False := by
  obtain ⟨script⟩ := source
  cases script with
  | nil => cases hread
  | cons event script =>
    cases event with
    | chunk c => cases hread
    | pending => cases hread
    | fail e => exact h _ mem_cons_self

theorem pollRead_ready {got : List Byte} (h : source.pollRead cap = (.ready got, source')) :
    source.bytes = got ++ source'.bytes ∧ got.length ≤ cap := by
  obtain ⟨script⟩ := source
  cases script with
  | nil =>
    cases h
    exact ⟨rfl, Nat.zero_le cap⟩
  | cons event script =>
    cases event with
    | pending => cases h
    | fail e => cases h
    | chunk c =>
      cases h
      refine ⟨?_, by rw [length_take]; exact Nat.min_le_left _ _⟩
      split
      · rename_i hle
        rw [bytes_cons, ReadEvent.bytes, take_of_length_le hle]
      · rw [bytes_cons, bytes_cons, ReadEvent.bytes, ReadEvent.bytes, ← append_assoc,
          take_append_drop]

theorem pollRead_suffix (source : Source) (cap : Nat) :
    (source.pollRead cap).2.bytes <:+ source.bytes := by
  cases hread : source.pollRead cap with
  | mk o source' =>
    cases o with
    | pending => exact ⟨[], (pollRead_pending hread).1⟩
    | ready got => exact ⟨got, (pollRead_ready hread).1.symm⟩
    | failed e =>
      rcases source with ⟨script⟩
      cases script with
      | nil => cases hread
      | cons event script =>
        cases event with
        | pending => cases hread
        | chunk c => cases hread
        | fail e' =>
          cases hread
          exact suffix_rfl

theorem Sound.read (h : source.Sound) (hcap : 0 < cap) {got : List Byte}
    (hread : source.pollRead cap = (.ready got, source')) :
    (got = [] ∧ source.script = [] ∧ source' = source) ∨
      (got ≠ [] ∧ source'.weight < source.weight) := by
  obtain ⟨script⟩ := source
  cases script with
  | nil =>
    cases hread
    exact .inl ⟨rfl, rfl, rfl⟩
  | cons event script =>
    cases event with
    | pending => cases hread
    | fail e => cases hread
    | chunk c =>
      have hne : c ≠ [] := h _ mem_cons_self
      have hpos := length_pos_iff.mpr hne
      cases hread
      refine .inr ⟨?_, ?_⟩
      · intro hnil
        have hlength := congrArg length hnil
        rw [length_take, length_nil] at hlength
        omega
      · split
        · rw [weight_cons]
          omega
        · rw [weight_cons, weight_cons, ReadEvent.bytes, ReadEvent.bytes, length_drop]
          omega

theorem Sound.pollRead (h : source.Sound) (cap : Nat) :
    (source.pollRead cap).2.Sound := by
  obtain ⟨script⟩ := source
  cases script with
  | nil => exact h
  | cons event script =>
    cases event with
    | pending => exact h.tail
    | fail e => exact h.tail
    | chunk c =>
      rw [Source.pollRead]
      dsimp only
      split
      · exact h.tail
      · rename_i hlong
        intro event hmem
        rcases mem_cons.mp hmem with heq | hmem
        · rw [heq]
          intro hnil
          have hlength := congrArg length hnil
          rw [length_drop, length_nil] at hlength
          omega
        · exact h _ (mem_cons_of_mem _ hmem)

end Source

/-!
## Sessions
-/

structure Writer (σ : Type) where
  pollWrite : σ -> Sink -> List Byte -> Outcome Nat × σ × Sink
  pollFlush : σ -> Sink -> Outcome Unit × σ × Sink

inductive Call where
  | write (buf : List Byte)
  | flush
deriving DecidableEq, Repr

/-- A writer on its sink, with the buffer whose write is pending, all buffers whose write was
begun, and the bytes whose write was reported. -/
structure Session (σ : Type) where
  state : σ
  sink : Sink
  inFlight : Option (List Byte)
  offered : List (List Byte)
  reported : List Byte

variable {σ : Type}

def Session.start (state : σ) (script : List WriteEvent) : Session σ where
  state := state
  sink := ⟨[], script⟩
  inFlight := none
  offered := []
  reported := []

def Outcome.isPending {α : Type} : Outcome α -> Bool
  | .pending => true
  | .ready _ => false
  | .failed _ => false

def Outcome.written (buf : List Byte) : Outcome Nat -> List Byte
  | .pending => []
  | .ready n => buf.take n
  | .failed _ => []

def Writer.step (w : Writer σ) (s : Session σ) : Call -> Session σ
  | .write buf =>
    let r := w.pollWrite s.state s.sink buf
    { state := r.2.1
      sink := r.2.2
      inFlight := if r.1.isPending then some buf else none
      offered := if s.inFlight.isSome then s.offered else s.offered ++ [buf]
      reported := s.reported ++ r.1.written buf }
  | .flush =>
    let r := w.pollFlush s.state s.sink
    { s with state := r.2.1, sink := r.2.2 }

def Session.Repolls (s : Session σ) : Call -> Prop
  | .write buf => s.inFlight = none ∨ s.inFlight = some buf
  | .flush => True

instance (s : Session σ) : (call : Call) -> Decidable (s.Repolls call)
  | .write buf => inferInstanceAs (Decidable (s.inFlight = none ∨ s.inFlight = some buf))
  | .flush => isTrue trivial

theorem Session.Repolls.eq {s : Session σ} {buf pending : List Byte} (h : s.Repolls (.write buf))
    (hflight : s.inFlight = some pending) : pending = buf := by
  rcases h with hnone | hsome
  · rw [hflight] at hnone
    cases hnone
  · rw [hflight] at hsome
    exact Option.some.inj hsome

def Session.pendingBytes (s : Session σ) : List Byte :=
  s.inFlight.getD []

theorem Writer.step_write {w : Writer σ} {s : Session σ} {buf : List Byte} {o : Outcome Nat}
    {state : σ} {sink : Sink} (h : w.pollWrite s.state s.sink buf = (o, state, sink)) :
    w.step s (.write buf) =
      { state := state
        sink := sink
        inFlight := if o.isPending then some buf else none
        offered := if s.inFlight.isSome then s.offered else s.offered ++ [buf]
        reported := s.reported ++ o.written buf } := by
  rw [Writer.step, h]

theorem Writer.step_flush {w : Writer σ} {s : Session σ} {o : Outcome Unit} {state : σ}
    {sink : Sink} (h : w.pollFlush s.state s.sink = (o, state, sink)) :
    w.step s .flush = { s with state := state, sink := sink } := by
  rw [Writer.step, h]

theorem Session.offered_write {s : Session σ} {buf : List Byte} (hrepolls : s.Repolls (.write buf))
    (hoffered : s.offered.flatten = s.reported ++ s.pendingBytes) :
    (if s.inFlight.isSome then s.offered else s.offered ++ [buf]).flatten = s.reported ++ buf := by
  rw [Session.pendingBytes] at hoffered
  cases hflight : s.inFlight with
  | none =>
    rw [hflight, Option.getD_none, append_nil] at hoffered
    rw [Option.isSome_none, if_neg Bool.false_ne_true, flatten_append, hoffered,
      flatten_singleton]
  | some pending =>
    rw [hflight, Option.getD_some, hrepolls.eq hflight] at hoffered
    rw [Option.isSome_some, if_pos rfl, hoffered]

/-!
## Readings
-/

structure Reader (σ : Type) where
  pollRead : σ -> Source -> Nat -> Outcome (List Byte) × σ × Source

inductive Ending where
  | eof
  | failed (error : IoError)
deriving DecidableEq, Repr

/-- A reader on its source, with what it has delivered, how the stream has ended, and what was
delivered after that. -/
structure Reading (σ : Type) where
  state : σ
  source : Source
  delivered : List Byte
  ending : Option Ending
  late : List Byte

def Reading.start (state : σ) (script : List ReadEvent) : Reading σ where
  state := state
  source := ⟨script⟩
  delivered := []
  ending := none
  late := []

def endingOf (got : List Byte) : Option Ending :=
  if got = [] then some .eof else none

/-- One poll with a buffer of the given size. -/
def Reader.step (r : Reader σ) (s : Reading σ) (cap : Nat) : Reading σ :=
  match r.pollRead s.state s.source cap with
  | (.pending, state, source) => { s with state := state, source := source }
  | (.failed e, state, source) =>
    { s with state := state, source := source, ending := s.ending.or (some (.failed e)) }
  | (.ready got, state, source) =>
    match s.ending with
    | none =>
      { s with
        state := state
        source := source
        delivered := s.delivered ++ got
        ending := endingOf got }
    | some _ => { s with state := state, source := source, late := s.late ++ got }

theorem Reader.step_source (r : Reader σ) (s : Reading σ) (cap : Nat) :
    (r.step s cap).source = (r.pollRead s.state s.source cap).2.2 := by
  unfold Reader.step
  split
  · rename_i hpoll
    rw [hpoll]
  · rename_i hpoll
    rw [hpoll]
  · rename_i hpoll
    rw [hpoll]
    split
    · rfl
    · rfl

def Outcome.read : Outcome (List Byte) -> List Byte
  | .pending => []
  | .ready got => got
  | .failed _ => []

def Reading.all (s : Reading σ) : List Byte :=
  s.delivered ++ s.late

def Reading.Ordered (s : Reading σ) : Prop :=
  s.ending = none -> s.late = []

theorem Reader.step_fields {r : Reader σ} {s : Reading σ} {cap : Nat} {o : Outcome (List Byte)}
    {state : σ} {source : Source} (h : r.pollRead s.state s.source cap = (o, state, source))
    (hordered : s.Ordered) :
    (r.step s cap).state = state ∧ (r.step s cap).source = source ∧
      (r.step s cap).all = s.all ++ o.read ∧ (r.step s cap).Ordered := by
  rw [Reader.step, h]
  cases o with
  | pending => exact ⟨rfl, rfl, (append_nil _).symm, hordered⟩
  | failed e =>
    refine ⟨rfl, rfl, (append_nil _).symm, ?_⟩
    intro hnone
    rw [Option.or_eq_none_iff] at hnone
    cases hnone.2
  | ready got =>
    cases hend : s.ending with
    | none =>
      have hlate := hordered hend
      refine ⟨rfl, rfl, ?_, fun _ => hlate⟩
      rw [Reading.all, Reading.all, hlate, append_nil, append_nil]
      rfl
    | some e =>
      refine ⟨rfl, rfl, (append_assoc _ _ _).symm, ?_⟩
      intro hnone
      cases (show some e = none from hnone)

/-- What a poll may do while `owed` is still to be delivered. -/
inductive PollRule (Inv : σ -> Source -> List Byte -> Prop)
    (measure : σ -> Source -> List Byte -> Nat) (Final : Ending -> Prop) (bound : Nat)
    (owed : List Byte) : Outcome (List Byte) × σ × Source -> Prop
  | pending {state : σ} {source : Source} (hinv : Inv state source owed)
      (hless : measure state source owed < bound) :
      PollRule Inv measure Final bound owed (.pending, state, source)
  | data {state : σ} {source : Source} {got later : List Byte} (hgot : got ≠ [])
      (howed : owed = got ++ later) (hinv : Inv state source later)
      (hless : measure state source later < bound) :
      PollRule Inv measure Final bound owed (.ready got, state, source)
  | eof {state : σ} {source : Source} (howed : owed = []) (hfinal : Final .eof) :
      PollRule Inv measure Final bound owed (.ready [], state, source)
  | failed {state : σ} {source : Source} {e : IoError} (howed : owed = [])
      (hfinal : Final (.failed e)) :
      PollRule Inv measure Final bound owed (.failed e, state, source)

theorem PollRule.mono {Inv : σ -> Source -> List Byte -> Prop}
    {measure : σ -> Source -> List Byte -> Nat} {Final : Ending -> Prop} {bound bound' : Nat}
    {owed : List Byte} {answer : Outcome (List Byte) × σ × Source}
    (h : PollRule Inv measure Final bound owed answer) (hle : bound ≤ bound') :
    PollRule Inv measure Final bound' owed answer := by
  cases h with
  | pending hinv hless => exact .pending hinv (Nat.lt_of_lt_of_le hless hle)
  | data hgot howed hinv hless => exact .data hgot howed hinv (Nat.lt_of_lt_of_le hless hle)
  | eof howed hfinal => exact .eof howed hfinal
  | failed howed hfinal => exact .failed howed hfinal

/-- The reader delivers what it owes, and then ends the stream in the way it should. -/
def Reader.Serves (r : Reader σ) (Inv : σ -> Source -> List Byte -> Prop)
    (measure : σ -> Source -> List Byte -> Nat) (Final : Ending -> Prop)
    (ok : σ -> Source -> Nat -> Prop) : Prop :=
  forall state source owed cap, Inv state source owed -> ok state source cap ->
    PollRule Inv measure Final (measure state source owed) owed (r.pollRead state source cap)

def Reading.Polls (ok : σ -> Source -> Nat -> Prop) (s : Reading σ) (cap : Nat) : Prop :=
  s.ending = none -> ok s.state s.source cap

instance (ok : σ -> Source -> Nat -> Prop)
    [forall state source cap, Decidable (ok state source cap)] (s : Reading σ) (cap : Nat) :
    Decidable (s.Polls ok cap) :=
  inferInstanceAs (Decidable (s.ending = none -> ok s.state s.source cap))

def Reading.Owes (Inv : σ -> Source -> List Byte -> Prop) (Final : Ending -> Prop)
    (total : List Byte) (s : Reading σ) : Prop :=
  (s.ending = none ∧ exists owed, s.delivered ++ owed = total ∧ Inv s.state s.source owed) ∨
    exists e, s.ending = some e ∧ Final e ∧ s.delivered = total

section Serves

variable {r : Reader σ} {Inv : σ -> Source -> List Byte -> Prop}
  {measure : σ -> Source -> List Byte -> Nat} {Final : Ending -> Prop}
  {ok : σ -> Source -> Nat -> Prop} {total : List Byte}

theorem Reader.step_ended {s : Reading σ} {e : Ending} (h : s.ending = some e) (cap : Nat) :
    (r.step s cap).ending = some e ∧ (r.step s cap).delivered = s.delivered := by
  unfold Reader.step
  split
  · exact ⟨h, rfl⟩
  · rw [h]
    exact ⟨rfl, rfl⟩
  · rw [h]
    exact ⟨rfl, rfl⟩

theorem Reader.step_delivered {s : Reading σ} {cap : Nat}
    (h : (r.step s cap).ending.isSome = true) : (r.step s cap).delivered = s.delivered := by
  unfold Reader.step at h ⊢
  split
  · rfl
  · rfl
  · rename_i got state source hpoll
    rw [hpoll] at h
    cases hend : s.ending with
    | none =>
      rw [hend] at h
      dsimp only [endingOf] at h ⊢
      split at h
      · rename_i hnil
        rw [hnil, append_nil]
      · cases h
    | some e => rfl

theorem Reader.Serves.step (hserves : r.Serves Inv measure Final ok) (s : Reading σ) (cap : Nat)
    (h : s.Owes Inv Final total) (hok : s.Polls ok cap) :
    (r.step s cap).Owes Inv Final total := by
  rcases h with ⟨hnone, owed, htotal, hinv⟩ | ⟨e, hend, hfinal, htotal⟩
  · have hrule := hserves s.state s.source owed cap hinv (hok hnone)
    generalize hpoll : r.pollRead s.state s.source cap = answer at hrule
    rw [Reader.step, hpoll]
    cases hrule with
    | pending hinv' hless => exact .inl ⟨hnone, owed, htotal, hinv'⟩
    | data hgot howed hinv' hless =>
      rename_i state source got later
      rw [hnone]
      refine .inl ⟨if_neg hgot, later, ?_, hinv'⟩
      rw [append_assoc, ← howed, htotal]
    | eof howed hfinal =>
      rw [hnone]
      rw [howed] at htotal
      exact .inr ⟨.eof, rfl, hfinal, htotal⟩
    | failed howed hfinal =>
      rename_i e
      rw [howed, append_nil] at htotal
      refine .inr ⟨.failed e, ?_, hfinal, htotal⟩
      dsimp only
      rw [hnone, Option.none_or]
  · obtain ⟨hend', hdelivered⟩ := r.step_ended hend cap
    exact .inr ⟨e, hend', hfinal, hdelivered.trans htotal⟩

theorem Reader.Serves.run (hserves : r.Serves Inv measure Final ok) {state : σ}
    {script : List ReadEvent} (hinv : Inv state ⟨script⟩ total) {caps : List Nat}
    (hcaps : Run.Along r.step (Reading.Polls ok) (Reading.start state script) caps) :
    (Run.run r.step (Reading.start state script) caps).Owes Inv Final total :=
  Run.run_invariant (Reader.Serves.step hserves) (.inl ⟨rfl, total, rfl, hinv⟩) hcaps

theorem Reader.ended_run {s : Reading σ} {e : Ending} (h : s.ending = some e) (caps : List Nat) :
    (Run.run r.step s caps).ending = some e := by
  induction caps generalizing s with
  | nil => exact h
  | cons cap caps ih => exact ih (r.step_ended h cap).1

/-- Enough polls end the stream. -/
theorem Reader.Serves.ends (hserves : r.Serves Inv measure Final ok) {s : Reading σ}
    {owed : List Byte} (hinv : Inv s.state s.source owed) {caps : List Nat}
    (hcaps : Run.Along r.step (Reading.Polls ok) s caps)
    (hlong : measure s.state s.source owed < caps.length) :
    (Run.run r.step s caps).ending.isSome = true := by
  induction caps generalizing s owed with
  | nil => exact absurd hlong (Nat.not_lt_zero _)
  | cons cap caps ih =>
    cases hend : s.ending with
    | some e =>
      rw [Reader.ended_run hend]
      rfl
    | none =>
      have hrule := hserves s.state s.source owed cap hinv (hcaps.1 hend)
      have hlater := hcaps.2
      rw [Run.run_cons]
      generalize hpoll : r.pollRead s.state s.source cap = answer at hrule
      rw [Reader.step, hpoll] at hlater ⊢
      rw [length_cons] at hlong
      cases hrule with
      | pending hinv' hless => exact ih hinv' hlater (by dsimp only; omega)
      | data hgot howed hinv' hless =>
        rw [hend] at hlater ⊢
        exact ih hinv' hlater (by dsimp only; omega)
      | eof howed hfinal =>
        rw [hend, @Reader.ended_run _ _ _ .eof rfl]
        rfl
      | failed howed hfinal =>
        rename_i state source e
        have hstop : ({ s with
            state := state
            source := source
            ending := s.ending.or (some (.failed e)) } : Reading σ).ending =
              some (.failed e) := by
          rw [hend, Option.none_or]
        rw [Reader.ended_run hstop]
        rfl

end Serves

end Poll
end FrpRs
