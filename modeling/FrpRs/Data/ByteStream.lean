import FrpRs.Data.Bytes
import FrpRs.Data.Fallible

/-!
# Byte sinks and byte sources

A sink accepts a prefix of what a vectored write offers it; how long a prefix is
the sink's own choice, made anew at every call.  A source hands out its bytes in
chunks of arbitrary non-zero length, and an exact read joins as many chunks as it
needs.  What an exact read returns does not depend on where the chunks end.
-/

namespace FrpRs
namespace ByteStream

open List Bytes Fallible

/-!
## Sinks
-/

/-- The bytes a sink has accepted, and the number of calls it has answered. -/
structure Sink where
  held : List Byte
  calls : Nat
deriving DecidableEq, Repr

/-- One vectored write: the answer to call `k` is `response k`, and a sink never
accepts more than it is offered. -/
def Sink.writeVectored (response : Nat -> Except String Nat) (sink : Sink)
    (bufs : List (List Byte)) : Except String Nat × Sink :=
  match response sink.calls with
  | .error e => (.error e, { sink with calls := sink.calls + 1 })
  | .ok n =>
    let n := min n bufs.flatten.length
    (.ok n, { held := sink.held ++ bufs.flatten.take n, calls := sink.calls + 1 })

def Accepting (response : Nat -> Except String Nat) : Prop :=
  forall k, exists n, response k = .ok (n + 1)

theorem writeVectored_ok {response : Nat -> Except String Nat} {sink sink' : Sink}
    {bufs : List (List Byte)} {n : Nat}
    (h : sink.writeVectored response bufs = (.ok n, sink')) :
    n ≤ bufs.flatten.length ∧ sink'.held = sink.held ++ bufs.flatten.take n := by
  unfold Sink.writeVectored at h
  cases hr : response sink.calls with
  | error e =>
    rw [hr] at h
    cases h
  | ok m =>
    rw [hr] at h
    cases h
    exact ⟨Nat.min_le_right _ _, rfl⟩

theorem writeVectored_accepting {response : Nat -> Except String Nat}
    (hacc : Accepting response) (sink : Sink) {bufs : List (List Byte)}
    (hbufs : bufs.flatten ≠ []) :
    exists n, 0 < n ∧ (sink.writeVectored response bufs).1 = .ok n := by
  cases hacc sink.calls with
  | intro m hm =>
    have hlen := length_pos_iff.mpr hbufs
    refine ⟨min (m + 1) bufs.flatten.length, ?_, ?_⟩
    · omega
    · unfold Sink.writeVectored
      rw [hm]

/-!
## Sources
-/

/-- The chunks deliver `bytes`; a chunk is never empty, since an empty read means
the end of the stream. -/
def Chunked (chunks : List (List Byte)) (bytes : List Byte) : Prop :=
  (forall c, c ∈ chunks -> c ≠ []) ∧ chunks.flatten = bytes

theorem chunked_bytewise (bytes : List Byte) :
    Chunked (bytes.map fun b => [b]) bytes := by
  constructor
  · intro c hc
    rw [mem_map] at hc
    rcases hc with ⟨b, _, rfl⟩
    exact cons_ne_nil b []
  · induction bytes with
    | nil =>
      rfl
    | cons b bytes ih =>
      rw [map_cons, flatten_cons, ih, singleton_append]

/-- Reads exactly the given number of bytes, or fails at the end of the stream. -/
def readExact : Nat -> List (List Byte) -> Except String (List Byte) × List (List Byte)
  | 0, chunks => (.ok [], chunks)
  | _ + 1, [] => (.error "early eof", [])
  | need + 1, c :: chunks =>
    if c = [] then (.error "early eof", chunks)
    else if need + 1 < c.length then
      (.ok (c.take (need + 1)), c.drop (need + 1) :: chunks)
    else
      andThen (readExact (need + 1 - c.length) chunks) fun bytes rest =>
        (.ok (c ++ bytes), rest)

variable {chunks : List (List Byte)}

theorem chunked_nil (h : Chunked chunks []) :
    chunks = [] := by
  cases chunks with
  | nil =>
    rfl
  | cons c chunks =>
    have hc := h.1 c (by simp)
    have hflat := h.2
    rw [flatten_cons, append_eq_nil_iff] at hflat
    exact absurd hflat.1 hc

theorem chunked_tail {c : List Byte} {bytes : List Byte} (h : Chunked (c :: chunks) (c ++ bytes)) :
    Chunked chunks bytes := by
  constructor
  · intro d hd
    exact h.1 d (mem_cons_of_mem c hd)
  · have hflat := h.2
    exact append_cancel_left hflat

theorem chunked_head {c : List Byte} {bytes : List Byte} (h : Chunked (c :: chunks) bytes) :
    bytes = c ++ chunks.flatten :=
  h.2.symm.trans flatten_cons

theorem readExact_chunked {bytes rest : List Byte} (h : Chunked chunks (bytes ++ rest)) :
    exists chunks', readExact bytes.length chunks = (.ok bytes, chunks') ∧
      Chunked chunks' rest := by
  induction chunks generalizing bytes with
  | nil =>
    have hflat := h.2
    rw [flatten_nil, eq_comm, append_eq_nil_iff] at hflat
    rcases hflat with ⟨rfl, rfl⟩
    exact ⟨[], rfl, h⟩
  | cons c chunks ih =>
    cases bytes with
    | nil =>
      exact ⟨c :: chunks, rfl, h⟩
    | cons b bytes =>
      have hc : c ≠ [] := h.1 c (by simp)
      have hflat := chunked_head h
      simp only [length_cons, readExact, hc, if_false]
      by_cases hlt : bytes.length + 1 < c.length
      · -- the read ends inside the first chunk
        rw [if_pos hlt]
        have htake : c.take (bytes.length + 1) = b :: bytes := by
          have := congrArg (take (bytes.length + 1)) hflat
          rw [take_append_of_le_length (Nat.le_of_lt hlt)] at this
          rw [← this, take_append_of_le_length (by simp)]
          exact take_of_length_le (by simp)
        have hdrop : c.drop (bytes.length + 1) ++ chunks.flatten = rest := by
          have := congrArg (drop (bytes.length + 1)) hflat
          rw [drop_append_of_le_length (Nat.le_of_lt hlt)] at this
          rw [← this, drop_append_of_le_length (by simp),
            drop_of_length_le (by simp), nil_append]
        refine ⟨_, by rw [htake], ?_, ?_⟩
        · intro d hd
          cases hd with
          | head =>
            intro hnil
            have hlen := congrArg length hnil
            rw [length_drop, length_nil] at hlen
            omega
          | tail _ hd =>
            exact h.1 d (mem_cons_of_mem c hd)
        · rw [flatten_cons, hdrop]
      · -- the first chunk is used up and the rest is read from the others
        rw [if_neg hlt]
        have hle : c.length ≤ (b :: bytes).length := by
          rw [length_cons]
          omega
        have hprefix : c <+: b :: bytes := by
          apply prefix_of_prefix_length_le _ (prefix_append _ rest) hle
          rw [hflat]
          exact prefix_append _ _
        obtain ⟨more, hmore⟩ := hprefix
        have htail : Chunked chunks (more ++ rest) := by
          apply chunked_tail (c := c)
          rw [← append_assoc, hmore]
          exact h
        obtain ⟨chunks', hread, hrest⟩ := ih htail
        have hlen : bytes.length + 1 - c.length = more.length := by
          have := congrArg length hmore
          rw [length_append, length_cons] at this
          omega
        rw [hlen, hread, andThen_ok, hmore]
        exact ⟨chunks', rfl, hrest⟩

theorem readExact_length {need : Nat} {chunks rest : List (List Byte)} {bytes : List Byte}
    (h : readExact need chunks = (.ok bytes, rest)) : bytes.length = need := by
  induction chunks generalizing need bytes rest with
  | nil =>
    cases need with
    | zero =>
      cases h
      rfl
    | succ need =>
      cases h
  | cons c chunks ih =>
    cases need with
    | zero =>
      cases h
      rfl
    | succ need =>
      unfold readExact at h
      split at h
      · cases h
      · split at h
        · rename_i hlong
          cases h
          rw [length_take]
          omega
        · rename_i hshort
          rcases andThen_eq_ok h with ⟨tail, mid, hread, hjoin⟩
          cases hjoin
          rw [length_append, ih hread]
          omega

/-!
## Reading a stream to its end
-/

/-- Repeated reads return these values one after another; the next read then
finds the stream empty and fails with this error. -/
def Yields {α : Type} (read : List (List Byte) -> Except String α × List (List Byte)) :
    List (List Byte) -> List α -> String -> Prop
  | chunks, [], e => chunks = [] ∧ (read chunks).1 = .error e
  | chunks, a :: as, e =>
    exists chunks', read chunks = (.ok a, chunks') ∧ Yields read chunks' as e

theorem yields_flatMap {α : Type} {read : List (List Byte) -> Except String α × List (List Byte)}
    {encode : α -> List Byte} {e : String} (as : List α)
    (hread : forall a, a ∈ as -> forall rest chunks,
      Chunked chunks (encode a ++ rest) ->
      exists chunks', read chunks = (.ok a, chunks') ∧ Chunked chunks' rest)
    (hend : (read []).1 = .error e) (h : Chunked chunks (as.flatMap encode)) :
    Yields read chunks as e := by
  induction as generalizing chunks with
  | nil =>
    have hnil := chunked_nil h
    rw [hnil]
    exact ⟨rfl, hend⟩
  | cons a as ih =>
    obtain ⟨chunks', hone, hrest⟩ := hread a (by simp) _ _ h
    refine ⟨chunks', hone, ih ?_ hrest⟩
    intro b hb
    exact hread b (mem_cons_of_mem a hb)

end ByteStream
end FrpRs
