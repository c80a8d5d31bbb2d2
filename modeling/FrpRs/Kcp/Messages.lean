import FrpRs.Kcp.Receive
import FrpRs.Kcp.RoundTripTime

/-!
# Messages in the order of their numbers

A message is a chain of segments up to the first one with fragment number zero.  The
segments a machine can hand out are those of its receive queue and the front part of the
reassembly buffer that follows them without a gap.  Receiving only appends to them, and
`recv` takes them away at the front, message by message.
-/

namespace FrpRs
namespace Kcp

open List Bytes
open Fallible
open Serial

variable {Output : Type}

/-!
## Chains
-/

/-- The complete messages of a sequence of segments, when `acc` is what an unfinished chain
before them carried. -/
def messagesAfter (acc : List Byte) : List KcpSegment -> List (List Byte)
  | [] => []
  | seg :: rest =>
    if seg.frg = 0 then (acc ++ seg.data) :: messagesAfter [] rest
    else messagesAfter (acc ++ seg.data) rest

def messages (segs : List KcpSegment) : List (List Byte) :=
  messagesAfter [] segs

def EndsMessage (segs : List KcpSegment) : Prop :=
  forall s, segs.getLast? = some s -> s.frg = 0

theorem endsMessage_nil : EndsMessage [] := by
  intro s h
  cases h

theorem EndsMessage.append {a b : List KcpSegment} (hb : EndsMessage b) (hne : b ≠ []) :
    EndsMessage (a ++ b) := by
  intro s h
  rw [getLast?_append_of_ne_nil a hne] at h
  exact hb s h

variable {segs : List KcpSegment}

theorem EndsMessage.tail {seg : KcpSegment} (h : EndsMessage (seg :: segs)) : EndsMessage segs := by
  intro s hs
  apply h
  cases segs with
  | nil => cases hs
  | cons next rest => rw [getLast?_cons_cons, hs]

variable {done : List KcpSegment}

theorem messagesAfter_append {acc : List Byte} (h : EndsMessage done) (hacc : done = [] -> acc = [])
    (rest : List KcpSegment) :
    messagesAfter acc (done ++ rest) = messagesAfter acc done ++ messages rest := by
  induction done generalizing acc with
  | nil =>
    rw [hacc rfl]
    rfl
  | cons seg done ih =>
    rw [cons_append, messagesAfter, messagesAfter]
    split
    · rw [ih h.tail fun _ => rfl]
      rfl
    · rename_i hmore
      apply ih h.tail
      intro hend
      rw [hend] at h
      exact absurd (h seg rfl) hmore

theorem messages_append (h : EndsMessage done) (rest : List KcpSegment) :
    messages (done ++ rest) = messages done ++ messages rest :=
  messagesAfter_append h (fun _ => rfl) rest

theorem mergeChain_split (h : exists s, s ∈ segs ∧ s.frg = 0) :
    exists chain, segs = chain ++ (mergeChain segs).2 ∧ chain ≠ [] ∧ EndsMessage chain ∧
      forall acc, messagesAfter acc chain = [acc ++ (mergeChain segs).1] := by
  induction segs with
  | nil =>
    rcases h with ⟨s, hs, _⟩
    cases hs
  | cons seg rest ih =>
    by_cases hend : seg.frg = 0
    · rw [mergeChain, if_pos hend]
      refine ⟨[seg], rfl, cons_ne_nil _ _, ?_, ?_⟩
      · intro s hs
        cases hs
        exact hend
      · intro acc
        rw [messagesAfter, if_pos hend]
        rfl
    · have hrest : exists s, s ∈ rest ∧ s.frg = 0 := by
        rcases h with ⟨s, hs, hzero⟩
        rcases mem_cons.mp hs with heq | hmem
        · rw [heq] at hzero
          exact absurd hzero hend
        · exact ⟨s, hmem, hzero⟩
      rcases ih hrest with ⟨chain, hsplit, hne, hends, hmessage⟩
      rw [mergeChain, if_neg hend]
      refine ⟨seg :: chain, ?_, cons_ne_nil _ _, ?_, ?_⟩
      · rw [cons_append, ← hsplit]
      · exact @EndsMessage.append [seg] chain hends hne
      · intro acc
        rw [messagesAfter, if_neg hend, hmessage, append_assoc]

theorem length_mergeChain (segs : List KcpSegment) :
    (mergeChain segs).1.length = chainLength segs := by
  induction segs with
  | nil =>
    rfl
  | cons seg rest ih =>
    rw [mergeChain, chainLength]
    split
    · rfl
    · rw [length_append, ih]

/-- Every message ends within as many fragments as its first one announces, and none announces
255 more. -/
def Announced (segs : List KcpSegment) : Prop :=
  forall pre seg post, segs = pre ++ seg :: post -> EndsMessage pre -> seg.frg ≠ 0 ->
    seg.frg ≠ 255 ∧ (seg.frg.toNat ≤ post.length ->
      exists s, s ∈ post.take seg.frg.toNat ∧ s.frg = 0)

theorem Announced.of_append {a b : List KcpSegment} (h : Announced (a ++ b)) : Announced a := by
  intro pre seg post hsplit hends hfrg
  rcases h pre seg (post ++ b) (by rw [hsplit]; simp) hends hfrg with ⟨hmax, hend⟩
  refine ⟨hmax, ?_⟩
  intro hlen
  rcases hend (by rw [length_append]; omega) with ⟨s, hs, hzero⟩
  rw [take_append_of_le_length hlen] at hs
  exact ⟨s, hs, hzero⟩

theorem announced_of_single (h : forall s, s ∈ segs -> s.frg = 0) :
    Announced segs := by
  intro pre seg post hsplit _ hfrg
  have hmem : seg ∈ segs := by
    rw [hsplit]
    exact mem_append_right _ mem_cons_self
  exact absurd (h seg hmem) hfrg

/-!
## What a machine can hand out
-/

/-- The front part of a reassembly buffer that starts with number `nxt` and has no gap. -/
def contiguous (nxt : UInt32) : List KcpSegment -> List KcpSegment
  | [] => []
  | seg :: rest => if seg.sn = nxt then seg :: contiguous (nxt + 1) rest else []

def receivable (k : Kcp Output) : List KcpSegment :=
  k.rcvQueue ++ contiguous k.rcvNxt k.rcvBuf

theorem moveBufLoop_receivable (wnd : UInt16) (nxt : UInt32) (queue buf : List KcpSegment) :
    (moveBufLoop wnd nxt queue buf).2.1 ++
        contiguous (moveBufLoop wnd nxt queue buf).1 (moveBufLoop wnd nxt queue buf).2.2 =
      queue ++ contiguous nxt buf := by
  induction buf generalizing nxt queue with
  | nil =>
    rfl
  | cons seg rest ih =>
    unfold moveBufLoop
    split
    · rename_i hfront
      rw [ih, contiguous, if_pos hfront.1, append_assoc, singleton_append]
    · rfl

theorem receivable_moveBuf (k : Kcp Output) : receivable (moveBuf k) = receivable k :=
  moveBufLoop_receivable k.rcvWnd k.rcvNxt k.rcvQueue k.rcvBuf

theorem consecutive_contiguous (nxt : UInt32) (buf : List KcpSegment) :
    Consecutive nxt (sns (contiguous nxt buf)) := by
  induction buf generalizing nxt with
  | nil =>
    trivial
  | cons seg rest ih =>
    unfold contiguous
    split
    · rename_i hfront
      exact ⟨hfront, ih (nxt + 1)⟩
    · trivial

theorem consecutive_append {nxt : UInt32} {a b : List UInt32} (ha : Consecutive nxt a)
    (hb : Consecutive (nxt + UInt32.ofNat a.length) b) : Consecutive nxt (a ++ b) := by
  induction a generalizing nxt with
  | nil =>
    simpa using hb
  | cons sn rest ih =>
    refine ⟨ha.1, ih ha.2 ?_⟩
    rw [length_cons, Nat.add_comm rest.length 1, UInt32.ofNat_add, ← UInt32.add_assoc] at hb
    exact hb

/-!
## Inserting keeps the front
-/

variable {new : KcpSegment}

theorem insertScan_split {segs out : List KcpSegment} (h : insertScan new segs = some out) :
    exists a b, segs = a ++ b ∧ out = a ++ new :: b := by
  induction segs generalizing out with
  | nil =>
    cases h
    exact ⟨[], [], rfl, rfl⟩
  | cons seg rest ih =>
    unfold insertScan at h
    split at h
    · cases h
    · split at h
      · cases h
        exact ⟨[], seg :: rest, rfl, rfl⟩
      · rcases Option.map_eq_some_iff.mp h with ⟨tail, htail, hout⟩
        rcases ih htail with ⟨a, b, hsplit, hinserted⟩
        refine ⟨seg :: a, b, ?_, ?_⟩
        · rw [hsplit, cons_append]
        · rw [← hout, hinserted, cons_append]

theorem insertData_split (new : KcpSegment) (buf : List KcpSegment) :
    insertData new buf = buf ∨
      exists lo hi, buf = lo ++ hi ∧ insertData new buf = lo ++ new :: hi := by
  unfold insertData
  cases hscan : insertScan new buf.reverse with
  | none =>
    exact .inl rfl
  | some out =>
    rcases insertScan_split hscan with ⟨a, b, hsplit, hinserted⟩
    refine .inr ⟨b.reverse, a.reverse, ?_, ?_⟩
    · rw [← reverse_append, ← hsplit, reverse_reverse]
    · show out.reverse = b.reverse ++ new :: a.reverse
      rw [hinserted, reverse_append, reverse_cons, append_assoc]
      rfl

variable {size : Nat}

/-- A segment put between smaller and larger numbers does not disturb the gapless front. -/
theorem contiguous_insert {nxt : UInt32} {lo hi : List KcpSegment}
    (h : InWindow nxt size (sns (lo ++ new :: hi))) :
    exists more, contiguous nxt (lo ++ new :: hi) = contiguous nxt (lo ++ hi) ++ more := by
  induction lo generalizing nxt size with
  | nil =>
    refine ⟨contiguous nxt (new :: hi), ?_⟩
    cases hi with
    | nil =>
      rfl
    | cons seg rest =>
      have hlt : offset nxt new.sn < offset nxt seg.sn :=
        rel_of_pairwise_cons h.increasing mem_cons_self
      have hne : seg.sn ≠ nxt := by
        intro heq
        rw [heq, offset_self] at hlt
        exact Nat.not_lt_zero _ hlt
      rw [nil_append, nil_append]
      rw [show contiguous nxt (seg :: rest) = [] from if_neg hne]
      rfl
  | cons head lo ih =>
    rw [cons_append, cons_append, contiguous, contiguous]
    split
    · rename_i hfront
      have htail : InWindow (nxt + 1) (size - offset nxt (nxt + 1)) (sns (lo ++ new :: hi)) := by
        have hrest := h.sublist (sublist_cons_self _ _)
        apply hrest.rebase
        intro sn hsn
        have hlt : offset nxt head.sn < offset nxt sn :=
          rel_of_pairwise_cons h.increasing hsn
        rw [hfront, offset_self] at hlt
        rw [offset_succ_of_lt (by simp), offset_self]
        exact hlt
      rcases ih htail with ⟨more, hmore⟩
      exact ⟨more, by rw [hmore, cons_append]⟩
    · exact ⟨[], rfl⟩

/-!
## Receiving appends
-/

def Unfragmented (k : Kcp Output) : Prop :=
  k.stream = true -> forall s, s ∈ k.rcvQueue ∨ s ∈ k.rcvBuf -> s.frg = 0

/-- The second state has the segments of the first one to hand out, and possibly more behind
them. -/
structure Grows (k k' : Kcp Output) : Prop where
  more : exists more, receivable k' = receivable k ++ more
  moved : exists moved, k'.rcvQueue = k.rcvQueue ++ moved ∧
    k'.rcvNxt = k.rcvNxt + UInt32.ofNat moved.length ∧ Consecutive k.rcvNxt (sns moved)
  stream : k'.stream = k.stream
  plain : Unfragmented k -> Unfragmented k'

theorem SameReceive.grows {k k' : Kcp Output} (h : SameReceive k k') : Grows k k' := by
  constructor
  · refine ⟨[], ?_⟩
    unfold receivable
    rw [h.rcvQueue, h.rcvNxt, h.rcvBuf, append_nil]
  · refine ⟨[], ?_, ?_, trivial⟩
    · rw [h.rcvQueue, append_nil]
    · rw [h.rcvNxt]
      simp
  · exact h.stream
  · intro hplain
    unfold Unfragmented
    rw [h.stream, h.rcvQueue, h.rcvBuf]
    exact hplain

theorem Grows.refl (k : Kcp Output) : Grows k k :=
  (SameReceive.refl k).grows

theorem Grows.trans {k k' k'' : Kcp Output} (h : Grows k k') (h' : Grows k' k'') :
    Grows k k'' := by
  rcases h.more with ⟨more, hmore⟩
  rcases h'.more with ⟨more', hmore'⟩
  rcases h.moved with ⟨moved, hqueue, hnext, hnumbers⟩
  rcases h'.moved with ⟨moved', hqueue', hnext', hnumbers'⟩
  constructor
  · exact ⟨more ++ more', by rw [hmore', hmore, append_assoc]⟩
  · refine ⟨moved ++ moved', ?_, ?_, ?_⟩
    · rw [hqueue', hqueue, append_assoc]
    · rw [hnext', hnext, length_append, UInt32.ofNat_add, UInt32.add_assoc]
    · rw [sns, map_append]
      apply consecutive_append hnumbers
      rw [show (sns moved).length = moved.length from length_map _, ← hnext]
      exact hnumbers'
  · exact h'.stream.trans h.stream
  · intro hplain
    exact h'.plain (h.plain hplain)

theorem moveBuf_grows (k : Kcp Output) : Grows k (moveBuf k) := by
  rcases moveBuf_moved k with ⟨moved, hmoved⟩
  constructor
  · exact ⟨[], by rw [receivable_moveBuf, append_nil]⟩
  · exact ⟨moved, hmoved.queue, hmoved.next, hmoved.numbers⟩
  · rfl
  · intro hplain hstream s hs
    apply hplain hstream
    rw [hmoved.buffer]
    rw [hmoved.queue] at hs
    rcases hs with hqueue | hbuf
    · rcases mem_append.mp hqueue with hold | hnew
      · exact .inl hold
      · exact .inr (mem_append_left _ hnew)
    · exact .inr (mem_append_right _ hbuf)

variable {k : Kcp Output}

theorem insert_grows (h : Windowed k) (hnew : offset k.rcvNxt new.sn < k.rcvWnd.toNat)
    (hfrg : k.stream = true -> new.frg = 0) :
    Grows k { k with rcvBuf := insertData new k.rcvBuf } := by
  have hw := toNat_lt_of_u16 k.rcvWnd
  have hwindow := insertData_window (by omega) hnew h.recv.within
  constructor
  · rcases insertData_split new k.rcvBuf with hsame | ⟨lo, hi, hsplit, hinserted⟩
    · refine ⟨[], ?_⟩
      rw [hsame, append_nil]
    · rw [hinserted] at hwindow
      rcases contiguous_insert hwindow with ⟨more, hmore⟩
      refine ⟨more, ?_⟩
      unfold receivable
      rw [hinserted, hsplit, append_assoc]
      exact congrArg (k.rcvQueue ++ ·) hmore
  · exact ⟨[], by simp, by simp, trivial⟩
  · rfl
  · intro hplain hstream s hs
    rcases hs with hqueue | hbuf
    · exact hplain hstream s (.inl hqueue)
    · rcases mem_of_insertData hbuf with heq | hold
      · rw [heq]
        exact hfrg hstream
      · exact hplain hstream s (.inr hold)

theorem parseData_grows (h : Windowed k) (new : KcpSegment) (hfrg : k.stream = true -> new.frg = 0) :
    Grows k (k.parseData new) := by
  unfold parseData
  split
  · exact Grows.refl k
  · rename_i hinside
    rw [not_or] at hinside
    have hnew := offset_lt_of_window_tests hinside.1 hinside.2
    exact (insert_grows h hnew hfrg).trans (moveBuf_grows _)

theorem inputPush_grows (h : Windowed k) (hd : SegmentHeader) (body : List Byte) :
    Grows k (k.inputPush hd body).2 := by
  have hack : Grows k (k.ackPush hd.sn hd.ts) :=
    ⟨⟨[], by simp [receivable, ackPush]⟩, ⟨[], by simp [ackPush], by simp [ackPush], trivial⟩, rfl,
      fun hplain => hplain⟩
  rcases inputPush_cases k hd body with
    ⟨_, heq⟩ | ⟨_, _, heq⟩ | ⟨_, _, _, e, heq⟩ | ⟨_, _, hvalid, heq⟩
  · rw [heq]
    exact Grows.refl k
  · rw [heq]
    exact hack
  · rw [heq]
    exact hack
  · rw [heq]
    have hwindow : Windowed (k.ackPush hd.sn hd.ts) := ⟨h.send, h.recv⟩
    apply hack.trans
    apply parseData_grows hwindow
    intro hstream
    apply Decidable.byContradiction
    intro hfrg
    exact hvalid (.inl ⟨hstream, hfrg⟩)

theorem inputCommand_grows (h : Windowed k) (scan : AckScan) (hd : SegmentHeader) (body : List Byte) :
    Grows k (k.inputCommand scan hd body).2 := by
  unfold inputCommand
  split
  · exact (inputAck_sameReceive k hd).grows
  · split
    · apply andThen_state
      · exact inputPush_grows h hd body
      · intro _ _ _ hk'
        exact hk'
    · split
      · exact SameReceive.grows ⟨rfl, rfl, rfl, rfl, rfl, rfl, rfl⟩
      · exact Grows.refl k

theorem inputSegment_grows (h : Windowed k) (scan : AckScan) (hd : SegmentHeader) (body : List Byte) :
    Grows k (k.inputSegment scan hd body).2 := by
  have hadopt : Grows k (k.adoptConv hd.conv).2 ∧ Windowed (k.adoptConv hd.conv).2 := by
    constructor
    · exact (adoptConv_sameReceive k hd.conv).grows
    · rcases adoptConv_frame k hd.conv with ⟨conv, inputConv, hadopt⟩
      rw [hadopt]
      exact ⟨h.send, h.recv⟩
  unfold inputSegment
  rcases hres : k.adoptConv hd.conv with ⟨res, k'⟩
  rw [hres] at hadopt
  cases res with
  | error e =>
    exact hadopt.1
  | ok _ =>
    split
    · exact hadopt.1
    · split
      · exact hadopt.1
      · exact (hadopt.1.trans (inputCommon_sameReceive k' hd).grows).trans
          (inputCommand_grows (inputCommon_windowed hadopt.2 hd) scan hd body)

theorem inputLoop_grows (h : Windowed k) (fuel : Nat) (scan : AckScan) (buf : List Byte) :
    Grows k (inputLoop fuel k scan buf).2 := by
  induction fuel generalizing k scan buf with
  | zero =>
    exact Grows.refl k
  | succ fuel ih =>
    unfold inputLoop
    split
    · exact Grows.refl k
    · have hsegment := inputSegment_grows h scan (readHeader buf) (buf.drop overhead)
      have hwindow := inputSegment_windowed h scan (readHeader buf) (buf.drop overhead)
      dsimp only
      rcases hres : k.inputSegment scan (readHeader buf) (buf.drop overhead) with ⟨res, k'⟩
      rw [hres] at hsegment hwindow
      cases res with
      | error e =>
        exact hsegment
      | ok scan' =>
        exact hsegment.trans (ih hwindow scan' _)

theorem input_grows (h : Windowed k) (buf : List Byte) :
    Grows k (k.input buf).2 := by
  unfold input
  split
  · exact Grows.refl k
  · apply andThen_state
    · exact inputLoop_grows h buf.length {} buf
    · intro scanned k' _ hk'
      exact hk'.trans (inputFinish_sameReceive k' scanned.1 k.sndUna).grows

/-!
## Taking a message
-/

theorem complete_of_peeksize (hannounced : Announced (done ++ receivable k))
    (hends : EndsMessage done) (h : k.peeksize = .ok size) :
    exists s, s ∈ k.rcvQueue ∧ s.frg = 0 := by
  unfold peeksize at h
  split at h
  · cases h
  · rename_i seg rest hqueue
    split at h
    · rename_i hsingle
      exact ⟨seg, by rw [hqueue]; exact mem_cons_self, hsingle⟩
    · rename_i hfrg
      split at h
      · cases h
      · rename_i hlong
        have hsplit : done ++ receivable k =
            done ++ seg :: (rest ++ contiguous k.rcvNxt k.rcvBuf) := by
          unfold receivable
          rw [hqueue, cons_append]
        rcases hannounced done seg _ hsplit hends hfrg with ⟨hmax, hend⟩
        have hlt : seg.frg.toNat < 255 := by
          have hle := seg.frg.toNat_lt
          have hne : seg.frg.toNat ≠ 255 := fun heq => hmax (UInt8.toNat_inj.mp heq)
          omega
        have hrest : seg.frg.toNat ≤ rest.length := by
          rw [hqueue, length_cons, UInt8.toNat_add] at hlong
          have hone : (1 : UInt8).toNat = 1 := rfl
          omega
        rcases hend (by rw [length_append]; omega) with ⟨s, hs, hzero⟩
        rw [take_append_of_le_length hrest] at hs
        refine ⟨s, ?_, hzero⟩
        rw [hqueue]
        exact mem_cons_of_mem _ (mem_of_mem_take hs)

theorem peeksize_eq (h : k.peeksize = .ok size) :
    k.rcvQueue ≠ [] ∧ size = (mergeChain k.rcvQueue).1.length := by
  rw [length_mergeChain]
  unfold peeksize at h
  split at h
  · cases h
  · rename_i seg rest hqueue
    rw [hqueue]
    refine ⟨cons_ne_nil _ _, ?_⟩
    split at h
    · rename_i hsingle
      cases h
      rw [chainLength, if_pos hsingle]
    · split at h
      · cases h
      · cases h
        rfl

theorem recv_of_peeksize (h : k.peeksize = .ok size) :
    exists probe, k.recv size = (.ok (mergeChain k.rcvQueue).1,
      { moveBuf { k with rcvQueue := (mergeChain k.rcvQueue).2 } with probe := probe }) := by
  rcases recv_cases k size with ⟨e, herr⟩ | ⟨_, probe, hok⟩
  · unfold recv at herr
    rw [if_neg (by simpa using (peeksize_eq h).1), h] at herr
    simp only [Nat.lt_irrefl, gt_iff_lt, if_false] at herr
    split at herr
    · cases herr
    · cases herr
  · exact ⟨probe, hok⟩

/-!
## Stream mode
-/

theorem Unfragmented.kept {k k' : Kcp Output} (h : Unfragmented k) (hk : SameSession k k') :
    Unfragmented k' := by
  unfold Unfragmented
  rw [hk.stream, hk.rcvQueue, hk.rcvBuf]
  exact h

theorem mem_of_mem_mergeChain {s : KcpSegment} (h : s ∈ (mergeChain segs).2) : s ∈ segs := by
  induction segs with
  | nil =>
    cases h
  | cons seg rest ih =>
    unfold mergeChain at h
    split at h
    · exact mem_cons_of_mem _ h
    · exact mem_cons_of_mem _ (ih h)

theorem Unfragmented.recv (h : Unfragmented k) (bufLen : Nat) :
    Unfragmented (k.recv bufLen).2 := by
  rcases recv_cases k bufLen with ⟨e, herr⟩ | ⟨_, probe, hok⟩
  · rw [herr]
    exact h
  · have hrest : Unfragmented { k with rcvQueue := (mergeChain k.rcvQueue).2 } := by
      intro hstream s hs
      rcases hs with hqueue | hbuf
      · exact h hstream s (.inl (mem_of_mem_mergeChain hqueue))
      · exact h hstream s (.inr hbuf)
    rw [hok]
    exact (moveBuf_grows _).plain hrest

theorem Reachable.unfragmented [Write Output] {k : Kcp Output} (h : Reachable k) :
    Unfragmented k := by
  induction h with
  | configured conv output stream settings =>
    have hfresh := configured_fresh conv output stream settings
    intro _ s hs
    rw [hfresh.rcvQueue, hfresh.rcvBuf] at hs
    rcases hs with hqueue | hbuf
    · cases hqueue
    · cases hbuf
  | @call k op hk ih =>
    cases op with
    | send buf =>
      rcases send_frame k buf with ⟨queue, hsend⟩
      show Unfragmented (k.send buf).2
      rw [hsend]
      exact ih
    | update current =>
      rcases update_flushed k current with ⟨n, hflushed⟩
      exact ih.kept hflushed.toSameSession
    | flush =>
      rcases flush_flushed k with ⟨n, hflushed⟩
      exact ih.kept hflushed.toSameSession
    | recv bufLen =>
      exact ih.recv bufLen
    | input datagram =>
      exact (input_grows hk.windowed datagram).plain ih
  | drained output _ ih =>
    exact ih
  | common hd _ ih =>
    exact ih
  | command scan hd body hk ih =>
    exact (inputCommand_grows hk.windowed scan hd body).plain ih

theorem mem_of_mem_contiguous {nxt : UInt32} {s : KcpSegment} {buf : List KcpSegment}
    (h : s ∈ contiguous nxt buf) : s ∈ buf := by
  induction buf generalizing nxt with
  | nil =>
    cases h
  | cons seg rest ih =>
    unfold contiguous at h
    split at h
    · rcases mem_cons.mp h with heq | hrest
      · rw [heq]
        exact mem_cons_self
      · exact mem_cons_of_mem _ (ih hrest)
    · cases h

theorem Unfragmented.receivable (h : Unfragmented k) (hstream : k.stream = true) :
    forall s, s ∈ receivable k -> s.frg = 0 := by
  intro s hs
  rcases mem_append.mp hs with hqueue | hbuf
  · exact h hstream s (.inl hqueue)
  · exact h hstream s (.inr (mem_of_mem_contiguous hbuf))

end Kcp
end FrpRs
