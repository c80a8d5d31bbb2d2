import FrpRs.Kcp.Messages
import FrpRs.Kcp.SendQueue

/-!
# Every message reaches the stream once

A message that was received is still in the state machine, is the one held back because
the read channel was full, waits in the channel, or was taken by the stream.  In that order
these places always hold the non-empty messages in the order of their numbers, provided
that the fragments of a message are numbered as a sender numbers them.
-/

namespace FrpRs
namespace KcpSession

open List Bytes
open Fallible
open Serial
open Kcp (KcpSegment PacketWriter EndsMessage Announced Grows Unfragmented messages receivable)

/-- A session with what the stream has taken so far and every segment that has become
receivable, in the order of the numbers. -/
structure Flow where
  session : KcpSession
  taken : List (List Byte) := []
  arrived : List KcpSegment := []

/-- A packet may add to the end of what is receivable. -/
def Flow.step (f : Flow) (event : SessionEvent) : Flow where
  session := f.session.step event
  taken :=
    match event with
    | .read => f.taken ++ f.session.readTx.queue.take 1
    | _ => f.taken
  arrived :=
    match event with
    | .input _ _ _ =>
      f.arrived ++ (receivable (f.session.step event).kcp).drop
        (receivable f.session.kcp).length
    | _ => f.arrived

def nonEmpty (frames : List (List Byte)) : List (List Byte) :=
  frames.filter fun frame => !frame.isEmpty

theorem nonEmpty_append (a b : List (List Byte)) :
    nonEmpty (a ++ b) = nonEmpty a ++ nonEmpty b :=
  filter_append a b

/-!
## The account of received segments
-/

/-- The frames in `out` are the messages of the segments that have left the machine, and the
machine holds the others. -/
structure Split (arrived : List KcpSegment) (out : List (List Byte)) (k : Kcp PacketWriter)
    (done : List KcpSegment) : Prop where
  arrived : arrived = done ++ receivable k
  ends : EndsMessage done
  frames : out = nonEmpty (messages done)
  numbers : Consecutive 0 (Kcp.sns (done ++ k.rcvQueue))
  next : k.rcvNxt = UInt32.ofNat (done ++ k.rcvQueue).length

def Accounts (arrived : List KcpSegment) (out : List (List Byte)) (k : Kcp PacketWriter) : Prop :=
  exists done, Split arrived out k done

variable {arrived : List KcpSegment} {out : List (List Byte)} {k k' : Kcp PacketWriter}

theorem Accounts.grows (h : Accounts arrived out k) (hk : Grows k k') :
    Accounts (arrived ++ (receivable k').drop (receivable k).length) out k' := by
  rcases h with ⟨done, hsplit⟩
  rcases hk.more with ⟨more, hmore⟩
  rcases hk.moved with ⟨moved, hqueue, hnext, hnumbers⟩
  refine ⟨done, ?_⟩
  constructor
  · rw [hmore, drop_left, hsplit.arrived, append_assoc]
  · exact hsplit.ends
  · exact hsplit.frames
  · rw [hqueue, ← append_assoc, Kcp.sns, map_append]
    apply Kcp.consecutive_append hsplit.numbers
    rw [show (Kcp.sns (done ++ k.rcvQueue)).length = (done ++ k.rcvQueue).length from
      length_map _, UInt32.zero_add, ← hsplit.next]
    exact hnumbers
  · rw [hnext, hsplit.next, hqueue, ← append_assoc,
      @List.length_append _ (done ++ k.rcvQueue) moved, UInt32.ofNat_add]

theorem Accounts.kept (h : Accounts arrived out k) (hnext : k'.rcvNxt = k.rcvNxt)
    (hqueue : k'.rcvQueue = k.rcvQueue) (hbuf : k'.rcvBuf = k.rcvBuf) :
    Accounts arrived out k' := by
  rcases h with ⟨done, hsplit⟩
  have hsame : receivable k' = receivable k := by
    unfold Kcp.receivable
    rw [hqueue, hnext, hbuf]
  refine ⟨done, ?_⟩
  constructor
  · rw [hsame]
    exact hsplit.arrived
  · exact hsplit.ends
  · exact hsplit.frames
  · rw [hqueue]
    exact hsplit.numbers
  · rw [hnext, hqueue]
    exact hsplit.next

theorem Accounts.moveBuf (h : Accounts arrived out k) : Accounts arrived out (Kcp.moveBuf k) := by
  have hgrown := h.grows (Kcp.moveBuf_grows k)
  rw [Kcp.receivable_moveBuf, drop_length, append_nil] at hgrown
  exact hgrown

/-- Taking the first message moves it from the machine to the frames, unless it is empty. -/
theorem Accounts.recv (hannounced : Announced arrived) (h : Accounts arrived out k) {size : Nat}
    (hpeek : k.peeksize = .ok size) :
    Accounts arrived (out ++ nonEmpty [(Kcp.mergeChain k.rcvQueue).1]) (k.recv size).2 := by
  rcases h with ⟨done, hsplit⟩
  have hcomplete : exists s, s ∈ k.rcvQueue ∧ s.frg = 0 := by
    rw [hsplit.arrived] at hannounced
    exact Kcp.complete_of_peeksize hannounced hsplit.ends hpeek
  rcases Kcp.mergeChain_split hcomplete with ⟨chain, hqueue, hne, hends, hmessage⟩
  rcases Kcp.recv_of_peeksize hpeek with ⟨probe, hrecv⟩
  have htaken : Accounts arrived (out ++ nonEmpty [(Kcp.mergeChain k.rcvQueue).1])
      { k with rcvQueue := (Kcp.mergeChain k.rcvQueue).2 } := by
    have hwhole : done ++ k.rcvQueue = (done ++ chain) ++ (Kcp.mergeChain k.rcvQueue).2 := by
      rw [append_assoc, ← hqueue]
    refine ⟨done ++ chain, ?_⟩
    constructor
    · rw [hsplit.arrived]
      unfold Kcp.receivable
      rw [← append_assoc, hwhole, append_assoc]
    · exact hends.append hne
    · rw [Kcp.messages_append hsplit.ends, nonEmpty_append, ← hsplit.frames]
      unfold messages
      rw [hmessage []]
      rfl
    · show Consecutive 0 (Kcp.sns ((done ++ chain) ++ (Kcp.mergeChain k.rcvQueue).2))
      rw [← hwhole]
      exact hsplit.numbers
    · show k.rcvNxt = UInt32.ofNat ((done ++ chain) ++ (Kcp.mergeChain k.rcvQueue).2).length
      rw [← hwhole]
      exact hsplit.next
  rw [hrecv]
  exact htaken.moveBuf.kept rfl rfl rfl

/-!
## Pushing to the read channel
-/

def waiting (s : KcpSession) : List (List Byte) :=
  s.readTx.queue ++ s.pendingRead.toList

theorem trySend_cases {c : Channel} (hopen : c.closed = false) (message : List Byte) :
    c.trySend message = .full ∨
      c.trySend message = .sent { c with queue := c.queue ++ [message] } := by
  unfold Channel.trySend
  rw [if_neg (by simp [hopen])]
  split
  · exact Or.inl rfl
  · exact Or.inr rfl

/-- The account of a session whose channel is open. -/
structure Deliverable (arrived : List KcpSegment) (taken : List (List Byte)) (s : KcpSession) :
    Prop where
  opened : s.readTx.closed = false
  accounts : Accounts arrived (taken ++ s.waiting) s.kcp

variable {taken : List (List Byte)}

/-- One round of the loop: the message leaves the machine and is dropped if it is empty, and
otherwise queued or held back. -/
theorem pushLoop_deliverable (hannounced : Announced arrived) (fuel : Nat) {s : KcpSession}
    (hpending : s.pendingRead = none) (h : Deliverable arrived taken s) :
    Deliverable arrived taken (pushLoop fuel s).2 := by
  induction fuel generalizing s with
  | zero =>
    exact h
  | succ fuel ih =>
    unfold pushLoop
    split
    · exact h
    · exact h
    · rename_i size hpeek
      rcases Kcp.recv_of_peeksize hpeek with ⟨probe, hrecv⟩
      have haccounts := h.accounts.recv hannounced hpeek
      have hsize := (Kcp.peeksize_eq hpeek).2
      have hkcp : s.onKcp (s.kcp.recv size) =
          (.ok (Kcp.mergeChain s.kcp.rcvQueue).1, { s with kcp := (s.kcp.recv size).2 }) := by
        rw [hrecv]
        rfl
      rw [hkcp, andThen_ok]
      split
      · rename_i hzero
        have hempty : (Kcp.mergeChain s.kcp.rcvQueue).1 = [] :=
          length_eq_zero_iff.mp (hsize.symm.trans hzero)
        apply ih
        · exact hpending
        · constructor
          · exact h.opened
          · rw [hempty, show nonEmpty [[]] = [] from rfl, append_nil] at haccounts
            exact haccounts
      · rename_i hpos
        have hframe : nonEmpty [(Kcp.mergeChain s.kcp.rcvQueue).1] =
            [(Kcp.mergeChain s.kcp.rcvQueue).1] := by
          rw [hsize] at hpos
          unfold nonEmpty
          cases hmessage : (Kcp.mergeChain s.kcp.rcvQueue).1 with
          | nil =>
            rw [hmessage] at hpos
            exact absurd rfl hpos
          | cons byte rest =>
            rfl
        have hqueued : Accounts arrived
            (taken ++ (s.readTx.queue ++ [(Kcp.mergeChain s.kcp.rcvQueue).1]))
            (s.kcp.recv size).2 := by
          rw [hframe, waiting, hpending] at haccounts
          simpa [append_assoc] using haccounts
        rcases trySend_cases h.opened (Kcp.mergeChain s.kcp.rcvQueue).1 with hfull | hsent
        · rw [show ({ s with kcp := (s.kcp.recv size).2 } : KcpSession).readTx.trySend
            (Kcp.mergeChain s.kcp.rcvQueue).1 = .full from hfull]
          exact ⟨h.opened, hqueued⟩
        · rw [show ({ s with kcp := (s.kcp.recv size).2 } : KcpSession).readTx.trySend
            (Kcp.mergeChain s.kcp.rcvQueue).1 = .sent
              { s.readTx with queue := s.readTx.queue ++ [(Kcp.mergeChain s.kcp.rcvQueue).1] }
            from hsent]
          apply ih
          · exact hpending
          · constructor
            · exact h.opened
            · show Accounts arrived (taken ++
                (s.readTx.queue ++ [(Kcp.mergeChain s.kcp.rcvQueue).1] ++
                  s.pendingRead.toList)) (s.kcp.recv size).2
              rw [hpending, Option.toList_none, append_nil]
              exact hqueued

theorem recvAndPush_deliverable (hannounced : Announced arrived) {s : KcpSession}
    (h : Deliverable arrived taken s) : Deliverable arrived taken s.recvAndPush.2 := by
  unfold recvAndPush
  split
  · rename_i hpending
    exact pushLoop_deliverable hannounced _ hpending h
  · rename_i pending hpending
    dsimp only
    have haccounts := h.accounts
    rw [waiting, hpending] at haccounts
    rcases trySend_cases h.opened pending with hfull | hsent
    · rw [hfull]
      exact ⟨h.opened, haccounts⟩
    · rw [hsent]
      apply pushLoop_deliverable hannounced
      · rfl
      · constructor
        · exact h.opened
        · show Accounts arrived (taken ++ (s.readTx.queue ++ [pending] ++ [])) s.kcp
          rw [append_nil]
          exact haccounts

/-!
## Calls that do not receive
-/

/-- Two sessions that hold the same received data, wherever it is. -/
structure SameInbox (s s' : KcpSession) : Prop where
  rcvNxt : s'.kcp.rcvNxt = s.kcp.rcvNxt
  rcvQueue : s'.kcp.rcvQueue = s.kcp.rcvQueue
  rcvBuf : s'.kcp.rcvBuf = s.kcp.rcvBuf
  readTx : s'.readTx = s.readTx
  pendingRead : s'.pendingRead = s.pendingRead

variable (s : KcpSession)

theorem SameInbox.refl : SameInbox s s :=
  ⟨rfl, rfl, rfl, rfl, rfl⟩

theorem SameInbox.trans {s s' s'' : KcpSession} (h : SameInbox s s') (h' : SameInbox s' s'') :
    SameInbox s s'' :=
  ⟨h'.rcvNxt.trans h.rcvNxt, h'.rcvQueue.trans h.rcvQueue, h'.rcvBuf.trans h.rcvBuf,
    h'.readTx.trans h.readTx, h'.pendingRead.trans h.pendingRead⟩

theorem Deliverable.kept {s s' : KcpSession} (h : Deliverable arrived taken s)
    (hs : SameInbox s s') : Deliverable arrived taken s' := by
  constructor
  · rw [hs.readTx]
    exact h.opened
  · have haccounts := h.accounts
    unfold waiting at haccounts ⊢
    rw [hs.readTx, hs.pendingRead]
    exact haccounts.kept hs.rcvNxt hs.rcvQueue hs.rcvBuf

theorem send_inbox (data : List Byte) : SameInbox s (s.send data).2 := by
  rcases Kcp.send_frame s.kcp data with ⟨queue, hsend⟩
  unfold send onKcp
  rw [hsend]
  exact ⟨rfl, rfl, rfl, rfl, rfl⟩

theorem sendPieces_inbox (sent : Nat) (pieces : List (List Byte)) :
    SameInbox s (s.sendPieces sent pieces).2 := by
  induction pieces generalizing s sent with
  | nil =>
    exact SameInbox.refl s
  | cons piece rest ih =>
    apply andThen_state (P := fun s' : KcpSession => SameInbox s s') (send_inbox s piece)
    intro n s' _ h
    exact h.trans (ih s' (sent + n))

theorem encodeChunks_reading (fec : Fec) (s : KcpSession) (output : List (List Byte)) :
    (encodeChunks fec s output).2.readTx = s.readTx ∧
      (encodeChunks fec s output).2.pendingRead = s.pendingRead := by
  induction output generalizing s with
  | nil =>
    exact ⟨rfl, rfl⟩
  | cons raw rest ih =>
    have hfirst : (encodeChunk fec s raw).2.readTx = s.readTx ∧
        (encodeChunk fec s raw).2.pendingRead = s.pendingRead := by
      unfold encodeChunk
      dsimp only
      split
      · exact ⟨rfl, rfl⟩
      · exact ⟨rfl, rfl⟩
    have hrest := ih (encodeChunk fec s raw).2
    exact ⟨hrest.1.trans hfirst.1, hrest.2.trans hfirst.2⟩

theorem emit_inbox : SameInbox s s.emit.2 := by
  have hkcp := (emit_frame s).1
  have hreading : s.emit.2.readTx = s.readTx ∧ s.emit.2.pendingRead = s.pendingRead := by
    unfold emit fecEncodeOutput
    dsimp only
    split
    · exact ⟨rfl, rfl⟩
    · split
      · exact encodeChunks_reading _ _ _
      · exact ⟨rfl, rfl⟩
  constructor
  · rw [hkcp]
  · rw [hkcp]
  · rw [hkcp]
  · exact hreading.1
  · exact hreading.2

theorem onKcp_inbox {α : Type} {r : Kcp.Result α × Kcp PacketWriter} {n : Nat}
    (h : Kcp.Flushed n s.kcp r.2) : SameInbox s (s.onKcp r).2 :=
  ⟨h.rcvNxt, h.rcvQueue, h.rcvBuf, rfl, rfl⟩

theorem update_inbox (nowMs : UInt32) : SameInbox s (s.update nowMs).2 := by
  unfold update
  split
  · exact SameInbox.refl s
  · rcases Kcp.update_flushed s.kcp nowMs with ⟨n, hflushed⟩
    apply andThen_state (P := fun s' : KcpSession => SameInbox s s') (onKcp_inbox s hflushed)
    intro _ s' _ h
    exact h.trans (emit_inbox s')

theorem forceFlush_inbox (nowMs : UInt32) :
    SameInbox s (s.forceFlush nowMs).2 := by
  rcases Kcp.update_flushed s.kcp nowMs with ⟨n, hupdated⟩
  apply andThen_state (P := fun s' : KcpSession => SameInbox s s') (onKcp_inbox s hupdated)
  intro _ s' _ h
  rcases Kcp.flush_flushed s'.kcp with ⟨m, hflushed⟩
  apply andThen_state (P := fun s' : KcpSession => SameInbox s s')
    (h.trans (onKcp_inbox s' hflushed))
  intro _ s'' _ h'
  exact h'.trans (emit_inbox s'')

/-!
## Packets
-/

/-- A session after some payloads were handed to its machine. -/
structure Supplied (s s' : KcpSession) : Prop where
  kcp : exists payloads, s'.kcp =
    Run.run (fun k payload => (Kcp.input k payload).2) s.kcp payloads
  readTx : s'.readTx = s.readTx
  pendingRead : s'.pendingRead = s.pendingRead

theorem Supplied.refl : Supplied s s :=
  ⟨⟨[], rfl⟩, rfl, rfl⟩

theorem Supplied.trans {s s' s'' : KcpSession} (h : Supplied s s') (h' : Supplied s' s'') :
    Supplied s s'' := by
  rcases h.kcp with ⟨payloads, hpayloads⟩
  rcases h'.kcp with ⟨payloads', hpayloads'⟩
  exact ⟨⟨payloads ++ payloads', by rw [hpayloads', hpayloads, Run.run_append]⟩,
    h'.readTx.trans h.readTx, h'.pendingRead.trans h.pendingRead⟩

theorem supplied_receiveSteps : ReceiveSteps Supplied where
  refl := Supplied.refl
  trans := Supplied.trans
  groups _ _ := ⟨⟨[], rfl⟩, rfl, rfl⟩
  datagram _ payload _ := ⟨⟨[payload], rfl⟩, rfl, rfl⟩

theorem Supplied.grows {s s' : KcpSession} (h : Supplied s s') (hs : s.kcp.Reachable) :
    Grows s.kcp s'.kcp := by
  rcases h.kcp with ⟨payloads, hpayloads⟩
  rw [hpayloads]
  have hstep : forall k : Kcp PacketWriter, forall payload,
      Grows s.kcp k ∧ k.Reachable -> Grows s.kcp (k.input payload).2 ∧
        (k.input payload).2.Reachable := by
    intro k payload hk
    exact ⟨hk.1.trans (Kcp.input_grows hk.2.windowed payload), hk.2.call (.input payload)⟩
  exact (Run.run_preserves hstep payloads ⟨Grows.refl s.kcp, hs⟩).1

theorem Deliverable.supplied {s s' : KcpSession} (h : Deliverable arrived taken s)
    (hs : Supplied s s') (hreach : s.kcp.Reachable) :
    Deliverable (arrived ++ (receivable s'.kcp).drop (receivable s.kcp).length) taken s' := by
  constructor
  · rw [hs.readTx]
    exact h.opened
  · have haccounts := h.accounts.grows (hs.grows hreach)
    unfold waiting at haccounts ⊢
    rw [hs.readTx, hs.pendingRead]
    exact haccounts

/-!
## Runs
-/

structure Flow.Kept (f : Flow) : Prop where
  reachable : f.session.kcp.Reachable
  deliverable : Deliverable f.arrived f.taken f.session

theorem call_deliverable (hannounced : Announced arrived) {s : KcpSession} (op : SessionOp)
    (h : Deliverable arrived taken s) : Deliverable arrived taken (s.apply op).2 := by
  cases op with
  | send data => exact h.kept (send_inbox s data)
  | sendChunked data => exact h.kept (sendPieces_inbox s 0 _)
  | update nowMs => exact h.kept (update_inbox s nowMs)
  | forceFlush nowMs => exact h.kept (forceFlush_inbox s nowMs)
  | recvAndPush => exact recvAndPush_deliverable hannounced h

theorem read_deliverable {s : KcpSession} (h : Deliverable arrived taken s) :
    Deliverable arrived (taken ++ s.readTx.queue.take 1) s.read := by
  constructor
  · exact h.opened
  · have hframes : taken ++ s.readTx.queue.take 1 ++ s.read.waiting = taken ++ s.waiting := by
      unfold waiting read
      cases s.readTx.queue with
      | nil => simp
      | cons frame rest => simp
    rw [hframes]
    exact h.accounts

theorem Flow.Kept.step {f : Flow} (h : f.Kept) (hannounced : Announced f.arrived)
    (event : SessionEvent) : (f.step event).Kept := by
  constructor
  · exact step_reachable f.session event h.reachable
  · cases event with
    | call op =>
      exact call_deliverable hannounced op h.deliverable
    | input pruneMs nowMs data =>
      exact h.deliverable.supplied (supplied_receiveSteps.input f.session pruneMs nowMs data)
        h.reachable
    | read =>
      exact read_deliverable h.deliverable

theorem Flow.step_arrived (f : Flow) (event : SessionEvent) :
    exists more, (f.step event).arrived = f.arrived ++ more := by
  cases event with
  | input pruneMs nowMs data => exact ⟨_, rfl⟩
  | call op => exact ⟨[], (append_nil _).symm⟩
  | read => exact ⟨[], (append_nil _).symm⟩

theorem Flow.run_arrived (f : Flow) (events : List SessionEvent) :
    exists more, (Run.run Flow.step f events).arrived = f.arrived ++ more := by
  induction events generalizing f with
  | nil =>
    exact ⟨[], (append_nil _).symm⟩
  | cons event events ih =>
    rcases f.step_arrived event with ⟨first, hfirst⟩
    rcases ih (f.step event) with ⟨more, hmore⟩
    exact ⟨first ++ more, by rw [Run.run_cons, hmore, hfirst, append_assoc]⟩

theorem Flow.Kept.run {f : Flow} (h : f.Kept) (events : List SessionEvent)
    (hannounced : Announced (Run.run Flow.step f events).arrived) :
    (Run.run Flow.step f events).Kept := by
  induction events generalizing f with
  | nil =>
    exact h
  | cons event events ih =>
    have harrived : Announced f.arrived := by
      rcases f.run_arrived (event :: events) with ⟨more, hmore⟩
      rw [hmore] at hannounced
      exact hannounced.of_append
    exact ih (h.step harrived event) hannounced

def Flow.start (conv : UInt32) (config : KcpConfig) (capacity : Nat) : Flow where
  session := KcpSession.new conv config { capacity := capacity }

theorem Flow.start_kept (conv : UInt32) (config : KcpConfig) (capacity : Nat) :
    (Flow.start conv config capacity).Kept := by
  have hpristine := Kcp.configured_pristine conv ({} : PacketWriter) config.stream
    [.mtu config.mtu, .wndsize config.sndWnd config.rcvWnd,
      .nodelay config.nodelay config.interval config.resend config.nc]
  constructor
  · exact Kcp.Reachable.configured conv ({} : PacketWriter) config.stream _
  · constructor
    · rfl
    · refine ⟨[], ?_⟩
      constructor
      · show [] = [] ++ receivable (Kcp.configured conv ({} : PacketWriter) config.stream _)
        unfold Kcp.receivable
        rw [hpristine.rcvQueue, hpristine.rcvBuf]
        rfl
      · exact Kcp.endsMessage_nil
      · rfl
      · show Consecutive 0
          (Kcp.sns ([] ++ (Kcp.configured conv ({} : PacketWriter) config.stream _).rcvQueue))
        rw [hpristine.rcvQueue]
        trivial
      · show (Kcp.configured conv ({} : PacketWriter) config.stream _).rcvNxt =
          UInt32.ofNat
            ([] ++ (Kcp.configured conv ({} : PacketWriter) config.stream _).rcvQueue).length
        rw [hpristine.rcvQueue, hpristine.rcvNxt]
        rfl

def Flow.after (conv : UInt32) (config : KcpConfig) (capacity : Nat)
    (events : List SessionEvent) : Flow :=
  Run.run Flow.step (Flow.start conv config capacity) events

/-- The received messages by place: taken by the stream, in the channel, held back, and still in
the machine. -/
def Flow.frames (f : Flow) : List (List Byte) :=
  f.taken ++ f.session.readTx.queue ++ f.session.pendingRead.toList ++
    nonEmpty (messages (receivable f.session.kcp))

/-- In stream mode every message is one segment. -/
theorem Flow.run_single {conv : UInt32} {config : KcpConfig} (hstream : config.stream = true)
    (capacity : Nat) (events : List SessionEvent) :
    forall s, s ∈ (Flow.after conv config capacity events).arrived ->
      s.frg = 0 := by
  have hpristine := Kcp.configured_pristine conv ({} : PacketWriter) config.stream
    [.mtu config.mtu, .wndsize config.sndWnd config.rcvWnd,
      .nodelay config.nodelay config.interval config.resend config.nc]
  have hstep : forall f : Flow, forall event,
      f.session.kcp.Reachable ∧ f.session.kcp.stream = true ∧ (forall s, s ∈ f.arrived -> s.frg = 0) ->
      (f.step event).session.kcp.Reachable ∧ (f.step event).session.kcp.stream = true ∧
        (forall s, s ∈ (f.step event).arrived -> s.frg = 0) := by
    rintro f event ⟨hreach, hmode, hsingle⟩
    have hreach' := step_reachable f.session event hreach
    have hmode' : (f.session.step event).kcp.stream = true := by
      rw [(step_sameLimits hreach.queued.inputConv event).stream]
      exact hmode
    refine ⟨hreach', hmode', ?_⟩
    cases event with
    | call op => exact hsingle
    | read => exact hsingle
    | input pruneMs nowMs data =>
      intro s hs
      rcases mem_append.mp hs with hold | hnew
      · exact hsingle s hold
      · exact hreach'.unfragmented.receivable hmode' s (mem_of_mem_drop hnew)
  have hstart : (Flow.start conv config capacity).session.kcp.Reachable ∧
      (Flow.start conv config capacity).session.kcp.stream = true ∧
      (forall s, s ∈ (Flow.start conv config capacity).arrived -> s.frg = 0) := by
    refine ⟨(Flow.start_kept conv config capacity).reachable, ?_, ?_⟩
    · exact hpristine.stream.trans hstream
    · intro s hs
      cases hs
  exact (Run.run_preserves hstep events hstart).2.2

/-- Whatever the channel's capacity and the order of calls, packets and reads: the frames taken,
those in the channel, the one held back and the non-empty messages still in the machine are the
non-empty messages of all segments so far, in the order of their numbers.  In message mode this
needs every message to end within the fragments its first one announces. -/
theorem frames_in_order (conv : UInt32) (config : KcpConfig) (capacity : Nat)
    (events : List SessionEvent)
    (hannounced : config.stream = false ->
      Announced (Flow.after conv config capacity events).arrived) :
    (Flow.after conv config capacity events).frames =
        nonEmpty (messages (Flow.after conv config capacity events).arrived) ∧
      Consecutive 0 (Kcp.sns (Flow.after conv config capacity events).arrived) := by
  have hall : Announced (Flow.after conv config capacity events).arrived := by
    cases hstream : config.stream with
    | false => exact hannounced hstream
    | true => exact Kcp.announced_of_single (Flow.run_single hstream capacity events)
  have hkept : (Flow.after conv config capacity events).Kept :=
    (Flow.start_kept conv config capacity).run events hall
  generalize Flow.after conv config capacity events = f at hkept
  rcases hkept.deliverable.accounts with ⟨done, hsplit⟩
  have hframes := hsplit.frames
  unfold waiting at hframes
  constructor
  · unfold Flow.frames
    rw [hsplit.arrived, Kcp.messages_append hsplit.ends, nonEmpty_append, ← hframes]
    simp only [append_assoc]
  · rw [hsplit.arrived]
    unfold Kcp.receivable
    rw [← append_assoc, Kcp.sns, map_append]
    apply Kcp.consecutive_append hsplit.numbers
    rw [show (Kcp.sns (done ++ f.session.kcp.rcvQueue)).length =
      (done ++ f.session.kcp.rcvQueue).length from length_map _, UInt32.zero_add,
      ← hsplit.next]
    exact Kcp.consecutive_contiguous _ _

def messageConfig : KcpConfig :=
  ⟨50, true, 10, 2, true, 32, 128, 0, 0, false⟩

/-- A data segment with fragment number `frg`, as a packet. -/
def pushPacket (frg : UInt8) (sn : UInt32) (data : List Byte) : SessionEvent :=
  .input 0 0 ({ conv := 7, cmd := Kcp.cmdPush, frg := frg, wnd := 32, sn := sn, data := data } :
    KcpSegment).encode

def heldEvents : List SessionEvent :=
  [pushPacket 0 2 [3], pushPacket 1 0 [1], pushPacket 0 1 [2], .call .recvAndPush, .read]

theorem frames_in_order_held :
    (Flow.after 7 messageConfig 1 heldEvents).taken = [[1, 2]] ∧
      (Flow.after 7 messageConfig 1 heldEvents).session.pendingRead = some [3] ∧
      (Flow.after 7 messageConfig 1 heldEvents).frames =
        nonEmpty (messages (Flow.after 7 messageConfig 1 heldEvents).arrived) := by
  refine ⟨by decide, by decide, (frames_in_order 7 messageConfig 1 heldEvents ?_).1⟩
  intro _ pre seg post hsplit hends hfrg
  have hnumbers : (Flow.after 7 messageConfig 1 heldEvents).arrived.map KcpSegment.frg =
      [1, 0, 0] := by
    decide
  rw [hsplit, map_append, map_cons] at hnumbers
  cases pre with
  | nil =>
    simp only [map_nil, nil_append, cons.injEq] at hnumbers
    rw [hnumbers.1]
    refine ⟨by decide, fun _ => ?_⟩
    cases post with
    | nil => cases hnumbers.2
    | cons next rest =>
      rw [map_cons, cons.injEq] at hnumbers
      exact ⟨next, by simp, hnumbers.2.1⟩
  | cons first pre =>
    simp only [map_cons, cons_append, cons.injEq] at hnumbers
    have hmem : seg.frg ∈ pre.map KcpSegment.frg ++ seg.frg :: post.map KcpSegment.frg :=
      mem_append_right _ mem_cons_self
    rw [hnumbers.2] at hmem
    simp at hmem
    exact absurd hmem hfrg

def Flow.Succeeds (f : Flow) : SessionEvent -> Prop
  | .call .recvAndPush => f.session.recvAndPush.1.isOk = true
  | .input pruneMs nowMs data => (f.session.input pruneMs nowMs data).1.isOk = true
  | _ => True

/-- Two fragments that both announce one more; the last fragment comes when the first two have
been handed out. -/
def misnumberedEvents : List SessionEvent :=
  [pushPacket 1 0 [1], pushPacket 1 1 [2], .call .recvAndPush, pushPacket 0 2 [3],
    .call .recvAndPush]

/-- The three fragments of one message are delivered as two frames; had they come together they
would have been one. -/
theorem misnumbered_split :
    Run.Along Flow.step Flow.Succeeds (Flow.start 7 messageConfig 8) misnumberedEvents ∧
      (Flow.after 7 messageConfig 8 misnumberedEvents).session.readTx.closed = false ∧
      (Flow.after 7 messageConfig 8 misnumberedEvents).frames = [[1, 2], [3]] ∧
      nonEmpty (messages (Flow.after 7 messageConfig 8 misnumberedEvents).arrived) =
        [[1, 2, 3]] ∧
      (Flow.after 7 messageConfig 8 [pushPacket 1 0 [1], pushPacket 1 1 [2], pushPacket 0 2 [3],
        .call .recvAndPush]).frames = [[1, 2, 3]] :=
  ⟨⟨rfl, rfl, rfl, rfl, rfl, trivial⟩, by decide, by decide, by decide, by decide⟩

end KcpSession
end FrpRs
