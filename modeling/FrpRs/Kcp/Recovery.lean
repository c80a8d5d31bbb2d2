import FrpRs.Kcp.Shards
import FrpRs.Kcp.Wire

/-!
# Recovery over a lossy network

Two sessions and the packets one of them has emitted.  The network may deliver any
emitted packet any number of times, in any order, or never.  What the receiver hands to
its state machine are datagrams of the sender, and `data_shards` different shards of a
group bring all of its datagrams.
-/

namespace FrpRs
namespace KcpSession

open List Bytes
open Fallible

/-!
## Calls on a session
-/

inductive SessionOp where
  | send (data : List Byte)
  | sendChunked (data : List Byte)
  | update (nowMs : UInt32)
  | forceFlush (nowMs : UInt32)
  | recvAndPush

def returned (r : Except SessionError (List (List Byte))) : List (List Byte) :=
  match r with
  | .ok packets => packets
  | .error _ => []

def apply (s : KcpSession) : SessionOp -> List (List Byte) × KcpSession
  | .send data => ([], (s.send data).2)
  | .sendChunked data => ([], (s.sendChunked data).2)
  | .update nowMs => (returned (s.update nowMs).1, (s.update nowMs).2)
  | .forceFlush nowMs => (returned (s.forceFlush nowMs).1, (s.forceFlush nowMs).2)
  | .recvAndPush => ([], s.recvAndPush.2)

/-- The sending side is left alone, apart from calls on the state machine. -/
structure Quiet (s s' : KcpSession) : Prop where
  kcp : exists ops, s'.kcp = Run.run Kcp.apply s.kcp ops
  fec : s'.fec = s.fec
  dataShards : s'.dataShards = s.dataShards
  fecSeqid : s'.fecSeqid = s.fecSeqid
  pendingShards : s'.pendingShards = s.pendingShards
  pendingMaxSize : s'.pendingMaxSize = s.pendingMaxSize
  encoded : s'.encoded = s.encoded

/-- The receiving side is left alone. -/
structure SameGroups (s s' : KcpSession) : Prop where
  fec : s'.fec = s.fec
  dataShards : s'.dataShards = s.dataShards
  parityShards : s'.parityShards = s.parityShards
  shardGroups : s'.shardGroups = s.shardGroups
  handed : s'.handed = s.handed

variable (s : KcpSession)

theorem Quiet.refl : Quiet s s :=
  ⟨⟨[], rfl⟩, rfl, rfl, rfl, rfl, rfl, rfl⟩

theorem Quiet.trans {s s' s'' : KcpSession} (h : Quiet s s') (h' : Quiet s' s'') :
    Quiet s s'' := by
  obtain ⟨ops, hops⟩ := h.kcp
  obtain ⟨ops', hops'⟩ := h'.kcp
  exact ⟨⟨ops ++ ops', by rw [hops', hops, Run.run_append]⟩, h'.fec.trans h.fec,
    h'.dataShards.trans h.dataShards, h'.fecSeqid.trans h.fecSeqid,
    h'.pendingShards.trans h.pendingShards, h'.pendingMaxSize.trans h.pendingMaxSize,
    h'.encoded.trans h.encoded⟩

theorem SameGroups.refl : SameGroups s s :=
  ⟨rfl, rfl, rfl, rfl, rfl⟩

theorem SameGroups.trans {s s' s'' : KcpSession} (h : SameGroups s s')
    (h' : SameGroups s' s'') : SameGroups s s'' :=
  ⟨h'.fec.trans h.fec, h'.dataShards.trans h.dataShards, h'.parityShards.trans h.parityShards,
    h'.shardGroups.trans h.shardGroups, h'.handed.trans h.handed⟩

theorem quiet_apply (op : Kcp.Op) :
    Quiet s { s with kcp := s.kcp.apply op } :=
  ⟨⟨[op], rfl⟩, rfl, rfl, rfl, rfl, rfl, rfl⟩

def Idle (s s' : KcpSession) : Prop :=
  Quiet s s' ∧ SameGroups s s'

theorem Idle.refl : Idle s s :=
  ⟨Quiet.refl s, SameGroups.refl s⟩

theorem Idle.trans {s s' s'' : KcpSession} (h : Idle s s') (h' : Idle s' s'') : Idle s s'' :=
  ⟨h.1.trans h'.1, h.2.trans h'.2⟩

theorem idle_apply (op : Kcp.Op) : Idle s { s with kcp := s.kcp.apply op } :=
  ⟨quiet_apply s op, rfl, rfl, rfl, rfl, rfl⟩

theorem send_idle (data : List Byte) : Idle s (s.send data).2 :=
  idle_apply s (.send data)

theorem sendPieces_idle (sent : Nat) (pieces : List (List Byte)) :
    Idle s (s.sendPieces sent pieces).2 := by
  induction pieces generalizing s sent with
  | nil =>
    exact Idle.refl s
  | cons piece rest ih =>
    apply andThen_state (P := fun s' : KcpSession => Idle s s') (send_idle s piece)
    intro n s' _ h
    exact h.trans (ih s' (sent + n))

theorem idle_read (readTx : Channel) (pendingRead : Option (List Byte)) (shutdown : Bool) :
    Idle s { s with readTx := readTx, pendingRead := pendingRead, shutdown := shutdown } :=
  ⟨⟨⟨[], rfl⟩, rfl, rfl, rfl, rfl, rfl, rfl⟩, rfl, rfl, rfl, rfl, rfl⟩

theorem pushLoop_idle (fuel : Nat) (s : KcpSession) : Idle s (pushLoop fuel s).2 := by
  induction fuel generalizing s with
  | zero =>
    exact Idle.refl s
  | succ fuel ih =>
    unfold pushLoop
    split
    · exact Idle.refl s
    · exact Idle.refl s
    · rename_i size _
      apply andThen_state (P := fun s' : KcpSession => Idle s s') (idle_apply s (.recv size))
      intro data s' _ h
      split
      · exact h.trans (ih s')
      · split
        · rename_i channel _
          exact (h.trans (idle_read s' channel s'.pendingRead s'.shutdown)).trans (ih _)
        · exact h.trans (idle_read s' s'.readTx (some data) s'.shutdown)
        · exact h.trans (idle_read s' s'.readTx s'.pendingRead true)

theorem recvAndPush_idle : Idle s s.recvAndPush.2 := by
  unfold recvAndPush
  split
  · exact pushLoop_idle _ s
  · rename_i pending _
    dsimp only
    split
    · rename_i channel _
      exact (idle_read s channel none s.shutdown).trans (pushLoop_idle _ _)
    · exact idle_read s s.readTx (some pending) s.shutdown
    · exact idle_read s s.readTx none true

/-!
## Receiving does not touch the sending side
-/

/-- A relation that receiving keeps to: each datagram that is handed to the state machine and
each change of the table of groups is one step of it. -/
structure ReceiveSteps (R : KcpSession -> KcpSession -> Prop) : Prop where
  refl : forall s, R s s
  trans : forall {s s' s''}, R s s' -> R s' s'' -> R s s''
  groups : forall s groups, R s { s with shardGroups := groups }
  datagram : forall s payload handed,
    R s { s with kcp := (s.kcp.input payload).2, handed := handed }

namespace ReceiveSteps

variable {R : KcpSession -> KcpSession -> Prop} (h : ReceiveSteps R)

include h

theorem feed (payload : List Byte) : R s (s.feed payload).2 := by
  apply andThen_state (P := fun s' : KcpSession => R s s')
  · exact h.datagram s payload (s.handed ++ [payload])
  · intro _ _ _ hs'
    exact hs'

theorem feedAll (payloads : List (List Byte)) :
    R s (s.feedAll payloads).2 := by
  induction payloads generalizing s with
  | nil =>
    exact h.refl s
  | cons payload rest ih =>
    apply andThen_state (P := fun s' : KcpSession => R s s') (h.feed s payload)
    intro _ s' _ hs'
    exact h.trans hs' (ih s')

theorem feedData (flag : UInt16) (group : ShardGroup) (i : Nat) (shard : List Byte) :
    R s (s.feedData flag group i shard).2 := by
  unfold KcpSession.feedData
  split
  · split
    · exact h.feed s _
    · exact h.refl s
  · exact h.refl s

theorem recoverGroup (fec : Fec) (key : UInt32) (group : ShardGroup) :
    R s (s.recoverGroup fec key group).2 := by
  unfold KcpSession.recoverGroup
  split
  · exact h.groups s _
  · dsimp only
    split
    · exact h.trans (h.feedAll s _) (h.groups _ _)
    · exact h.groups s _

theorem inputShard (fec : Fec) (total now : Nat) (seqid : UInt32) (flag : UInt16)
    (shard : List Byte) :
    R s (s.inputShard fec total now seqid flag shard).2 := by
  apply andThen_state (P := fun s' : KcpSession => R s s')
  · exact h.trans (h.groups s _) (h.feedData _ _ _ _ _)
  · intro _ s' _ hs'
    dsimp only
    split
    · exact h.trans (h.trans hs' (h.groups s' _)) (h.recoverGroup _ _ _ _)
    · exact h.trans hs' (h.groups s' _)

theorem inputRaw (data : List Byte) : R s (s.inputRaw data).2 := by
  apply andThen_state (P := fun s' : KcpSession => R s s') (h.datagram s data s.handed)
  intro _ _ _ hs'
  exact hs'

theorem input (pruneMs nowMs : Nat) (data : List Byte) :
    R s (s.input pruneMs nowMs data).2 := by
  have hprune : R s (s.pruneOldGroups pruneMs) := h.groups s _
  unfold KcpSession.input
  dsimp only
  split
  · exact h.trans hprune (h.inputRaw _ data)
  · split
    · exact hprune
    · split
      · exact h.trans hprune (h.inputRaw _ data)
      · split
        · exact hprune
        · exact h.trans hprune (h.inputShard _ _ _ _ _ _ _)

end ReceiveSteps

theorem quiet_receiveSteps : ReceiveSteps Quiet where
  refl := Quiet.refl
  trans := Quiet.trans
  groups _ _ := ⟨⟨[], rfl⟩, rfl, rfl, rfl, rfl, rfl, rfl⟩
  datagram _ payload _ := ⟨⟨[.input payload], rfl⟩, rfl, rfl, rfl, rfl, rfl, rfl⟩

theorem input_quiet (pruneMs nowMs : Nat) (data : List Byte) :
    Quiet s (s.input pruneMs nowMs data).2 :=
  quiet_receiveSteps.input s pruneMs nowMs data

/-!
## Emitting
-/

variable {fec : Fec} {net : List (List Byte)}

theorem Sent.congr {d p : Nat} {s s' : KcpSession} (h : Sent fec d p s net) (hfec : s'.fec = s.fec)
    (hdata : s'.dataShards = s.dataShards) (hseqid : s'.fecSeqid = s.fecSeqid)
    (hpending : s'.pendingShards = s.pendingShards) (hmax : s'.pendingMaxSize = s.pendingMaxSize)
    (hencoded : s'.encoded = s.encoded) :
    Sent fec d p s' net where
  codec := hfec.trans h.codec
  dataShards := hdata.trans h.dataShards
  packets := by
    rw [hencoded]
    exact h.packets
  seqid := hseqid.trans h.seqid
  pending := by
    rw [hencoded, hpending]
    exact h.pending
  maxSize := by
    rw [hencoded, hmax]
    exact h.maxSize

theorem encodeChunk_frame (fec : Fec) (s : KcpSession) (raw : List Byte) :
    (encodeChunk fec s raw).2.kcp = s.kcp ∧ SameGroups s (encodeChunk fec s raw).2 := by
  unfold encodeChunk
  dsimp only
  split
  · exact ⟨rfl, rfl, rfl, rfl, rfl, rfl⟩
  · exact ⟨rfl, rfl, rfl, rfl, rfl, rfl⟩

theorem encodeChunks_frame (fec : Fec) (s : KcpSession) (output : List (List Byte)) :
    (encodeChunks fec s output).2.kcp = s.kcp ∧ SameGroups s (encodeChunks fec s output).2 := by
  induction output generalizing s with
  | nil =>
    exact ⟨rfl, SameGroups.refl s⟩
  | cons raw rest ih =>
    obtain ⟨hkcp, hgroups⟩ := encodeChunk_frame fec s raw
    obtain ⟨hkcp', hgroups'⟩ := ih (encodeChunk fec s raw).2
    exact ⟨hkcp'.trans hkcp, hgroups.trans hgroups'⟩

theorem emit_frame :
    s.emit.2.kcp = { s.kcp with output := {} } ∧ SameGroups s s.emit.2 := by
  unfold emit fecEncodeOutput
  dsimp only
  split
  · exact ⟨rfl, rfl, rfl, rfl, rfl, rfl⟩
  · split
    · rename_i fec _
      obtain ⟨hkcp, hgroups⟩ := encodeChunks_frame fec s.drain.2 s.drain.1
      exact ⟨hkcp, hgroups.fec, hgroups.dataShards, hgroups.parityShards, hgroups.shardGroups,
        hgroups.handed⟩
    · exact ⟨rfl, rfl, rfl, rfl, rfl, rfl⟩

variable {r : Nat -> Nat -> Gf256}

theorem emit_sent {d p : Nat} {s : KcpSession} (hg : Fec.Generates d p r fec)
    (h : Sent fec d p s net) :
    Sent fec d p s.emit.2 (net ++ s.emit.1) ∧
      s.emit.2.encoded = s.encoded ++ s.kcp.output.packets := by
  have hdrained : Sent fec d p s.drain.2 net := h.congr rfl rfl rfl rfl rfl rfl
  have hblank : s.fecPrefix = kcpWireOverhead := by
    rw [fecPrefix, h.codec]
    rfl
  unfold emit
  dsimp only
  split
  · rename_i hempty
    have hnil : s.kcp.output.packets = [] := by
      rw [drain, List.isEmpty_iff] at hempty
      exact map_eq_nil_iff.mp hempty
    rw [append_nil, hnil, append_nil]
    exact ⟨hdrained, rfl⟩
  · have hcodec : s.drain.2.fec = some fec := h.codec
    unfold fecEncodeOutput
    rw [hcodec]
    refine ⟨encodeChunks_sent hg hdrained _, ?_⟩
    have hdrop : s.drain.1.map (drop kcpWireOverhead) = s.kcp.output.packets := by
      unfold drain
      rw [hblank, map_map]
      conv => rhs; rw [← map_id s.kcp.output.packets]
      apply map_congr_left
      intro datagram _
      simp
    rw [encodeChunks_encoded, hdrop]
    rfl

/-!
## The sender
-/

/-- A sending session and the packets it has emitted: the datagrams come from a state
machine that keeps them non-empty and within the MTU. -/
structure Sends (fec : Fec) (d p mtu : Nat) (s : KcpSession) (net : List (List Byte)) : Prop where
  sent : Sent fec d p s net
  wired : Kcp.Wired s.kcp
  limit : s.kcp.mtu = mtu
  fits : forall x, x ∈ s.encoded -> 1 ≤ x.length ∧ x.length ≤ mtu

variable {d p mtu : Nat}

theorem Sends.quiet {s s' : KcpSession} (h : Sends fec d p mtu s net) (hs' : Quiet s s') :
    Sends fec d p mtu s' net := by
  obtain ⟨ops, hops⟩ := hs'.kcp
  refine ⟨h.sent.congr hs'.fec hs'.dataShards hs'.fecSeqid hs'.pendingShards
    hs'.pendingMaxSize hs'.encoded, ?_, ?_, ?_⟩
  · rw [hops]
    exact Run.run_preserves Kcp.apply_wired ops h.wired
  · rw [hops, (Kcp.run_sameLimits s.kcp ops h.wired.inputConv).mtu, h.limit]
  · rw [hs'.encoded]
    exact h.fits

theorem Sends.emit {s : KcpSession} (hg : Fec.Generates d p r fec) (h : Sends fec d p mtu s net) :
    Sends fec d p mtu s.emit.2 (net ++ s.emit.1) := by
  obtain ⟨hsent, hencoded⟩ := emit_sent hg h.sent
  obtain ⟨hkcp, _⟩ := emit_frame s
  refine ⟨hsent, ?_, ?_, ?_⟩
  · rw [hkcp]
    refine ⟨h.wired.mtu, h.wired.inputConv, h.wired.queue, h.wired.buffer, ?_, ?_⟩
    · intro datagram hmem
      cases hmem
    · exact h.wired.emits.buf
  · rw [hkcp]
    exact h.limit
  · intro x hx
    rw [hencoded] at hx
    rcases mem_append.mp hx with hx | hx
    · exact h.fits x hx
    · have hframed := h.wired.emits.packets x hx
      have hpos := length_pos_iff.mpr hframed.ne_nil
      obtain ⟨_, _, _, _, hlen⟩ := hframed
      rw [h.limit] at hlen
      exact ⟨hpos, hlen⟩

theorem apply_cases (op : SessionOp) :
    (Idle s (s.apply op).2 ∧ (s.apply op).1 = []) ∨
      exists s', Idle s s' ∧ s.apply op = (s'.emit.1, s'.emit.2) := by
  cases op with
  | send data =>
    exact .inl ⟨send_idle s data, rfl⟩
  | sendChunked data =>
    exact .inl ⟨sendPieces_idle s 0 _, rfl⟩
  | recvAndPush =>
    exact .inl ⟨recvAndPush_idle s, rfl⟩
  | update nowMs =>
    have hupdate := idle_apply s (.update nowMs)
    unfold apply update
    dsimp only
    split
    · exact .inl ⟨Idle.refl s, rfl⟩
    · unfold onKcp
      cases hres : (s.kcp.update nowMs).1 with
      | error e =>
        exact .inl ⟨hupdate, rfl⟩
      | ok u =>
        exact .inr ⟨_, hupdate, rfl⟩
  | forceFlush nowMs =>
    have hupdate := idle_apply s (.update nowMs)
    unfold apply forceFlush onKcp
    dsimp only
    cases hres : (s.kcp.update nowMs).1 with
    | error e =>
      exact .inl ⟨hupdate, rfl⟩
    | ok u =>
      have hflush := hupdate.trans (idle_apply _ .flush)
      cases hres' : ((s.kcp.update nowMs).2.flush).1 with
      | error e =>
        left
        simp only [Except.mapError, andThen_ok, hres']
        exact ⟨hflush, rfl⟩
      | ok u' =>
        right
        refine ⟨_, hflush, ?_⟩
        simp only [Except.mapError, andThen_ok, hres']
        rfl

theorem apply_sends {s : KcpSession} (hg : Fec.Generates d p r fec) (h : Sends fec d p mtu s net)
    (op : SessionOp) :
    Sends fec d p mtu (s.apply op).2 (net ++ (s.apply op).1) ∧
      exists more, (s.apply op).2.encoded = s.encoded ++ more := by
  rcases apply_cases s op with ⟨hidle, hnone⟩ | ⟨s', hidle, heq⟩
  · rw [hnone, append_nil]
    exact ⟨h.quiet hidle.1, [], by rw [hidle.1.encoded, append_nil]⟩
  · have hs' := h.quiet hidle.1
    rw [heq]
    exact ⟨hs'.emit hg, _, by rw [(emit_sent hg hs'.sent).2, hidle.1.encoded]⟩

theorem apply_sameGroups (op : SessionOp) : SameGroups s (s.apply op).2 := by
  rcases apply_cases s op with ⟨hidle, _⟩ | ⟨s', hidle, heq⟩
  · exact hidle.2
  · rw [heq]
    exact hidle.2.trans (emit_frame s').2

/-!
## Two sessions and a network
-/

structure Pair where
  sender : KcpSession
  network : List (List Byte)
  receiver : KcpSession

/-- The sender may receive anything; the receiver gets packets of the sender, named by
their position in the order of emission. -/
inductive PairEvent where
  | sender (op : SessionOp)
  | senderInput (pruneMs nowMs : Nat) (data : List Byte)
  | receiver (op : SessionOp)
  | deliver (pruneMs nowMs j : Nat)

def Pair.step (P : Pair) : PairEvent -> Pair
  | .sender op =>
    { P with
      sender := (P.sender.apply op).2
      network := P.network ++ (P.sender.apply op).1 }
  | .senderInput pruneMs nowMs data =>
    { P with sender := (P.sender.input pruneMs nowMs data).2 }
  | .receiver op => { P with receiver := (P.receiver.apply op).2 }
  | .deliver pruneMs nowMs j =>
    match P.network[j]? with
    | some packet => { P with receiver := (P.receiver.input pruneMs nowMs packet).2 }
    | none => P

/-- The datagrams of a pair arrive whole: the invariant of every run. -/
structure Pair.Sound (fec : Fec) (d p mtu : Nat) (P : Pair) : Prop where
  sends : Sends fec d p mtu P.sender P.network
  receives : Receives fec d p P.sender.encoded P.receiver

variable {P : Pair}

theorem Pair.Sound.fitsSize (h : P.Sound fec d p mtu) (hmtu : mtu ≤ 65533) :
    forall x, x ∈ P.sender.encoded -> FitsSize x := by
  intro x hx
  obtain ⟨hpos, hlen⟩ := h.sends.fits x hx
  exact ⟨hpos, by omega⟩

theorem Receives.append {fec : Fec} {d p : Nat} {ds : List (List Byte)} {s : KcpSession}
    (hd : 1 ≤ d) (h : Receives fec d p ds s) (more : List (List Byte)) :
    Receives fec d p (ds ++ more) s where
  codec := h.codec
  dataShards := h.dataShards
  parityShards := h.parityShards
  groups := by
    intro key group hlookup
    obtain ⟨g, hkey, hholds, hcount⟩ := h.groups key group hlookup
    exact ⟨g, hkey, hholds.append hd more, hcount⟩
  handed := fun x hx => mem_append_left _ (h.handed x hx)

theorem Receives.sameGroups {d p : Nat} {ds : List (List Byte)} {s s' : KcpSession}
    (h : Receives fec d p ds s) (hs' : SameGroups s s') : Receives fec d p ds s' where
  codec := hs'.fec.trans h.codec
  dataShards := hs'.dataShards.trans h.dataShards
  parityShards := hs'.parityShards.trans h.parityShards
  groups := by
    rw [hs'.shardGroups, hs'.handed]
    exact h.groups
  handed := by
    rw [hs'.handed]
    exact h.handed

theorem Pair.Sound.deliver {d p mtu j : Nat} {packet : List Byte} (hg : Fec.Generates d p r fec)
    (hmtu : mtu ≤ 65533) (h : P.Sound fec d p mtu) (hbound : P.network.length < 4294967296)
    (hpacket : P.network[j]? = some packet) (pruneMs nowMs : Nat) :
    Absorbed fec d p P.sender.encoded j (P.receiver.pruneOldGroups pruneMs)
      (P.receiver.input pruneMs nowMs packet) := by
  obtain ⟨hj, _⟩ := List.getElem?_eq_some_iff.mp hpacket
  rw [h.sends.sent.get hj] at hpacket
  cases hpacket
  have hcount := h.sends.sent.length
  exact input_absorbed hg (h.fitsSize hmtu) h.receives (by omega) (by omega) pruneMs nowMs

theorem Pair.step_sound (hg : Fec.Generates d p r fec) (hmtu : mtu ≤ 65533)
    (h : P.Sound fec d p mtu) (hbound : P.network.length < 4294967296) (e : PairEvent) :
    (P.step e).Sound fec d p mtu := by
  cases e with
  | sender op =>
    obtain ⟨hsends, more, hmore⟩ := apply_sends hg h.sends op
    refine ⟨hsends, ?_⟩
    change Receives fec d p (P.sender.apply op).2.encoded P.receiver
    rw [hmore]
    exact h.receives.append hg.data_pos more
  | senderInput pruneMs nowMs data =>
    have hquiet := input_quiet P.sender pruneMs nowMs data
    refine ⟨h.sends.quiet hquiet, ?_⟩
    change Receives fec d p (P.sender.input pruneMs nowMs data).2.encoded P.receiver
    rw [hquiet.encoded]
    exact h.receives
  | receiver op =>
    exact ⟨h.sends, h.receives.sameGroups (apply_sameGroups P.receiver op)⟩
  | deliver pruneMs nowMs j =>
    unfold step
    dsimp only
    split
    · rename_i packet hpacket
      exact ⟨h.sends, (h.deliver hg hmtu hbound hpacket pruneMs nowMs).receives⟩
    · exact h

theorem Pair.network_le_step (P : Pair) (e : PairEvent) :
    P.network.length ≤ (P.step e).network.length := by
  cases e with
  | sender op =>
    change P.network.length ≤ (P.network ++ (P.sender.apply op).1).length
    rw [length_append]
    omega
  | senderInput pruneMs nowMs data =>
    exact Nat.le_refl _
  | receiver op =>
    exact Nat.le_refl _
  | deliver pruneMs nowMs j =>
    unfold step
    dsimp only
    split
    · exact Nat.le_refl _
    · exact Nat.le_refl _

theorem Pair.network_le_run (P : Pair) (es : List PairEvent) :
    P.network.length ≤ (Run.run Pair.step P es).network.length := by
  induction es generalizing P with
  | nil =>
    exact Nat.le_refl _
  | cons e es ih =>
    exact Nat.le_trans (P.network_le_step e) (ih (P.step e))

theorem Pair.run_sound (hg : Fec.Generates d p r fec) (hmtu : mtu ≤ 65533) (h : P.Sound fec d p mtu)
    (es : List PairEvent) (hbound : (Run.run Pair.step P es).network.length < 4294967296) :
    (Run.run Pair.step P es).Sound fec d p mtu := by
  induction es generalizing P with
  | nil =>
    exact h
  | cons e es ih =>
    have hle := (P.step e).network_le_run es
    have hle' := P.network_le_step e
    rw [Run.run_cons] at hbound
    exact ih (step_sound hg hmtu h (by omega) e) hbound

/-!
## Collecting a group
-/

theorem Complete.mono {d g : Nat} {ds handed handed' : List (List Byte)}
    (h : Complete d g ds handed) (more : List (List Byte)) (hsub : handed ⊆ handed') :
    Complete d g (ds ++ more) handed' := by
  intro i hi
  obtain ⟨hlt, hmem⟩ := h i hi
  refine ⟨by rw [length_append]; omega, ?_⟩
  rw [getD_eq_getElem?_getD, List.getElem?_append_left hlt, ← getD_eq_getElem?_getD]
  exact hsub hmem

def Pair.HasGroup (d g : Nat) (P : Pair) : Prop :=
  Complete d g P.sender.encoded P.receiver.handed

theorem Pair.step_hasGroup {d p mtu g : Nat} (hg : Fec.Generates d p r fec) (hmtu : mtu ≤ 65533)
    (h : P.Sound fec d p mtu) (hbound : P.network.length < 4294967296) (hgroup : P.HasGroup d g)
    (e : PairEvent) :
    (P.step e).HasGroup d g := by
  cases e with
  | sender op =>
    obtain ⟨_, more, hmore⟩ := apply_sends hg h.sends op
    change Complete d g (P.sender.apply op).2.encoded P.receiver.handed
    rw [hmore]
    exact Complete.mono hgroup more (List.Subset.refl _)
  | senderInput pruneMs nowMs data =>
    change Complete d g (P.sender.input pruneMs nowMs data).2.encoded P.receiver.handed
    rw [(input_quiet P.sender pruneMs nowMs data).encoded]
    exact hgroup
  | receiver op =>
    change Complete d g P.sender.encoded (P.receiver.apply op).2.handed
    rw [(apply_sameGroups P.receiver op).handed]
    exact hgroup
  | deliver pruneMs nowMs j =>
    unfold step
    dsimp only
    split
    · rename_i packet hpacket
      have habsorbed := h.deliver hg hmtu hbound hpacket pruneMs nowMs
      have hmono := Complete.mono hgroup [] habsorbed.handed
      rw [append_nil] at hmono
      exact hmono
    · exact hgroup

theorem Pair.run_hasGroup {d p mtu g : Nat} (hg : Fec.Generates d p r fec) (hmtu : mtu ≤ 65533)
    (h : P.Sound fec d p mtu) (es : List PairEvent)
    (hbound : (Run.run Pair.step P es).network.length < 4294967296) (hgroup : P.HasGroup d g) :
    (Run.run Pair.step P es).HasGroup d g := by
  induction es generalizing P with
  | nil =>
    exact hgroup
  | cons e es ih =>
    have hle := (P.step e).network_le_run es
    have hle' := P.network_le_step e
    rw [Run.run_cons] at hbound
    exact ih (step_sound hg hmtu h (by omega) e) hbound
      (step_hasGroup hg hmtu h (by omega) hgroup e)

/-- An emitted packet arrives, group `g` is not pruned on that occasion, and the call
succeeds: `input` fails exactly when a call of `Kcp::input` that it makes does. -/
def Pair.Keeps (total g : Nat) (P : Pair) : PairEvent -> Prop
  | .deliver pruneMs nowMs j =>
    exists packet, P.network[j]? = some packet ∧
      ¬ Prunes P.receiver pruneMs (UInt32.ofNat (total * g)) ∧
        (P.receiver.input pruneMs nowMs packet).1 = .ok ()
  | _ => True

/-- Shard `i` of group `g` is in the receiver's table. -/
def Pair.HoldsShard (total g : Nat) (P : Pair) (i : Nat) : Prop :=
  exists key : UInt32, key.toNat = total * g ∧ Held P.receiver key i

def deliveredSlot : PairEvent -> Option Nat
  | .deliver _ _ j => some j
  | _ => none

theorem held_of_not_prunes {s : KcpSession} {now i : Nat} {key : UInt32} (h : Held s key i)
    (hkept : ¬ Prunes s now key) : Held (s.pruneOldGroups now) key i := by
  obtain ⟨group, hlookup, hsome⟩ := h
  exact ⟨group, lookup_of_not_prunes hlookup hkept, hsome⟩

theorem Pair.step_collects {d p mtu g : Nat} (hg : Fec.Generates d p r fec) (hmtu : mtu ≤ 65533)
    (h : P.Sound fec d p mtu) (hbound : P.network.length < 4294967296) {e : PairEvent}
    (hkeeps : P.Keeps (d + p) g e) :
    (P.step e).HasGroup d g ∨
      forall i, i < d + p ->
        deliveredSlot e = some ((d + p) * g + i) ∨ P.HoldsShard (d + p) g i ->
          (P.step e).HoldsShard (d + p) g i := by
  have htotal := hg.total_le
  cases e with
  | sender op =>
    right
    rintro i _ (hfalse | hheld)
    · cases hfalse
    · exact hheld
  | senderInput pruneMs nowMs data =>
    right
    rintro i _ (hfalse | hheld)
    · cases hfalse
    · exact hheld
  | receiver op =>
    right
    rintro i _ (hfalse | ⟨key, hkey, group, hlookup, hsome⟩)
    · cases hfalse
    · refine ⟨key, hkey, group, ?_, hsome⟩
      change (P.receiver.apply op).2.shardGroups.lookup key = some group
      rw [(apply_sameGroups P.receiver op).shardGroups]
      exact hlookup
  | deliver pruneMs nowMs j =>
    obtain ⟨packet, hpacket, hkept, hok⟩ := hkeeps
    obtain ⟨hj, _⟩ := List.getElem?_eq_some_iff.mp hpacket
    obtain ⟨hslot, _⟩ := slot_of_seqid (show d + p < 4294967296 by omega)
      (show j < 4294967296 by omega)
    have habsorbed := h.deliver hg hmtu hbound hpacket pruneMs nowMs
    have hstep : P.step (.deliver pruneMs nowMs j) =
        { P with receiver := (P.receiver.input pruneMs nowMs packet).2 } := by
      unfold step
      dsimp only
      rw [hpacket]
    have hkey : forall key : UInt32, key.toNat = (d + p) * g ->
        ¬ Prunes P.receiver pruneMs key := by
      intro key hkeyg
      rw [← hkeyg, UInt32.ofNat_toNat] at hkept
      exact hkept
    rw [hstep]
    by_cases hsame : j / (d + p) = g
    · rw [hsame] at hslot
      have hcollects := habsorbed.collects hok
      rw [hsame] at hcollects
      refine hcollects.imp id ?_
      intro hcollects i hi hor
      refine ⟨_, hslot, hcollects i ?_⟩
      rcases hor with hdelivered | ⟨key, hkeyg, hheld⟩
      · left
        cases hdelivered
        rw [slot_mod _ hi]
      · right
        have heq : key = groupKey (d + p) (UInt32.ofNat j) := by
          apply UInt32.toNat_inj.mp
          rw [hkeyg, hslot]
        rw [← heq]
        exact held_of_not_prunes hheld (hkey key hkeyg)
    · right
      rintro i hi (hdelivered | ⟨key, hkeyg, hheld⟩)
      · exfalso
        cases hdelivered
        exact hsame (slot_div _ hi)
      · have hne : key ≠ groupKey (d + p) (UInt32.ofNat j) := by
          intro heq
          apply hsame
          apply Nat.eq_of_mul_eq_mul_left (show 0 < d + p by omega)
          rw [← hslot, ← hkeyg, heq]
        obtain ⟨group, hlookup, hsome⟩ := held_of_not_prunes hheld (hkey key hkeyg)
        exact ⟨key, hkeyg, group, (habsorbed.others key hne).trans hlookup, hsome⟩

theorem Pair.run_collects {d p mtu g : Nat} (hg : Fec.Generates d p r fec) (hmtu : mtu ≤ 65533)
    (h : P.Sound fec d p mtu) (es : List PairEvent)
    (hbound : (Run.run Pair.step P es).network.length < 4294967296)
    (hkeeps : Run.Along Pair.step (Pair.Keeps (d + p) g) P es) :
    (Run.run Pair.step P es).HasGroup d g ∨
      forall i, i < d + p ->
        (exists e, e ∈ es ∧ deliveredSlot e = some ((d + p) * g + i)) ∨
            P.HoldsShard (d + p) g i ->
          (Run.run Pair.step P es).HoldsShard (d + p) g i := by
  induction es generalizing P with
  | nil =>
    right
    rintro i _ (⟨e, he, _⟩ | hheld)
    · cases he
    · exact hheld
  | cons e es ih =>
    have hle := (P.step e).network_le_run es
    have hle' := P.network_le_step e
    rw [Run.run_cons] at hbound ⊢
    have hsound := step_sound hg hmtu h (by omega) e
    rcases step_collects hg hmtu h (by omega) hkeeps.1 with hgroup | hstep
    · exact .inl (run_hasGroup hg hmtu hsound es hbound hgroup)
    · refine (ih hsound hbound hkeeps.2).imp id ?_
      intro hrest i hi hor
      apply hrest i hi
      rcases hor with ⟨e', he', hslot⟩ | hheld
      · rcases mem_cons.mp he' with rfl | he'
        · exact .inr (hstep i hi (.inl hslot))
        · exact .inl ⟨e', he', hslot⟩
      · exact .inr (hstep i hi (.inr hheld))

/-- The different shards of group `g` among the packets delivered. -/
def shardsReceived (total g : Nat) (es : List PairEvent) : List Nat :=
  (range total).filter fun i =>
    es.any fun e => deliveredSlot e = some (total * g + i)

theorem Pair.Sound.few (g : Nat) (held : List Nat) (hd : 1 ≤ d) (h : P.Sound fec d p mtu)
    (hnodup : held.Nodup) (hheld : forall i, i ∈ held -> P.HoldsShard (d + p) g i) :
    held.length < d := by
  cases held with
  | nil =>
    exact hd
  | cons i₀ rest =>
    obtain ⟨key, hkey, group, hlookup, _⟩ := hheld i₀ (by simp)
    obtain ⟨_, _, hholds, hcount⟩ := h.receives.groups key group hlookup
    have hsub : (i₀ :: rest) ⊆ Fec.present group.shards := by
      intro i hi
      obtain ⟨key', hkey', group', hlookup', hsome⟩ := hheld i hi
      have heq : key' = key := by
        apply UInt32.toNat_inj.mp
        rw [hkey', hkey]
      rw [heq, hlookup] at hlookup'
      cases hlookup'
      obtain ⟨shard, hshard⟩ := Option.isSome_iff_exists.mp hsome
      exact Fec.mem_present.mpr ⟨lt_of_getD_some hshard, hsome⟩
    have hle := (hnodup.subperm hsub).length_le
    rw [← hholds.count] at hle
    omega

/-!
## The pair from its start
-/

def Pair.start (convA convB : UInt32) (configA configB : KcpConfig) (readA readB : Channel) :
    Pair :=
  { sender := new convA configA readA, network := [], receiver := new convB configB readB }

theorem configured_mtu_le (conv : UInt32) (config : KcpConfig) (readTx : Channel) :
    (new conv config readTx).kcp.mtu ≤ max config.mtu Kcp.mtuDef := by
  change (Kcp.applySetting (Kcp.construct conv _ config.stream) (.mtu config.mtu)).mtu ≤ _
  unfold Kcp.applySetting Kcp.setMtu
  dsimp only
  split
  · exact Nat.le_max_right _ _
  · exact Nat.le_max_left _ _

theorem Pair.start_sound (convA convB : UInt32) {configA configB : KcpConfig}
    (readA readB : Channel) (hd : 1 ≤ configA.dataShards) (hp : 1 ≤ configA.parityShards)
    (hdp : configA.dataShards + configA.parityShards ≤ 256)
    (hdata : configB.dataShards = configA.dataShards)
    (hparity : configB.parityShards = configA.parityShards) :
    exists fec r, Fec.Generates configA.dataShards configA.parityShards r fec ∧
      (Pair.start convA convB configA configB readA readB).Sound fec configA.dataShards
        configA.parityShards (new convA configA readA).kcp.mtu := by
  obtain ⟨fec, r, hfec, hg, hsent⟩ := new_sent convA readA hd hp hdp
  rw [← hdata, ← hparity] at hfec
  obtain ⟨hcodec, hshards⟩ := new_codec convB readB (by omega) (by omega)
    (by omega) hfec
  refine ⟨fec, r, hg, ⟨hsent, ?_, rfl, ?_⟩, ⟨hcodec, hshards.trans hdata, hparity, ?_, ?_⟩⟩
  · exact Kcp.Pristine.wired (Kcp.configured_pristine convA _ configA.stream _)
  · intro x hx
    cases hx
  · intro key group hlookup
    cases hlookup
  · intro x hx
    cases hx

/-- What the receiver hands on from FEC-tagged packets are datagrams of the sender; and
`d` different shards of a group, received while its entry is not pruned and no call
fails, bring all of its datagrams. -/
theorem pair_recovers (convA convB : UInt32) (configA configB : KcpConfig)
    (readA readB : Channel) (es : List PairEvent) (hd : 1 ≤ configA.dataShards)
    (hp : 1 ≤ configA.parityShards) (hdp : configA.dataShards + configA.parityShards ≤ 256)
    (hdata : configB.dataShards = configA.dataShards)
    (hparity : configB.parityShards = configA.parityShards) (hmtu : configA.mtu ≤ 65533)
    (hbound : (Run.run Pair.step
      (Pair.start convA convB configA configB readA readB) es).network.length < 4294967296) :
    (forall x, x ∈ (Run.run Pair.step
        (Pair.start convA convB configA configB readA readB) es).receiver.handed ->
      x ∈ (Run.run Pair.step
        (Pair.start convA convB configA configB readA readB) es).sender.encoded) ∧
    (forall before segment g, es = before ++ segment ->
      Run.Along Pair.step (Pair.Keeps (configA.dataShards + configA.parityShards) g)
        (Run.run Pair.step (Pair.start convA convB configA configB readA readB) before)
        segment ->
      configA.dataShards ≤
        (shardsReceived (configA.dataShards + configA.parityShards) g segment).length ->
      (Run.run Pair.step
        (Pair.start convA convB configA configB readA readB) es).HasGroup
          configA.dataShards g) := by
  obtain ⟨fec, r, hg, hstart⟩ :=
    Pair.start_sound convA convB readA readB hd hp hdp hdata hparity
  have hmtu' : (new convA configA readA).kcp.mtu ≤ 65533 := by
    have hle := configured_mtu_le convA configA readA
    have hdef : Kcp.mtuDef = 1400 := rfl
    omega
  have hsound := Pair.run_sound hg hmtu' hstart es hbound
  refine ⟨hsound.receives.handed, ?_⟩
  intro before segment g hes hkeeps hcount
  subst hes
  rw [Run.run_append] at hbound hsound ⊢
  have hle := (Run.run Pair.step (Pair.start convA convB configA configB readA readB)
    before).network_le_run segment
  have hbefore := Pair.run_sound hg hmtu' hstart before (by omega)
  rcases Pair.run_collects hg hmtu' hbefore segment hbound hkeeps with hgroup | hheld
  · exact hgroup
  · exfalso
    have hfew := hsound.few g (shardsReceived
      (configA.dataShards + configA.parityShards) g segment) hd
      (List.Nodup.filter _ nodup_range) ?_
    · omega
    · intro i hi
      obtain ⟨hrange, hany⟩ := mem_filter.mp hi
      obtain ⟨e, he, hslot⟩ := any_eq_true.mp hany
      exact hheld i (mem_range.mp hrange) (.inl ⟨e, he, by simpa using hslot⟩)

def pairConfig : KcpConfig :=
  { defaultKcpConfig with dataShards := 1, parityShards := 1 }

def samplePair : Pair :=
  Pair.start 7 7 pairConfig pairConfig ⟨16, [], false⟩ ⟨16, [], false⟩

def sampleEvents : List PairEvent :=
  [.sender (.send [104, 105]), .sender (.update 0)]

theorem sampleEvents_keeps :
    Pair.Keeps (1 + 1) 0 (Run.run Pair.step samplePair sampleEvents) (.deliver 0 0 1) := by
  refine ⟨_, rfl, ?_, ?_⟩
  · unfold Prunes
    decide +kernel
  · decide +kernel

/-- Of a data packet and its parity packet only the second arrives. -/
theorem pair_recovers_parity_only :
    (forall x, x ∈ (Run.run Pair.step samplePair
        (sampleEvents ++ [.deliver 0 0 1])).receiver.handed ->
      x ∈ (Run.run Pair.step samplePair (sampleEvents ++ [.deliver 0 0 1])).sender.encoded) ∧
    (Run.run Pair.step samplePair (sampleEvents ++ [.deliver 0 0 1])).HasGroup 1 0 := by
  obtain ⟨hhanded, hgroups⟩ := pair_recovers 7 7 pairConfig pairConfig ⟨16, [], false⟩
    ⟨16, [], false⟩ (sampleEvents ++ [.deliver 0 0 1]) (by decide) (by decide) (by decide) rfl
    rfl (by decide) (by decide +kernel)
  have hkeeps := sampleEvents_keeps
  unfold samplePair at hkeeps ⊢
  exact ⟨hhanded, hgroups sampleEvents [.deliver 0 0 1] 0 rfl ⟨hkeeps, trivial⟩ (by decide)⟩

end KcpSession
end FrpRs
