import FrpRs.Kcp.Receive
import FrpRs.Kcp.Wire

/-!
# Two machines and the network between them

Two machines in stream mode exchange datagrams over a network that may lose,
repeat, delay and reorder them.  What one side receives is a prefix of what the
other side accepted, as long as no `send` is rejected after it has already put
part of its buffer into the last queued segment.
-/

namespace FrpRs
namespace Kcp

open List Bytes
open Fallible
open Serial

/-- A machine together with what its user handed over and got back: the bytes of
the accepted `send` calls, the bytes returned by `recv`, and the number of
segments sent so far. -/
structure Endpoint where
  kcp : Kcp PacketWriter
  accepted : List Byte := []
  received : List Byte := []
  segments : Nat := 0

inductive Call where
  | send (buf : List Byte)
  | update (current : UInt32)
  | flush
  | recv (bufLen : Nat)
deriving DecidableEq, Repr

/-- The endpoint after a flush or an update left the machine in state `kcp`. -/
def Endpoint.flushed (e : Endpoint) (kcp : Kcp PacketWriter) : Endpoint :=
  { e with
    kcp := kcp
    segments := e.segments + (e.kcp.sndQueue.length - kcp.sndQueue.length) }

def Endpoint.send (e : Endpoint) (buf : List Byte) : Endpoint :=
  match e.kcp.send buf with
  | (.ok n, k) => { e with kcp := k, accepted := e.accepted ++ buf.take n }
  | (.error _, k) => { e with kcp := k }

def Endpoint.recv (e : Endpoint) (bufLen : Nat) : Endpoint :=
  match e.kcp.recv bufLen with
  | (.ok data, k) => { e with kcp := k, received := e.received ++ data }
  | (.error _, k) => { e with kcp := k }

def Endpoint.call (e : Endpoint) : Call -> Endpoint
  | .send buf => e.send buf
  | .update current => e.flushed (e.kcp.update current).2
  | .flush => e.flushed e.kcp.flush.2
  | .recv bufLen => e.recv bufLen

variable {e : Endpoint} {buf : List Byte}

theorem Endpoint.send_ok {n : Nat} {k : Kcp PacketWriter} (h : e.kcp.send buf = (.ok n, k)) :
    e.send buf = { e with kcp := k, accepted := e.accepted ++ buf.take n } := by
  unfold Endpoint.send
  rw [h]

theorem Endpoint.send_error {err : Error} {k : Kcp PacketWriter}
    (h : e.kcp.send buf = (.error err, k)) :
    e.send buf = { e with kcp := k } := by
  unfold Endpoint.send
  rw [h]

theorem Endpoint.recv_ok {bufLen : Nat} {data : List Byte} {k : Kcp PacketWriter}
    (h : e.kcp.recv bufLen = (.ok data, k)) :
    e.recv bufLen = { e with kcp := k, received := e.received ++ data } := by
  unfold Endpoint.recv
  rw [h]

theorem Endpoint.recv_error {bufLen : Nat} {err : Error} {k : Kcp PacketWriter}
    (h : e.kcp.recv bufLen = (.error err, k)) :
    e.recv bufLen = { e with kcp := k } := by
  unfold Endpoint.recv
  rw [h]

def Endpoint.input (e : Endpoint) (datagram : List Byte) : Endpoint :=
  { e with kcp := (e.kcp.input datagram).2 }

inductive Side where
  | a
  | b
deriving DecidableEq, Repr

structure Link where
  a : Endpoint
  b : Endpoint

/-- A call on one side, or the network handing one side a datagram that the other
side has output: any of them, at any later time, any number of times. -/
inductive LinkEvent where
  | call (side : Side) (call : Call)
  | deliver (side : Side) (index : Nat)
deriving DecidableEq, Repr

def deliver (src dst : Endpoint) (index : Nat) : Endpoint :=
  match src.kcp.output.packets[index]? with
  | some datagram => dst.input datagram
  | none => dst

def Link.step (l : Link) : LinkEvent -> Link
  | .call .a c => { l with a := l.a.call c }
  | .call .b c => { l with b := l.b.call c }
  | .deliver .a index => { l with a := deliver l.b l.a index }
  | .deliver .b index => { l with b := deliver l.a l.b index }

def Link.start (conv : UInt32) (settingsA settingsB : List Setting) : Link :=
  { a := { kcp := configured conv {} true settingsA }
    b := { kcp := configured conv {} true settingsB } }

/-!
## What `send` queues
-/

def payload (segs : List KcpSegment) : List Byte :=
  (segs.map fun s => s.data).flatten

@[simp] theorem payload_nil : payload [] = [] := rfl

@[simp] theorem payload_cons (s : KcpSegment) (segs : List KcpSegment) :
    payload (s :: segs) = s.data ++ payload segs := rfl

@[simp] theorem payload_append (a b : List KcpSegment) :
    payload (a ++ b) = payload a ++ payload b := by
  simp [payload]

theorem length_payload (segs : List KcpSegment) :
    (payload segs).length = (segs.map fun s => s.data.length).sum := by
  simp [payload, length_flatten, Function.comp_def]

section Queueing

variable {Output : Type} {k : Kcp Output}

/-- The `send` that fails after it has changed the queue: the last queued segment
has room for a part of the buffer, and the rest is too large. -/
def ExtendsThenRejects (k : Kcp Output) (buf : List Byte) : Prop :=
  0 < k.extendSize buf ∧ k.extendSize buf < buf.length ∧
    wndRcv.toNat ≤ segmentCount k.mss (buf.length - k.extendSize buf)

instance (k : Kcp Output) (buf : List Byte) : Decidable (ExtendsThenRejects k buf) :=
  inferInstanceAs (Decidable (_ ∧ _ ∧ _))

theorem extendSize_le (k : Kcp Output) (buf : List Byte) :
    k.extendSize buf ≤ buf.length := by
  unfold extendSize
  split
  · exact Nat.zero_le _
  · split
    · exact Nat.min_le_left _ _
    · exact Nat.zero_le _

theorem payload_extendLast (k : Kcp Output) (buf : List Byte) :
    payload (k.extendLast buf).sndQueue =
      payload k.sndQueue ++ buf.take (k.extendSize buf) := by
  unfold extendLast
  split
  · rename_i hlast
    have hsize : k.extendSize buf = 0 := by
      unfold extendSize
      rw [hlast]
    simp [hsize]
  · rename_i old hlast
    split
    · obtain ⟨init, hinit⟩ := getLast?_eq_some_iff.mp hlast
      have hdrop : k.sndQueue.dropLast = init := by
        rw [hinit, dropLast_concat]
      simp [hinit]
    · rename_i hfull
      have hsize : k.extendSize buf = 0 := by
        unfold extendSize
        rw [hlast]
        exact if_neg hfull
      simp [hsize]

theorem payload_splitSegments (mss : Nat) (stream : Bool) (n : Nat) (rest : List Byte) :
    payload (splitSegments mss stream n rest) = rest.take (n * mss) := by
  induction n generalizing rest with
  | zero =>
    simp [splitSegments]
  | succ n ih =>
    unfold splitSegments
    rw [payload_cons, ih, Nat.succ_mul, Nat.add_comm, take_add]
    rfl

theorem le_segmentCount_mul {mss remaining : Nat} (hmss : 0 < mss) :
    remaining ≤ max 1 (segmentCount mss remaining) * mss := by
  unfold segmentCount
  split
  · simpa using ‹remaining ≤ mss›
  · have hmod := Nat.div_add_mod (remaining + mss - 1) mss
    have hlt := Nat.mod_lt (remaining + mss - 1) hmss
    have hmax : (remaining + mss - 1) / mss ≤ max 1 ((remaining + mss - 1) / mss) :=
      Nat.le_max_right _ _
    have hmul := Nat.mul_le_mul_right mss hmax
    rw [Nat.mul_comm] at hmod
    omega

theorem sendRest_payload (hmss : 0 < k.mss) (sent : Nat) (rest : List Byte) :
    (exists e, k.sendRest sent rest = (.error e, k) ∧
      wndRcv.toNat ≤ segmentCount k.mss rest.length) ∨
    (exists k', k.sendRest sent rest = (.ok (sent + rest.length), k') ∧
      payload k'.sndQueue = payload k.sndQueue ++ rest) := by
  unfold sendRest
  simp only
  split
  · rename_i hbig
    exact .inl ⟨_, rfl, hbig⟩
  · have hsplit : payload (splitSegments k.mss k.stream
        (max 1 (segmentCount k.mss rest.length)) rest) = rest := by
      rw [payload_splitSegments, take_of_length_le (le_segmentCount_mul hmss)]
    right
    rw [← length_payload, hsplit]
    exact ⟨_, rfl, by simp [hsplit]⟩

theorem send_payload (hstream : k.stream = true) (hmss : 0 < k.mss) (buf : List Byte)
    (hkept : ¬ ExtendsThenRejects k buf) :
    (exists e k', k.send buf = (.error e, k') ∧
      payload k'.sndQueue = payload k.sndQueue) ∨
    (exists k', k.send buf = (.ok buf.length, k') ∧
      payload k'.sndQueue = payload k.sndQueue ++ buf) := by
  have hextend := payload_extendLast k buf
  have hle := extendSize_le k buf
  have hframe : (k.extendLast buf).mss = k.mss := by
    obtain ⟨queue, hqueue⟩ := extendLast_frame k buf
    rw [hqueue]
  unfold send
  rw [if_pos hstream]
  by_cases hall : k.extendSize buf = buf.length
  · rw [if_pos hall, hall]
    rw [hall, take_length] at hextend
    exact .inr ⟨_, rfl, hextend⟩
  · rw [if_neg hall]
    rcases sendRest_payload (k := k.extendLast buf) (by rw [hframe]; exact hmss)
        (k.extendSize buf) (buf.drop (k.extendSize buf)) with
      ⟨e, hsend, hbig⟩ | ⟨k', hsend, hqueue⟩
    · left
      refine ⟨e, _, hsend, ?_⟩
      rw [hframe, length_drop] at hbig
      have hzero : k.extendSize buf = 0 := by
        rcases Nat.eq_zero_or_pos (k.extendSize buf) with hzero | hpos
        · exact hzero
        · exact absurd ⟨hpos, by omega, hbig⟩ hkept
      rw [hextend, hzero]
      simp
    · right
      refine ⟨k', ?_, ?_⟩
      · rw [hsend, length_drop]
        congr 2
        omega
      · rw [hqueue, hextend, append_assoc, take_append_drop]

end Queueing

/-!
## Numbered segments

The payloads sent in one direction form a list, and the segment with number `n`
carries the payload at position `n` of it, wherever that segment is: in the send
buffer, in a datagram or in the peer's reassembly buffer.
-/

def Numbered (sent : List (List Byte)) (c : SegmentCore) : Prop :=
  c.cmd = cmdPush -> sent[c.sn.toNat]? = some c.data

theorem Numbered.append {sent : List (List Byte)} {c : SegmentCore}
    (h : Numbered sent c) (more : List (List Byte)) : Numbered (sent ++ more) c := by
  intro hpush
  have hget := h hpush
  have hlt : c.sn.toNat < sent.length := (List.getElem?_eq_some_iff.mp hget).1
  rw [List.getElem?_append_left hlt]
  exact hget

theorem stampedCores_numbered {conv nxt : UInt32} {sent : List (List Byte)}
    {queue : List KcpSegment} (hnxt : nxt = UInt32.ofNat sent.length)
    (hlen : sent.length + queue.length < 2147483648) :
    forall c, c ∈ stampedCores conv nxt queue ->
      Numbered (sent ++ queue.map fun s => s.data) c := by
  induction queue generalizing nxt sent with
  | nil =>
    intro c hc
    cases hc
  | cons s queue ih =>
    intro c hc
    rw [length_cons] at hlen
    rcases mem_cons.mp hc with heq | htail
    · have hsn : nxt.toNat = sent.length := by
        rw [hnxt, UInt32.toNat_ofNat']
        omega
      intro _
      rw [heq]
      show (sent ++ (s :: queue).map fun s => s.data)[nxt.toNat]? = some s.data
      rw [hsn]
      simp
    · have hnext : nxt + 1 = UInt32.ofNat (sent ++ [s.data]).length := by
        rw [hnxt, length_append, UInt32.ofNat_add]
        rfl
      have hrest := ih hnext (by rw [length_append, length_singleton]; omega)
        c htail
      simpa using hrest

def Sound (sent : List (List Byte)) (conv : UInt32) (mss : Nat) (c : SegmentCore) :
    Prop :=
  Acceptable conv true mss c ∧ Numbered sent c

theorem sound_admitsControl (sent : List (List Byte)) (conv : UInt32) (mss : Nat) :
    AdmitsControl (Sound sent conv mss) conv := by
  intro seg hseg
  refine ⟨acceptable_admitsControl conv true mss seg hseg, ?_⟩
  intro hpush
  have hcmd : seg.cmd = cmdPush := hpush
  rcases hseg.cmd with hack | hwask | hwins
  · rw [hack] at hcmd
    exact absurd hcmd (by decide)
  · rw [hwask] at hcmd
    exact absurd hcmd (by decide)
  · rw [hwins] at hcmd
    exact absurd hcmd (by decide)

/-- The sending side of a direction: what was accepted is what was numbered,
followed by what is still queued. -/
structure Carries (sent : List (List Byte)) (accepted : List Byte)
    (k : Kcp PacketWriter) : Prop where
  wired : Wired k
  stream : k.stream = true
  mss : 0 < k.mss
  bound : k.mss < 4294967296
  accepted : accepted = sent.flatten ++ payload k.sndQueue
  next : k.sndNxt = UInt32.ofNat sent.length
  buffer : forall c, c ∈ k.sndBuf.map KcpSegment.core -> Numbered sent c
  emits : Emits (Sound sent k.conv k.mss) k

/-- The receiving side of a direction: what was received, with what waits in the
queue, is what was numbered below `rcv_nxt`. -/
structure Delivers (sent : List (List Byte)) (received : List Byte)
    (k : Kcp PacketWriter) : Prop where
  stream : k.stream = true
  inputConv : k.inputConv = false
  buffer : forall s, s ∈ k.rcvBuf -> s.frg = 0 ∧ sent[s.sn.toNat]? = some s.data
  queue : forall s, s ∈ k.rcvQueue -> s.frg = 0
  upto : k.rcvNxt.toNat ≤ sent.length
  received : received ++ payload k.rcvQueue = (sent.take k.rcvNxt.toNat).flatten

/-!
## The sending side
-/

section Sending

variable {sent : List (List Byte)} {accepted : List Byte} {k k' : Kcp PacketWriter}

theorem Carries.received (h : Carries sent accepted k) (hk : Received k k') :
    Carries sent accepted k' where
  wired := h.wired.received hk
  stream := hk.stream.trans h.stream
  mss := by
    rw [hk.mss]
    exact h.mss
  bound := by
    rw [hk.mss]
    exact h.bound
  accepted := by
    rw [hk.sndQueue]
    exact h.accepted
  next := hk.sndNxt.trans h.next
  buffer := fun c hc => h.buffer c (hk.sndBuf.subset hc)
  emits := by
    rw [hk.conv, hk.mss]
    exact h.emits.congr hk.output hk.buf hk.mtu

theorem Carries.send {res : Result Nat} (h : Carries sent accepted k)
    (hsend : k.send buf = (res, k')) {accepted' : List Byte}
    (haccepted : accepted' = sent.flatten ++ payload k'.sndQueue) :
    Carries sent accepted' k' := by
  have hwired := send_wired h.wired buf
  obtain ⟨queue, hframe⟩ := send_frame k buf
  rw [hsend] at hwired hframe
  obtain rfl : k' = _ := hframe
  exact ⟨hwired, h.stream, h.mss, h.bound, haccepted, h.next, h.buffer,
    h.emits.congr rfl rfl rfl⟩

theorem Carries.flushed_buffer {n : Nat} (h : Carries sent accepted k)
    (hk : Flushed n k k') (hlen : sent.length + n < 2147483648) :
    forall c, c ∈ k'.sndBuf.map KcpSegment.core ->
      Sound (sent ++ (k.sndQueue.take n).map fun s => s.data) k.conv k.mss c := by
  intro c hc
  have hacceptable := h.wired.flushed_buffer hk c hc
  rw [h.stream] at hacceptable
  refine ⟨hacceptable, ?_⟩
  rw [hk.buffer] at hc
  rcases mem_append.mp hc with hold | hnew
  · exact (h.buffer c hold).append _
  · apply stampedCores_numbered h.next _ c hnew
    rw [length_take]
    omega

theorem Carries.flushed {n : Nat} (h : Carries sent accepted k) (hk : Flushed n k k')
    (hwired : Wired k') (hlen : sent.length + n < 2147483648)
    (hemits : Emits (Sound (sent ++ (k.sndQueue.take n).map fun s => s.data) k.conv k.mss)
      k') :
    Carries (sent ++ (k.sndQueue.take n).map fun s => s.data) accepted k' where
  wired := hwired
  stream := hk.stream.trans h.stream
  mss := by
    rw [hk.mss]
    exact h.mss
  bound := by
    rw [hk.mss]
    exact h.bound
  accepted := by
    have hsplit : payload k.sndQueue =
        payload (k.sndQueue.take n) ++ payload (k.sndQueue.drop n) := by
      rw [← payload_append, take_append_drop]
    rw [hk.queue, flatten_append, append_assoc, h.accepted, hsplit]
    rfl
  next := by
    have hcount := hk.count
    rw [hk.next, h.next, length_append, length_map, length_take,
      Nat.min_eq_left hcount, UInt32.ofNat_add]
  buffer := fun c hc => (h.flushed_buffer hk hlen c hc).2
  emits := by
    rw [hk.conv, hk.mss]
    exact hemits

theorem Carries.emits_append (h : Carries sent accepted k) (more : List (List Byte)) :
    Emits (Sound (sent ++ more) k.conv k.mss) k :=
  h.emits.mono fun _ hc => ⟨hc.1, hc.2.append more⟩

theorem Carries.fitsMtu (h : Carries sent accepted k) {more : List (List Byte)}
    {c : SegmentCore} (hc : Sound more k.conv k.mss c) :
    FitsMtu (Sound more k.conv k.mss) k.mtu c := by
  have hacceptable := hc.1
  rw [← h.stream] at hacceptable
  exact ⟨hc, (h.wired.fitsMtu hacceptable).2⟩

theorem Carries.flush (h : Carries sent accepted k) :
    exists n, Flushed n k k.flush.2 ∧ (sent.length + n < 2147483648 ->
      Carries (sent ++ (k.sndQueue.take n).map fun s => s.data) accepted k.flush.2) := by
  obtain ⟨n, hflush⟩ := flush_flushed k
  refine ⟨n, hflush, ?_⟩
  intro hlen
  apply h.flushed hflush (flush_wired h.wired) hlen
  apply flush_emits (sound_admitsControl _ _ _) h.wired.overhead_le (h.emits_append _)
  intro c hc
  exact h.fitsMtu (h.flushed_buffer hflush hlen c hc)

theorem Carries.update (h : Carries sent accepted k) (current : UInt32) :
    exists n, Flushed n k (k.update current).2 ∧ (sent.length + n < 2147483648 ->
      Carries (sent ++ (k.sndQueue.take n).map fun s => s.data) accepted
        (k.update current).2) := by
  obtain ⟨n, hupdate⟩ := update_flushed k current
  refine ⟨n, hupdate, ?_⟩
  intro hlen
  apply h.flushed hupdate (update_wired h.wired current) hlen
  apply update_emits (sound_admitsControl _ _ _) h.wired.overhead_le (h.emits_append _)
  intro c hc
  exact h.fitsMtu (h.flushed_buffer hupdate hlen c hc)

end Sending

/-!
## The receiving side
-/

section Receiving

variable {sent : List (List Byte)} {received : List Byte} {k k' : Kcp PacketWriter}

theorem take_consecutive (hlen : sent.length < 2147483648) {nxt : UInt32}
    {moved : List KcpSegment} (hnumbers : Consecutive nxt (sns moved))
    (hsent : forall s, s ∈ moved -> sent[s.sn.toNat]? = some s.data)
    (hupto : nxt.toNat ≤ sent.length) :
    (nxt + UInt32.ofNat moved.length).toNat ≤ sent.length ∧
      (sent.take (nxt + UInt32.ofNat moved.length).toNat).flatten =
        (sent.take nxt.toNat).flatten ++ payload moved := by
  induction moved generalizing nxt with
  | nil =>
    simpa using hupto
  | cons s moved ih =>
    obtain ⟨hsn, hrest⟩ := hnumbers
    have hget : sent[nxt.toNat]? = some s.data := by
      rw [← hsn]
      exact hsent s (by simp)
    have hlt : nxt.toNat < sent.length := (List.getElem?_eq_some_iff.mp hget).1
    have hone : (1 : UInt32).toNat = 1 := rfl
    have hnext : (nxt + 1).toNat = nxt.toNat + 1 := by
      rw [UInt32.toNat_add, hone]
      omega
    have hsum : nxt + UInt32.ofNat (s :: moved).length =
        nxt + 1 + UInt32.ofNat moved.length := by
      rw [length_cons, Nat.add_comm, UInt32.ofNat_add, ← UInt32.add_assoc]
      rfl
    have htake : sent.take (nxt.toNat + 1) = sent.take nxt.toNat ++ [s.data] := by
      rw [take_add_one, hget]
      rfl
    obtain ⟨hle, hflat⟩ := ih hrest (fun t ht => hsent t (mem_cons_of_mem _ ht))
      (by rw [hnext]; omega)
    rw [hsum]
    refine ⟨hle, ?_⟩
    rw [hflat, hnext, htake]
    simp

theorem Delivers.moved (hlen : sent.length < 2147483648) {nxt : UInt32}
    {queue buf moved : List KcpSegment} (hmoved : Moved nxt queue buf moved k)
    (hstream : k.stream = true) (hwait : k.inputConv = false)
    (hbuf : forall s, s ∈ buf -> s.frg = 0 ∧ sent[s.sn.toNat]? = some s.data)
    (hqueue : forall s, s ∈ queue -> s.frg = 0) (hupto : nxt.toNat ≤ sent.length)
    (hreceived : received ++ payload queue = (sent.take nxt.toNat).flatten) :
    Delivers sent received k := by
  have hfront : forall s, s ∈ moved -> s ∈ buf := by
    intro s hs
    rw [hmoved.buffer]
    exact mem_append_left _ hs
  have hrest : forall s, s ∈ k.rcvBuf -> s ∈ buf := by
    intro s hs
    rw [hmoved.buffer]
    exact mem_append_right _ hs
  obtain ⟨hle, hflat⟩ := take_consecutive hlen hmoved.numbers
    (fun s hs => (hbuf s (hfront s hs)).2) hupto
  refine ⟨hstream, hwait, fun s hs => hbuf s (hrest s hs), ?_, ?_, ?_⟩
  · intro s hs
    rw [hmoved.queue] at hs
    rcases mem_append.mp hs with hold | hnew
    · exact hqueue s hold
    · exact (hbuf s (hfront s hnew)).1
  · rw [hmoved.next]
    exact hle
  · rw [hmoved.next, hflat, hmoved.queue, payload_append, ← append_assoc, hreceived]

theorem Delivers.append (h : Delivers sent received k) (more : List (List Byte)) :
    Delivers (sent ++ more) received k where
  stream := h.stream
  inputConv := h.inputConv
  buffer := by
    intro s hs
    obtain ⟨hfrg, hget⟩ := h.buffer s hs
    have hlt : s.sn.toNat < sent.length := (List.getElem?_eq_some_iff.mp hget).1
    rw [List.getElem?_append_left hlt]
    exact ⟨hfrg, hget⟩
  queue := h.queue
  upto := by
    have hupto := h.upto
    rw [length_append]
    omega
  received := by
    rw [take_append_of_le_length h.upto]
    exact h.received

theorem Delivers.same (h : Delivers sent received k) (hk : SameReceive k k')
    (hwait : k'.inputConv = k.inputConv) : Delivers sent received k' where
  stream := hk.stream.trans h.stream
  inputConv := hwait.trans h.inputConv
  buffer := by
    rw [hk.rcvBuf]
    exact h.buffer
  queue := by
    rw [hk.rcvQueue]
    exact h.queue
  upto := by
    rw [hk.rcvNxt]
    exact h.upto
  received := by
    rw [hk.rcvQueue, hk.rcvNxt]
    exact h.received

theorem Delivers.session (h : Delivers sent received k) (hk : SameSession k k') :
    Delivers sent received k' where
  stream := hk.stream.trans h.stream
  inputConv := hk.inputConv.trans h.inputConv
  buffer := by
    rw [hk.rcvBuf]
    exact h.buffer
  queue := by
    rw [hk.rcvQueue]
    exact h.queue
  upto := by
    rw [hk.rcvNxt]
    exact h.upto
  received := by
    rw [hk.rcvQueue, hk.rcvNxt]
    exact h.received

theorem Delivers.recv (hlen : sent.length < 2147483648) (h : Delivers sent received k)
    (bufLen : Nat) :
    (exists e, k.recv bufLen = (.error e, k)) ∨
    (exists data k', k.recv bufLen = (.ok data, k') ∧
      Delivers sent (received ++ data) k') := by
  rcases recv_cases k bufLen with ⟨e, hfail⟩ | ⟨hne, probe, hrecv⟩
  · exact .inl ⟨e, hfail⟩
  · right
    refine ⟨_, _, hrecv, ?_⟩
    cases hqueue : k.rcvQueue with
    | nil => exact absurd hqueue hne
    | cons seg rest =>
      have hfrg : seg.frg = 0 := h.queue seg (by rw [hqueue]; simp)
      have hmerge : mergeChain (seg :: rest) = (seg.data, rest) := if_pos hfrg
      have hreceived := h.received
      rw [hqueue, payload_cons, ← append_assoc] at hreceived
      rw [hmerge]
      obtain ⟨moved, hmoved⟩ := moveBuf_moved { k with rcvQueue := rest }
      refine @Delivers.moved _ _ _ hlen k.rcvNxt rest k.rcvBuf moved
        ⟨hmoved.buffer, hmoved.queue, hmoved.next, hmoved.numbers⟩
        h.stream h.inputConv h.buffer ?_ h.upto hreceived
      intro s hs
      exact h.queue s (by rw [hqueue]; exact mem_cons_of_mem _ hs)

theorem inputPush_delivers (hlen : sent.length < 2147483648) {s : KcpSegment}
    (hpush : s.cmd = cmdPush) (hs : Numbered sent s.core) (rest : List Byte)
    (h : Delivers sent received k) :
    Delivers sent received (k.inputPush s.header (s.data ++ rest)).2 := by
  have hack : Delivers sent received (k.ackPush s.sn s.ts) :=
    ⟨h.stream, h.inputConv, h.buffer, h.queue, h.upto, h.received⟩
  rcases inputPush_cases k s.header (s.data ++ rest) with
    ⟨_, heq⟩ | ⟨_, _, heq⟩ | ⟨_, _, _, e, heq⟩ | ⟨hupper, hlower, hgood, heq⟩
  · rw [heq]
    exact h
  · rw [heq]
    exact hack
  · rw [heq]
    exact hack
  · rw [heq]
    have hfrg : s.frg = 0 := by
      by_cases hzero : s.frg = 0
      · exact hzero
      · exact absurd (.inl ⟨h.stream, hzero⟩) hgood
    have hdata : (s.data ++ rest).take s.header.len = s.data := take_left
    have hlimits := parseData_received (k.ackPush s.sn s.ts)
      (receivedSegment s.header ((s.data ++ rest).take s.header.len))
    obtain ⟨moved, hmoved⟩ := @parseData_moved _ (k.ackPush s.sn s.ts)
      (receivedSegment s.header ((s.data ++ rest).take s.header.len)) hupper hlower
    refine Delivers.moved hlen hmoved (hlimits.stream.trans h.stream)
      (hlimits.inputConv.trans h.inputConv) ?_ h.queue h.upto h.received
    intro t ht
    rcases mem_of_insertData ht with heq | hold
    · rw [heq, hdata]
      exact ⟨hfrg, hs hpush⟩
    · exact h.buffer t hold

theorem inputSegment_delivers (hlen : sent.length < 2147483648) (scan : AckScan)
    {s : KcpSegment} (hs : Numbered sent s.core) (rest : List Byte)
    (h : Delivers sent received k) :
    Delivers sent received (k.inputSegment scan s.header (s.data ++ rest)).2 := by
  apply andThen_state
  · exact h.same (adoptConv_sameReceive k _) (adoptConv_received (.inl h.inputConv)).inputConv
  · intro _ k1 _ hk1
    have hcommon := hk1.same (inputCommon_sameReceive k1 s.header)
      (inputCommon_received k1 s.header).inputConv
    split
    · exact hk1
    · split
      · exact hk1
      · unfold inputCommand
        split
        · exact hcommon.same (inputAck_sameReceive _ s.header)
            (inputAck_received _ s.header).inputConv
        · split
          · rename_i hpush
            apply andThen_state
            · exact inputPush_delivers hlen hpush hs rest hcommon
            · intro _ _ _ hk2
              exact hk2
          · split
            · exact hcommon.same ⟨rfl, rfl, rfl, rfl, rfl, rfl, rfl⟩ rfl
            · exact hcommon

theorem input_delivers (hlen : sent.length < 2147483648) {conv : UInt32} {mss mtu : Nat}
    (hmss : mss < 4294967296) {d : List Byte} (hd : Framed (Sound sent conv mss) mtu d)
    (h : Delivers sent received k) : Delivers sent received (k.input d).2 := by
  obtain ⟨segs, -, rfl, hsegs, -⟩ := hd
  unfold Kcp.input
  split
  · exact h
  · apply andThen_state
    · apply inputLoop_encodeAll (I := Delivers sent received)
        (Q := fun s => Sound sent conv mss s.core)
      · intro s hs
        exact Nat.lt_of_le_of_lt hs.1.len hmss
      · intro k1 scan s rest hk1 hs
        exact inputSegment_delivers hlen scan hs.2 rest hk1
      · exact hsegs
      · exact h
    · intro scanned k1 _ hk1
      exact hk1.same (inputFinish_sameReceive k1 _ _)
        (inputFinish_received k1 scanned.1 k.sndUna).inputConv

end Receiving

/-!
## Every run
-/

/-- The direction from `a` to `b`, as long as sequence numbers do not run out. -/
def InStep (l : Link) : Prop :=
  l.a.segments < 2147483648 -> exists sent : List (List Byte),
    sent.length = l.a.segments ∧ Carries sent l.a.accepted l.a.kcp ∧
      Delivers sent l.b.received l.b.kcp

/-- Side `a` never has a `send` rejected after it extended a queued segment. -/
def SendKept (l : Link) : LinkEvent -> Prop
  | .call .a (.send buf) => ¬ ExtendsThenRejects l.a.kcp buf
  | _ => True

theorem Flushed.segments {n : Nat} {k k' : Kcp PacketWriter} (h : Flushed n k k') :
    k.sndQueue.length - k'.sndQueue.length = n := by
  have hcount := h.count
  rw [h.queue, length_drop]
  omega

theorem callA_inStep {l : Link} (h : InStep l) {c : Call}
    (hkept : SendKept l (.call .a c)) : InStep (l.step (.call .a c)) := by
  have hflushed : forall k' : Kcp PacketWriter,
      (forall sent, Carries sent l.a.accepted l.a.kcp ->
        exists n, Flushed n l.a.kcp k' ∧ (sent.length + n < 2147483648 ->
          Carries (sent ++ (l.a.kcp.sndQueue.take n).map fun s => s.data)
            l.a.accepted k')) ->
      InStep { l with a := l.a.flushed k' } := by
    intro k' hcarries hsegments
    have hle : l.a.segments ≤ (l.a.flushed k').segments := Nat.le_add_right _ _
    obtain ⟨sent, hsent, ha, hb⟩ := h (Nat.lt_of_le_of_lt hle hsegments)
    obtain ⟨n, hflush, hnext⟩ := hcarries sent ha
    have hcount : (l.a.flushed k').segments = sent.length + n := by
      rw [hsent, ← hflush.segments]
      rfl
    have hlen : ((l.a.kcp.sndQueue.take n).map fun s => s.data).length = n := by
      rw [length_map, length_take, Nat.min_eq_left hflush.count]
    refine ⟨_, ?_, hnext ?_, hb.append _⟩
    · rw [length_append, hlen]
      exact hcount.symm
    · rw [← hcount]
      exact hsegments
  cases c with
  | send buf =>
    show InStep { l with a := l.a.send buf }
    rcases hres : l.a.kcp.send buf with ⟨res, k'⟩
    cases res with
    | error e =>
      rw [Endpoint.send_error hres]
      intro hsegments
      obtain ⟨sent, hsent, ha, hb⟩ := h hsegments
      refine ⟨sent, hsent, ?_, hb⟩
      apply ha.send hres
      rcases send_payload ha.stream ha.mss buf hkept with
        ⟨e', k1, hsend, hpayload⟩ | ⟨k1, hsend, _⟩
      · rw [hres] at hsend
        cases hsend
        rw [hpayload]
        exact ha.accepted
      · rw [hres] at hsend
        cases hsend
    | ok n =>
      rw [Endpoint.send_ok hres]
      intro hsegments
      obtain ⟨sent, hsent, ha, hb⟩ := h hsegments
      refine ⟨sent, hsent, ?_, hb⟩
      apply ha.send hres
      rcases send_payload ha.stream ha.mss buf hkept with
        ⟨e', k1, hsend, _⟩ | ⟨k1, hsend, hpayload⟩
      · rw [hres] at hsend
        cases hsend
      · rw [hres] at hsend
        cases hsend
        rw [hpayload, take_length, ha.accepted, append_assoc]
  | update current => exact hflushed _ fun sent ha => ha.update current
  | flush => exact hflushed _ fun sent ha => ha.flush
  | recv bufLen =>
    show InStep { l with a := l.a.recv bufLen }
    have hreceived := recv_received l.a.kcp bufLen
    rcases hres : l.a.kcp.recv bufLen with ⟨res, k'⟩
    rw [hres] at hreceived
    cases res with
    | error e =>
      rw [Endpoint.recv_error hres]
      intro hsegments
      obtain ⟨sent, hsent, ha, hb⟩ := h hsegments
      exact ⟨sent, hsent, ha.received hreceived, hb⟩
    | ok data =>
      rw [Endpoint.recv_ok hres]
      intro hsegments
      obtain ⟨sent, hsent, ha, hb⟩ := h hsegments
      exact ⟨sent, hsent, ha.received hreceived, hb⟩

theorem callB_inStep {l : Link} (h : InStep l) (c : Call) :
    InStep (l.step (.call .b c)) := by
  intro hsegments
  have hbefore : l.a.segments < 2147483648 := hsegments
  obtain ⟨sent, hsent, ha, hb⟩ := h hbefore
  refine ⟨sent, hsent, ha, ?_⟩
  show Delivers sent (l.b.call c).received (l.b.call c).kcp
  cases c with
  | send buf =>
    obtain ⟨queue, hframe⟩ := send_frame l.b.kcp buf
    rcases hres : l.b.kcp.send buf with ⟨res, k'⟩
    rw [hres] at hframe
    obtain rfl : k' = _ := hframe
    have hsend : Delivers sent l.b.received { l.b.kcp with sndQueue := queue } :=
      ⟨hb.stream, hb.inputConv, hb.buffer, hb.queue, hb.upto, hb.received⟩
    show Delivers sent (l.b.send buf).received (l.b.send buf).kcp
    cases res with
    | error e =>
      rw [Endpoint.send_error hres]
      exact hsend
    | ok n =>
      rw [Endpoint.send_ok hres]
      exact hsend
  | update current =>
    obtain ⟨n, hupdate⟩ := update_flushed l.b.kcp current
    exact hb.session hupdate.toSameSession
  | flush =>
    obtain ⟨n, hflush⟩ := flush_flushed l.b.kcp
    exact hb.session hflush.toSameSession
  | recv bufLen =>
    show Delivers sent (l.b.recv bufLen).received (l.b.recv bufLen).kcp
    rcases hb.recv (by omega) bufLen with ⟨e, hfail⟩ | ⟨data, k', hrecv, hk'⟩
    · rw [Endpoint.recv_error hfail]
      exact hb
    · rw [Endpoint.recv_ok hrecv]
      exact hk'

theorem deliver_inStep {l : Link} (h : InStep l) (side : Side) (index : Nat) :
    InStep (l.step (.deliver side index)) := by
  cases side with
  | a =>
    show InStep { l with a := deliver l.b l.a index }
    unfold deliver
    split
    · rename_i datagram _
      intro hsegments
      have hbefore : l.a.segments < 2147483648 := hsegments
      obtain ⟨sent, hsent, ha, hb⟩ := h hbefore
      exact ⟨sent, hsent,
        ha.received (input_received datagram ha.wired.inputConv), hb⟩
    · exact h
  | b =>
    show InStep { l with b := deliver l.a l.b index }
    unfold deliver
    split
    · rename_i datagram hget
      intro hsegments
      have hbefore : l.a.segments < 2147483648 := hsegments
      obtain ⟨sent, hsent, ha, hb⟩ := h hbefore
      have hframed := ha.emits.packets datagram (mem_of_getElem? hget)
      exact ⟨sent, hsent, ha, input_delivers (by omega) ha.bound hframed hb⟩
    · exact h

theorem step_inStep (l : Link) (event : LinkEvent) (h : InStep l)
    (hkept : SendKept l event) : InStep (l.step event) := by
  cases event with
  | call side c =>
    cases side with
    | a => exact callA_inStep h hkept
    | b => exact callB_inStep h c
  | deliver side index => exact deliver_inStep h side index

theorem start_inStep {conv : UInt32} {settingsA settingsB : List Setting}
    (hmss : (configured conv ({} : PacketWriter) true settingsA).mss < 4294967296) :
    InStep (Link.start conv settingsA settingsB) := by
  have ha := configured_pristine conv ({} : PacketWriter) true settingsA
  have hb := configured_pristine conv ({} : PacketWriter) true settingsB
  intro _
  refine ⟨[], rfl, ?_, ?_⟩
  · refine ⟨ha.wired, ha.stream, ha.mss, hmss, ?_, ha.sndNxt, ?_, ?_⟩
    · show [] = [] ++ payload (configured conv ({} : PacketWriter) true settingsA).sndQueue
      rw [ha.sndQueue]
      rfl
    · show forall c, c ∈ (configured conv ({} : PacketWriter) true settingsA).sndBuf.map
        KcpSegment.core -> _
      rw [ha.sndBuf]
      intro c hc
      cases hc
    · refine ⟨?_, .inl ha.buf⟩
      show forall d, d ∈ (configured conv ({} : PacketWriter) true
        settingsA).output.packets -> _
      rw [ha.output]
      intro d hd
      cases hd
  · show Delivers [] [] (configured conv ({} : PacketWriter) true settingsB)
    refine ⟨hb.stream, hb.inputConv, ?_, ?_, ?_, ?_⟩
    · rw [hb.rcvBuf]
      intro s hs
      cases hs
    · rw [hb.rcvQueue]
      intro s hs
      cases hs
    · rw [hb.rcvNxt]
      exact Nat.le_refl _
    · rw [hb.rcvQueue]
      simp

/-- In every run in which no `send` of side `a` is rejected after extending a queued
segment, and a full payload fits the length field, the bytes side `b` has received
are a prefix of the bytes side `a` has accepted. -/
theorem link_received_prefix (conv : UInt32) (settingsA settingsB : List Setting)
    (events : List LinkEvent)
    (hmss : (configured conv ({} : PacketWriter) true settingsA).mss < 4294967296)
    (hkept : Run.Along Link.step SendKept (Link.start conv settingsA settingsB) events)
    (hsegments :
      (Run.run Link.step (Link.start conv settingsA settingsB) events).a.segments <
        2147483648) :
    (Run.run Link.step (Link.start conv settingsA settingsB) events).b.received <+:
      (Run.run Link.step (Link.start conv settingsA settingsB) events).a.accepted := by
  have hinv := Run.run_invariant step_inStep (start_inStep hmss) hkept
  obtain ⟨sent, -, ha, hb⟩ := hinv hsegments
  generalize Run.run Link.step (Link.start conv settingsA settingsB) events = l
    at ha hb ⊢
  have hwaiting : l.b.received <+: (sent.take l.b.kcp.rcvNxt.toNat).flatten :=
    ⟨payload l.b.kcp.rcvQueue, hb.received⟩
  have htake : (sent.take l.b.kcp.rcvNxt.toNat).flatten <+: sent.flatten := by
    refine ⟨(sent.drop l.b.kcp.rcvNxt.toNat).flatten, ?_⟩
    rw [← flatten_append, take_append_drop]
  have hqueued : sent.flatten <+: l.a.accepted :=
    ⟨payload l.a.kcp.sndQueue, ha.accepted.symm⟩
  exact (hwaiting.trans htake).trans hqueued

def smallSettings : List Setting :=
  [.mtu 50, .nodelay true 10 2 true]

def helloEvents : List LinkEvent :=
  [.call .a (.send [104, 105]), .call .a (.update 0), .deliver .b 0, .call .b (.recv 10)]

theorem link_received_prefix_hello :
    (Run.run Link.step (Link.start 7 smallSettings smallSettings)
      helloEvents).b.received = [104, 105] ∧
    (Run.run Link.step (Link.start 7 smallSettings smallSettings)
      helloEvents).b.received <+:
    (Run.run Link.step (Link.start 7 smallSettings smallSettings)
      helloEvents).a.accepted := by
  have hkept : ¬ ExtendsThenRejects
      (Link.start 7 smallSettings smallSettings).a.kcp [104, 105] := by
    decide
  exact ⟨by decide, link_received_prefix 7 smallSettings smallSettings helloEvents
    (by decide) ⟨hkept, trivial, trivial, trivial, trivial⟩ (by decide)⟩

/-- One byte is queued; then a buffer of 128 more segments is rejected, but its first
25 bytes have gone into the queued segment. -/
def rejectedEvents : List LinkEvent :=
  [.call .a (.send [1]), .call .a (.send (replicate 3328 2)),
    .call .a (.update 0), .deliver .b 0, .call .b (.recv 100)]

set_option maxRecDepth 20000 in
theorem rejected_send_delivered :
    (Run.run Link.step (Link.start 7 smallSettings smallSettings)
      rejectedEvents).a.segments < 2147483648 ∧
    (Run.run Link.step (Link.start 7 smallSettings smallSettings)
      rejectedEvents).b.segments < 2147483648 ∧
    ¬ (Run.run Link.step (Link.start 7 smallSettings smallSettings)
        rejectedEvents).b.received <+:
      (Run.run Link.step (Link.start 7 smallSettings smallSettings)
        rejectedEvents).a.accepted := by
  decide

end Kcp
end FrpRs
