import FrpRs.Kcp.Input

/-!
# Datagrams on the wire

Everything a machine writes to a sink that never fails is a non-empty sequence
of whole segments, at most one MTU long.  The segments are described by a
predicate on what retransmission keeps, so that different results can follow
different facts about them from the queue to the wire.
-/

namespace FrpRs
namespace Kcp

open List Bytes
open Fallible

/-- A datagram made of whole segments that satisfy `P`. -/
def Framed (P : SegmentCore -> Prop) (mtu : Nat) (datagram : List Byte) : Prop :=
  exists segs : List KcpSegment,
    segs ≠ [] ∧ datagram = encodeAll segs ∧
      (forall s, s ∈ segs -> P s.core) ∧ datagram.length ≤ mtu

structure Emits (P : SegmentCore -> Prop) (k : Kcp PacketWriter) : Prop where
  packets : forall d, d ∈ k.output.packets -> Framed P k.mtu d
  buf : k.buf = [] ∨ Framed P k.mtu k.buf

variable {d : List Byte}

theorem Framed.mono {P Q : SegmentCore -> Prop} (hPQ : forall c, P c -> Q c) {mtu : Nat}
    (h : Framed P mtu d) : Framed Q mtu d := by
  obtain ⟨segs, hne, hd, hP, hlen⟩ := h
  exact ⟨segs, hne, hd, fun s hs => hPQ _ (hP s hs), hlen⟩

theorem Emits.mono {P Q : SegmentCore -> Prop} (hPQ : forall c, P c -> Q c)
    {k : Kcp PacketWriter} (h : Emits P k) : Emits Q k :=
  ⟨fun d hd => (h.packets d hd).mono hPQ, h.buf.imp id (Framed.mono hPQ)⟩

theorem Emits.congr {P : SegmentCore -> Prop} {k k' : Kcp PacketWriter}
    (h : Emits P k) (houtput : k'.output = k.output) (hbuf : k'.buf = k.buf)
    (hmtu : k'.mtu = k.mtu) : Emits P k' := by
  constructor
  · rw [houtput, hmtu]
    exact h.packets
  · rw [hbuf, hmtu]
    exact h.buf

section Phases

variable {P : SegmentCore -> Prop} {k : Kcp PacketWriter}

theorem writeBuf_ok (k : Kcp PacketWriter) :
    k.writeBuf =
      (.ok (), { k with output := { packets := k.output.packets ++ [k.buf] }, buf := [] }) :=
  rfl

theorem writeBuf_emits (h : Emits P k) (hbuf : k.buf ≠ []) : Emits P k.writeBuf.2 := by
  constructor
  · intro d hd
    rcases mem_append.mp hd with hold | hnew
    · exact h.packets d hold
    · rw [mem_singleton.mp hnew]
      exact h.buf.resolve_left hbuf
  · exact .inl rfl

theorem flushBuf_emits (h : Emits P k) : Emits P k.flushBuf.2 := by
  unfold flushBuf
  split
  · exact h
  · rename_i hbuf
    exact writeBuf_emits h (by simpa using hbuf)

variable {seg : KcpSegment}

theorem appendSegment_emits (h : Emits P k) (hP : P seg.core)
    (hfit : k.buf.length + (overhead + seg.data.length) ≤ k.mtu) :
    Emits P ({ k with buf := k.buf ++ seg.encode }) := by
  refine ⟨h.packets, .inr ?_⟩
  rcases h.buf with hempty | ⟨segs, hne, hbuf, hsegs, _⟩
  · refine ⟨[seg], by simp, by simp [hempty], by simpa using hP, ?_⟩
    simpa using hfit
  · refine ⟨segs ++ [seg], by simp, ?_, ?_, ?_⟩
    · simp [encodeAll_append, hbuf]
    · intro s hs
      rcases mem_append.mp hs with hold | hnew
      · exact hsegs s hold
      · rw [mem_singleton.mp hnew]
        exact hP
    · simpa using hfit

theorem putSegment_emits {seg : KcpSegment} (h : Emits P k) (hP : P seg.core)
    (hfit : overhead + seg.data.length ≤ k.mtu) :
    Emits P (k.putSegment (overhead + seg.data.length) seg).2 := by
  unfold putSegment
  split
  · rename_i hfull
    have hbuf : k.buf ≠ [] := by
      intro hempty
      rw [hempty] at hfull
      simp at hfull
      omega
    refine appendSegment_emits (writeBuf_emits h hbuf) hP ?_
    simpa using hfit
  · rename_i hroom
    exact appendSegment_emits h hP (by omega)

/-- Segments without data: acknowledgements and window probes. -/
structure IsControl (conv : UInt32) (seg : KcpSegment) : Prop where
  conv : seg.conv = conv
  cmd : seg.cmd = cmdAck ∨ seg.cmd = cmdWask ∨ seg.cmd = cmdWins
  frg : seg.frg = 0
  data : seg.data = []

def AdmitsControl (P : SegmentCore -> Prop) (conv : UInt32) : Prop :=
  forall seg, IsControl conv seg -> P seg.core

variable {conv : UInt32}

theorem putControl_emits (hcontrol : AdmitsControl P conv) (h : Emits P k)
    (hseg : IsControl conv seg) (hmtu : overhead ≤ k.mtu) :
    Emits P (k.putSegment overhead seg).2 := by
  have hlen : overhead = overhead + seg.data.length := by
    rw [hseg.data]
    rfl
  rw [hlen]
  exact putSegment_emits h (hcontrol seg hseg) (by rw [← hlen]; exact hmtu)

theorem ControlOnly.mtu {k k' : Kcp PacketWriter} (h : ControlOnly k k') :
    k'.mtu = k.mtu := by
  obtain ⟨out, buf, acks, probe, tsProbe, probeWait, rfl⟩ := h
  rfl

theorem flushAckLoop_emits (hcontrol : AdmitsControl P conv) (acks : List (UInt32 × UInt32))
    (h : Emits P k) (hseg : IsControl conv seg) (hmtu : overhead ≤ k.mtu) :
    Emits P (flushAckLoop k seg acks).2 ∧
      forall seg' k', flushAckLoop k seg acks = (.ok seg', k') -> IsControl conv seg' := by
  induction acks generalizing k seg with
  | nil =>
    refine ⟨h, ?_⟩
    intro seg' k' heq
    cases heq
    exact hseg
  | cons ack acks ih =>
    have hseg' : IsControl conv { seg with sn := ack.1, ts := ack.2 } :=
      ⟨hseg.conv, hseg.cmd, hseg.frg, hseg.data⟩
    have hput := putControl_emits hcontrol h hseg' hmtu
    have hframe := putSegment_frame k overhead { seg with sn := ack.1, ts := ack.2 }
    unfold flushAckLoop
    simp only
    rcases hres : k.putSegment overhead { seg with sn := ack.1, ts := ack.2 } with
      ⟨res, k'⟩
    rw [hres] at hput hframe
    cases res with
    | error e =>
      refine ⟨hput, ?_⟩
      intro seg' k'' heq
      cases heq
    | ok _ =>
      exact ih hput hseg' (by rw [hframe.mtu]; exact hmtu)

theorem flushAcks_emits (hcontrol : AdmitsControl P conv) (h : Emits P k)
    (hseg : IsControl conv seg) (hmtu : overhead ≤ k.mtu) :
    Emits P (k.flushAcks seg).2 ∧
      forall seg' k', k.flushAcks seg = (.ok seg', k') -> IsControl conv seg' := by
  have hloop := flushAckLoop_emits hcontrol k.acklist h hseg hmtu
  unfold flushAcks
  rcases hres : flushAckLoop k seg k.acklist with ⟨res, k'⟩
  rw [hres] at hloop
  cases res with
  | error e =>
    refine ⟨hloop.1, ?_⟩
    intro seg' k'' heq
    cases heq
  | ok seg' =>
    refine ⟨⟨hloop.1.packets, hloop.1.buf⟩, ?_⟩
    intro seg'' k'' heq
    cases heq
    exact hloop.2 seg' k' rfl

theorem flushProbe_emits (ask : UInt32) {cmd : UInt8} (hcontrol : AdmitsControl P conv)
    (hcmd : cmd = cmdWask ∨ cmd = cmdWins) (h : Emits P k) (hseg : IsControl conv seg)
    (hmtu : overhead ≤ k.mtu) :
    Emits P (k.flushProbe ask cmd seg).2 ∧
      forall seg' k', k.flushProbe ask cmd seg = (.ok seg', k') ->
        IsControl conv seg' := by
  have hseg' : IsControl conv { seg with cmd := cmd } :=
    ⟨hseg.conv, .inr hcmd, hseg.frg, hseg.data⟩
  have hput := putControl_emits hcontrol h hseg' hmtu
  unfold flushProbe
  split
  · simp only
    rcases hres : k.putSegment overhead { seg with cmd := cmd } with ⟨res, k'⟩
    rw [hres] at hput
    cases res with
    | error e =>
      refine ⟨hput, ?_⟩
      intro seg' k'' heq
      cases heq
    | ok _ =>
      refine ⟨hput, ?_⟩
      intro seg' k'' heq
      cases heq
      exact hseg'
  · refine ⟨h, ?_⟩
    intro seg' k' heq
    cases heq
    exact hseg

theorem flushProbeCommands_emits (hcontrol : AdmitsControl P conv) (h : Emits P k)
    (hseg : IsControl conv seg) (hmtu : overhead ≤ k.mtu) :
    Emits P (k.flushProbeCommands seg).2 := by
  have hask := flushProbe_emits askSend hcontrol (.inl rfl) h hseg hmtu
  have hframe := flushProbe_frame k askSend cmdWask seg
  apply andThen_state
  · exact hask.1
  · intro seg' k' heq hk'
    have hseg' := hask.2 seg' k' heq
    rw [heq] at hframe
    have htell := flushProbe_emits askTell hcontrol (.inr rfl) hk' hseg'
      (by rw [hframe.mtu]; exact hmtu)
    apply andThen_state
    · exact htell.1
    · intro _ _ _ hk''
      exact ⟨hk''.packets, hk''.buf⟩

theorem probeWndSize_emits (h : Emits P k) : Emits P k.probeWndSize := by
  unfold probeWndSize
  split
  · split
    · exact h.congr rfl rfl rfl
    · split
      · exact h.congr rfl rfl rfl
      · exact h
  · exact h.congr rfl rfl rfl

theorem resendLoop_emits {p : ResendParams} {scan : ResendScan}
    {done todo : List KcpSegment} (h : Emits P k)
    (htodo : forall s, s ∈ todo -> P s.core ∧ overhead + s.data.length ≤ k.mtu) :
    Emits P (resendLoop p k scan done todo).2 := by
  induction todo generalizing k scan done with
  | nil =>
    exact ⟨h.packets, h.buf⟩
  | cons seg todo ih =>
    have hrest : forall s, s ∈ todo -> P s.core ∧ overhead + s.data.length ≤ k.mtu :=
      fun s hs => htodo s (mem_cons_of_mem _ hs)
    obtain ⟨hP, hfit⟩ := htodo seg (by simp)
    unfold resendLoop
    simp only
    split
    · exact ih h hrest
    · have hcore := resendSegment_core k p seg
      have hdata : (resendSegment k p seg).data = seg.data := by
        have hd := congrArg SegmentCore.data hcore
        exact hd
      obtain ⟨xmit, hxmit⟩ := noteTimeout_frame k (resendKind k p seg)
      rw [hxmit]
      have hput := @putSegment_emits _ { k with xmit := xmit }
        (resendSegment k p seg) ⟨h.packets, h.buf⟩
        (by rw [hcore]; exact hP) (by rw [hdata]; exact hfit)
      have hframe := putSegment_frame { k with xmit := xmit }
        (overhead + (resendSegment k p seg).data.length) (resendSegment k p seg)
      split
      · rename_i k' heq
        rw [heq] at hput
        exact ⟨hput.packets, hput.buf⟩
      · rename_i k' heq
        rw [heq] at hput hframe
        obtain ⟨state, hstate⟩ := noteDeadLink_frame k' (resendSegment k p seg)
        apply ih
        · rw [hstate]
          exact hput.congr rfl rfl rfl
        · intro s hs
          have hmtu : (noteDeadLink k' (resendSegment k p seg)).mtu = k.mtu := by
            rw [hstate]
            exact hframe.mtu
          rw [hmtu]
          exact hrest s hs

def FitsMtu (P : SegmentCore -> Prop) (mtu : Nat) (c : SegmentCore) : Prop :=
  P c ∧ overhead + c.data.length ≤ mtu

theorem fillWindow_emits {wnd cwnd : UInt16} {queue : List KcpSegment} {count : UInt32}
    (h : Emits P k) : Emits P (fillWindow wnd cwnd queue k count).1 := by
  induction queue generalizing k count with
  | nil =>
    exact h.congr rfl rfl rfl
  | cons seg rest ih =>
    unfold fillWindow
    split
    · exact ih (h.congr rfl rfl rfl)
    · exact h.congr rfl rfl rfl

theorem flushData_emits {wnd : UInt16} (h : Emits P k)
    (hbuf : forall c, c ∈ (k.flushData wnd).2.sndBuf.map KcpSegment.core ->
      FitsMtu P k.mtu c) :
    Emits P (k.flushData wnd).2 := by
  obtain ⟨n, hfill⟩ := fillWindow_flushed wnd k.effectiveCwnd k.sndQueue k 0
  have hfill' : Flushed n k (fillWindow wnd k.effectiveCwnd k.sndQueue k 0).1 := hfill
  have hdata := flushData_flushed_of_fill hfill'
  rw [hdata.buffer, ← hfill'.buffer] at hbuf
  apply andThen_state
  · apply resendLoop_emits (fillWindow_emits h)
    intro s hs
    rw [hfill'.mtu]
    exact hbuf s.core (mem_map.mpr ⟨s, hs, rfl⟩)
  · intro scan k' _ hk'
    apply andThen_state
    · exact flushBuf_emits hk'
    · intro _ _ _ hk''
      exact hk''.congr rfl rfl rfl

theorem controlSegment_isControl (k : Kcp PacketWriter) :
    IsControl k.conv k.controlSegment :=
  ⟨rfl, .inl rfl, rfl, rfl⟩

theorem flush_emits (hcontrol : AdmitsControl P k.conv) (hmtu : overhead ≤ k.mtu)
    (h : Emits P k)
    (hbuf : forall c, c ∈ k.flush.2.sndBuf.map KcpSegment.core -> FitsMtu P k.mtu c) :
    Emits P k.flush.2 := by
  have hacks := flushAcks_emits hcontrol h (controlSegment_isControl k) hmtu
  have hframe := flushAcks_frame k k.controlSegment
  unfold flush at hbuf ⊢
  split at hbuf
  · rename_i hupdated
    rw [if_pos hupdated]
    exact h
  · rename_i hupdated
    rw [if_neg hupdated]
    rcases hres : k.flushAcks k.controlSegment with ⟨res, k'⟩
    rw [hres] at hacks hframe hbuf
    cases res with
    | error e =>
      exact hacks.1
    | ok segment =>
      rw [andThen_ok] at hbuf ⊢
      have hseg := hacks.2 segment k' rfl
      have hprobe := hframe.trans (probeWndSize_frame k')
      have hcommandsFrame :=
        hprobe.trans (flushProbeCommands_frame k'.probeWndSize segment)
      have hcommands := flushProbeCommands_emits hcontrol
        (probeWndSize_emits hacks.1) hseg
        (by rw [hprobe.mtu]; exact hmtu)
      rcases hres' : k'.probeWndSize.flushProbeCommands segment with ⟨res', k''⟩
      rw [hres'] at hcommands hcommandsFrame hbuf
      cases res' with
      | error e =>
        exact hcommands
      | ok _ =>
        apply flushData_emits hcommands
        show forall c, c ∈ (k''.flushData segment.wnd).2.sndBuf.map KcpSegment.core ->
          FitsMtu P k''.mtu c
        rw [hcommandsFrame.mtu]
        exact hbuf

theorem update_emits (hcontrol : AdmitsControl P k.conv) (hmtu : overhead ≤ k.mtu)
    (h : Emits P k) {current : UInt32}
    (hbuf : forall c, c ∈ (k.update current).2.sndBuf.map KcpSegment.core ->
      FitsMtu P k.mtu c) :
    Emits P (k.update current).2 := by
  obtain ⟨tsFlush, hupdate⟩ := update_cases k current
  have hk : Emits P (k.withClock current tsFlush) := h.congr rfl rfl rfl
  rcases hupdate with hstop | hflush
  · rw [hstop]
    exact hk
  · rw [hflush] at hbuf ⊢
    exact flush_emits (k := k.withClock current tsFlush) hcontrol hmtu hk hbuf

end Phases

/-!
## Segments a peer accepts
-/

/-- What a peer with the same conversation and mode, and segments of up to `mss`
bytes, needs to know about a segment to accept it. -/
structure Acceptable (conv : UInt32) (stream : Bool) (mss : Nat) (c : SegmentCore) :
    Prop where
  conv : c.conv = conv
  cmd : c.cmd = cmdPush ∨ c.cmd = cmdAck ∨ c.cmd = cmdWask ∨ c.cmd = cmdWins
  frg : stream = true -> c.frg = 0
  len : c.data.length ≤ mss

theorem acceptable_admitsControl (conv : UInt32) (stream : Bool) (mss : Nat) :
    AdmitsControl (Acceptable conv stream mss) conv := by
  intro seg hseg
  refine ⟨hseg.conv, .inr hseg.cmd, fun _ => hseg.frg, ?_⟩
  show seg.data.length ≤ mss
  rw [hseg.data]
  exact Nat.zero_le _

theorem inputPush_accepts {Output : Type} {k : Kcp Output} {hd : SegmentHeader}
    (body : List Byte) (hfrg : k.stream = true -> hd.frg = 0) (hlen : hd.len ≤ k.mss) :
    (k.inputPush hd body).1 = .ok () := by
  have hgood : ¬ Malformed k hd := by
    rintro (⟨hstream, hne⟩ | hlong)
    · exact hne (hfrg hstream)
    · omega
  rcases inputPush_cases k hd body with
    ⟨_, heq⟩ | ⟨_, _, heq⟩ | ⟨_, _, hbad, _⟩ | ⟨_, _, _, heq⟩
  · rw [heq]
  · rw [heq]
  · exact absurd hbad hgood
  · rw [heq]

theorem inputCommand_accepts {Output : Type} {k : Kcp Output} {scan : AckScan}
    {hd : SegmentHeader} {body : List Byte} (hfrg : k.stream = true -> hd.frg = 0)
    (hlen : hd.len ≤ k.mss) :
    exists scan', (k.inputCommand scan hd body).1 = .ok scan' := by
  unfold inputCommand
  split
  · exact ⟨_, rfl⟩
  · split
    · have hpush := inputPush_accepts body hfrg hlen
      rcases hres : k.inputPush hd body with ⟨res, k'⟩
      rw [hres] at hpush
      obtain rfl : res = _ := hpush
      exact ⟨scan, rfl⟩
    · split
      · exact ⟨_, rfl⟩
      · exact ⟨_, rfl⟩

theorem inputSegment_accepts {Output : Type} {k : Kcp Output} (scan : AckScan)
    {s : KcpSegment} {mss : Nat} (rest : List Byte)
    (hs : Acceptable k.conv k.stream mss s.core) (hmss : mss ≤ k.mss) :
    exists scan',
      (k.inputSegment scan s.header (s.data ++ rest)).1 = .ok scan' := by
  have hadopt : k.adoptConv s.header.conv = (.ok (), k) := by
    have hconv : s.header.conv = k.conv := hs.conv
    unfold adoptConv
    rw [if_pos hconv]
  have hlen : ¬ (s.data ++ rest).length < s.header.len := by
    simp [KcpSegment.header]
  have hcmd : ¬ knownCmd s.header.cmd = false := by
    have hknown : s.cmd = cmdPush ∨ s.cmd = cmdAck ∨ s.cmd = cmdWask ∨ s.cmd = cmdWins :=
      hs.cmd
    rcases hknown with h | h | h | h <;> simp [knownCmd, KcpSegment.header, h]
  have hcommon := inputCommon_received k s.header
  unfold inputSegment
  rw [hadopt, andThen_ok, if_neg hlen, if_neg hcmd]
  apply inputCommand_accepts
  · intro hstream
    exact hs.frg hstream
  · exact Nat.le_trans hs.len hmss

variable {stream : Bool}
variable {conv : UInt32}

theorem inputLoop_accepts {Output : Type} {mss : Nat} (hbound : mss < 4294967296)
    {segs : List KcpSegment} (hsegs : forall s, s ∈ segs -> Acceptable conv stream mss s.core)
    {fuel : Nat} (hfuel : segs.length ≤ fuel) {k : Kcp Output} (scan : AckScan)
    (hconv : k.conv = conv) (hstream : k.stream = stream) (hmss : mss ≤ k.mss) :
    exists scan', (inputLoop fuel k scan (encodeAll segs)).1 = .ok (scan', []) := by
  induction segs generalizing fuel k scan with
  | nil =>
    cases fuel with
    | zero => exact ⟨scan, rfl⟩
    | succ fuel => exact ⟨scan, rfl⟩
  | cons s segs ih =>
    cases fuel with
    | zero => simp at hfuel
    | succ fuel =>
      have hs : Acceptable k.conv k.stream mss s.core := by
        rw [hconv, hstream]
        exact hsegs s (by simp)
      have hlen : s.data.length < 4294967296 := Nat.lt_of_le_of_lt hs.len hbound
      obtain ⟨scan', hok⟩ :=
        inputSegment_accepts scan (encodeAll segs) hs hmss
      have hreceived := @inputSegment_received _ k scan s.header
        (s.data ++ encodeAll segs) (.inr hs.conv)
      rw [encodeAll_cons, inputLoop_encode k scan s _ hlen]
      rcases hres : k.inputSegment scan s.header (s.data ++ encodeAll segs) with
        ⟨res, k'⟩
      rw [hres] at hok hreceived
      obtain rfl : res = _ := hok
      apply ih (fun t ht => hsegs t (mem_cons_of_mem _ ht))
      · simpa using hfuel
      · exact hreceived.conv.trans hconv
      · exact hreceived.stream.trans hstream
      · rw [hreceived.mss]
        exact hmss

theorem segments_le_length (segs : List KcpSegment) :
    segs.length ≤ (encodeAll segs).length := by
  induction segs with
  | nil =>
    exact Nat.le_refl _
  | cons s segs ih =>
    rw [encodeAll_cons, length_append, encode_length, length_cons]
    unfold overhead
    omega

theorem input_accepts {Output : Type} {mss mtu : Nat} (hbound : mss < 4294967296)
    (hd : Framed (Acceptable conv stream mss) mtu d) {peer : Kcp Output} (hconv : peer.conv = conv)
    (hstream : peer.stream = stream) (hmss : mss ≤ peer.mss) :
    (peer.input d).1 = .ok d.length := by
  obtain ⟨segs, hne, rfl, hsegs, -⟩ := hd
  obtain ⟨scan, hok⟩ := inputLoop_accepts hbound hsegs (segments_le_length segs) {}
    hconv hstream hmss
  have hlong : ¬ (encodeAll segs).length < overhead := by
    cases segs with
    | nil => exact absurd rfl hne
    | cons s segs =>
      rw [encodeAll_cons, length_append, encode_length]
      omega
  unfold input
  rw [if_neg hlong]
  rcases hres : inputLoop (encodeAll segs).length peer {} (encodeAll segs) with ⟨res, k'⟩
  rw [hres] at hok
  obtain rfl : res = _ := hok
  rfl

/-!
## Queued data

Every queued segment fits one datagram, and in stream mode carries no fragment
number.
-/

section Queue

variable {Output : Type}

def Fitting (k : Kcp Output) (s : KcpSegment) : Prop :=
  s.data.length ≤ k.mss ∧ (k.stream = true -> s.frg = 0)

def QueueFits (k : Kcp Output) : Prop :=
  forall s, s ∈ k.sndQueue -> Fitting k s

theorem splitSegments_fit (k : Kcp Output) (n : Nat) (rest : List Byte) :
    forall s, s ∈ splitSegments k.mss k.stream n rest -> Fitting k s := by
  induction n generalizing rest with
  | zero =>
    intro s hs
    cases hs
  | succ n ih =>
    intro s hs
    rcases mem_cons.mp hs with heq | htail
    · rw [heq]
      refine ⟨?_, fun hstream => if_pos hstream⟩
      exact length_take_le _ _
    · exact ih (rest.drop k.mss) s htail

variable {k : Kcp Output}

theorem extendLast_fits (h : QueueFits k) (buf : List Byte) :
    QueueFits (k.extendLast buf) := by
  unfold extendLast
  split
  · exact h
  · rename_i old hlast
    split
    · rename_i hroom
      have hsize : k.extendSize buf ≤ k.mss - old.data.length := by
        unfold extendSize
        rw [hlast]
        simp only [if_pos hroom]
        exact Nat.min_le_right _ _
      intro s hs
      rcases mem_append.mp hs with hold | hnew
      · exact h s (dropLast_subset _ hold)
      · rw [mem_singleton.mp hnew]
        refine ⟨?_, fun _ => rfl⟩
        show (old.data ++ buf.take (k.extendSize buf)).length ≤ k.mss
        rw [length_append, length_take]
        omega
    · exact h

theorem sendRest_fits (h : QueueFits k) (sent : Nat) (rest : List Byte) :
    QueueFits (k.sendRest sent rest).2 := by
  unfold sendRest
  simp only
  split
  · exact h
  · intro s hs
    rcases mem_append.mp hs with hold | hnew
    · exact h s hold
    · exact splitSegments_fit k _ _ s hnew

theorem send_fits (h : QueueFits k) (buf : List Byte) :
    QueueFits (k.send buf).2 := by
  unfold send
  split
  · simp only
    split
    · exact extendLast_fits h buf
    · exact sendRest_fits (extendLast_fits h buf) _ _
  · exact sendRest_fits h 0 buf

theorem stampedCores_acceptable {conv nxt : UInt32} {mss : Nat} {queue : List KcpSegment}
    (h : forall s, s ∈ queue -> s.data.length ≤ mss ∧ (stream = true -> s.frg = 0)) :
    forall c, c ∈ stampedCores conv nxt queue -> Acceptable conv stream mss c := by
  induction queue generalizing nxt with
  | nil =>
    intro c hc
    cases hc
  | cons s queue ih =>
    intro c hc
    rcases mem_cons.mp hc with heq | htail
    · obtain ⟨hlen, hfrg⟩ := h s (by simp)
      rw [heq]
      exact ⟨rfl, .inl rfl, hfrg, hlen⟩
    · exact ih (fun t ht => h t (mem_cons_of_mem _ ht)) c htail

end Queue

/-!
## Every datagram of every run
-/

/-- Everything on its way to the wire is acceptable to a peer of the same
conversation and mode. -/
structure Wired (k : Kcp PacketWriter) : Prop where
  mtu : k.mtu = k.mss + overhead
  inputConv : k.inputConv = false
  queue : QueueFits k
  buffer : forall c, c ∈ k.sndBuf.map KcpSegment.core ->
    Acceptable k.conv k.stream k.mss c
  emits : Emits (Acceptable k.conv k.stream k.mss) k

theorem Wired.received {k k' : Kcp PacketWriter} (h : Wired k) (hk : Received k k') :
    Wired k' where
  mtu := by
    rw [hk.mtu, hk.mss]
    exact h.mtu
  inputConv := hk.inputConv.trans h.inputConv
  queue := by
    intro s hs
    rw [hk.sndQueue] at hs
    unfold Fitting
    rw [hk.mss, hk.stream]
    exact h.queue s hs
  buffer := by
    intro c hc
    rw [hk.conv, hk.stream, hk.mss]
    exact h.buffer c (hk.sndBuf.subset hc)
  emits := by
    rw [hk.conv, hk.stream, hk.mss]
    exact h.emits.congr hk.output hk.buf hk.mtu

theorem send_wired {k : Kcp PacketWriter} (h : Wired k) (buf : List Byte) :
    Wired (k.send buf).2 := by
  have hfits := send_fits h.queue buf
  obtain ⟨queue, hsend⟩ := send_frame k buf
  rw [hsend] at hfits ⊢
  exact ⟨h.mtu, h.inputConv, hfits, h.buffer, h.emits.congr rfl rfl rfl⟩

theorem Wired.flushed_buffer {n : Nat} {k k' : Kcp PacketWriter} (h : Wired k)
    (hk : Flushed n k k') :
    forall c, c ∈ k'.sndBuf.map KcpSegment.core ->
      Acceptable k.conv k.stream k.mss c := by
  intro c hc
  rw [hk.buffer] at hc
  rcases mem_append.mp hc with hold | hnew
  · exact h.buffer c hold
  · exact stampedCores_acceptable
      (fun s hs => h.queue s (mem_of_mem_take hs)) c hnew

theorem Wired.flushed {n : Nat} {k k' : Kcp PacketWriter} (h : Wired k)
    (hk : Flushed n k k')
    (hemits : Emits (Acceptable k.conv k.stream k.mss) k') : Wired k' where
  mtu := by
    rw [hk.mtu, hk.mss]
    exact h.mtu
  inputConv := hk.inputConv.trans h.inputConv
  queue := by
    intro s hs
    rw [hk.queue] at hs
    unfold Fitting
    rw [hk.mss, hk.stream]
    exact h.queue s (mem_of_mem_drop hs)
  buffer := by
    rw [hk.conv, hk.stream, hk.mss]
    exact h.flushed_buffer hk
  emits := by
    rw [hk.conv, hk.stream, hk.mss]
    exact hemits

theorem Wired.fitsMtu {k : Kcp PacketWriter} (h : Wired k) {c : SegmentCore}
    (hc : Acceptable k.conv k.stream k.mss c) :
    FitsMtu (Acceptable k.conv k.stream k.mss) k.mtu c := by
  have hlen := hc.len
  refine ⟨hc, ?_⟩
  rw [h.mtu]
  omega

theorem Wired.overhead_le {k : Kcp PacketWriter} (h : Wired k) :
    overhead ≤ k.mtu := by
  rw [h.mtu]
  omega

theorem flush_wired {k : Kcp PacketWriter} (h : Wired k) : Wired k.flush.2 := by
  obtain ⟨n, hflush⟩ := flush_flushed k
  apply h.flushed hflush
  apply flush_emits (acceptable_admitsControl _ _ _) h.overhead_le h.emits
  intro c hc
  exact h.fitsMtu (h.flushed_buffer hflush c hc)

theorem update_wired {k : Kcp PacketWriter} (h : Wired k) (current : UInt32) :
    Wired (k.update current).2 := by
  obtain ⟨n, hupdate⟩ := update_flushed k current
  apply h.flushed hupdate
  apply update_emits (acceptable_admitsControl _ _ _) h.overhead_le h.emits
  intro c hc
  exact h.fitsMtu (h.flushed_buffer hupdate c hc)

theorem apply_wired (k : Kcp PacketWriter) (op : Op) (h : Wired k) :
    Wired (k.apply op) := by
  cases op with
  | send buf => exact send_wired h buf
  | update current => exact update_wired h current
  | flush => exact flush_wired h
  | recv bufLen => exact h.received (recv_received k bufLen)
  | input datagram => exact h.received (input_received datagram h.inputConv)

/-- A machine that was configured and never used. -/
structure Pristine {Output : Type} (conv : UInt32) (output : Output) (stream : Bool)
    (k : Kcp Output) : Prop extends Fresh k where
  conv : k.conv = conv
  stream : k.stream = stream
  inputConv : k.inputConv = false
  mtu : k.mtu = k.mss + overhead
  mss : 0 < k.mss
  sndNxt : k.sndNxt = 0
  rcvNxt : k.rcvNxt = 0
  sndQueue : k.sndQueue = []
  acklist : k.acklist = []
  buf : k.buf = []
  output : k.output = output

theorem applySetting_pristine {Output : Type} {output : Output} (k : Kcp Output) (setting : Setting)
    (h : Pristine conv output stream k) :
    Pristine conv output stream (k.applySetting setting) := by
  have hfresh := applySetting_fresh k setting h.toFresh
  cases setting with
  | mtu mtu =>
    change Fresh (k.setMtu mtu).2 at hfresh
    show Pristine conv output stream (k.setMtu mtu).2
    unfold setMtu at hfresh ⊢
    split
    · exact h
    · rename_i hvalid
      rw [if_neg hvalid] at hfresh
      refine ⟨hfresh, h.conv, h.stream, h.inputConv, ?_, ?_, h.sndNxt, h.rcvNxt,
        h.sndQueue, h.acklist, h.buf, h.output⟩
      · show mtu = mtu - overhead + overhead
        omega
      · show 0 < mtu - overhead
        unfold overhead
        omega
  | _ =>
    exact ⟨hfresh, h.conv, h.stream, h.inputConv, h.mtu, h.mss, h.sndNxt,
      h.rcvNxt, h.sndQueue, h.acklist, h.buf, h.output⟩

theorem configured_pristine {Output : Type} (conv : UInt32) (output : Output)
    (stream : Bool) (settings : List Setting) :
    Pristine conv output stream (configured conv output stream settings) := by
  have hmss : 0 < mtuDef - overhead := by decide
  exact Run.run_preserves applySetting_pristine settings
    ⟨⟨rfl, rfl, rfl, rfl⟩, rfl, rfl, rfl, rfl, hmss, rfl, rfl, rfl, rfl, rfl, rfl⟩

theorem Pristine.wired {k : Kcp PacketWriter} (h : Pristine conv {} stream k) :
    Wired k where
  mtu := h.mtu
  inputConv := h.inputConv
  queue := by
    intro s hs
    rw [h.sndQueue] at hs
    cases hs
  buffer := by
    rw [h.sndBuf]
    intro c hc
    cases hc
  emits := by
    refine ⟨?_, .inl h.buf⟩
    rw [h.output]
    intro d hd
    cases hd

/-- The fields that decide what a datagram may look like. -/
structure SameLimits {Output : Type} (k k' : Kcp Output) : Prop where
  conv : k'.conv = k.conv
  stream : k'.stream = k.stream
  mss : k'.mss = k.mss
  mtu : k'.mtu = k.mtu
  inputConv : k'.inputConv = k.inputConv

theorem apply_sameLimits {Output : Type} [Write Output] (k : Kcp Output) (op : Op)
    (h : k.inputConv = false) : SameLimits k (k.apply op) := by
  have hreceived : forall k', Received k k' -> SameLimits k k' :=
    fun k' h => ⟨h.conv, h.stream, h.mss, h.mtu, h.inputConv⟩
  have hflushed : forall n k', Flushed n k k' -> SameLimits k k' :=
    fun n k' h => ⟨h.conv, h.stream, h.mss, h.mtu, h.inputConv⟩
  cases op with
  | send buf =>
    obtain ⟨queue, hsend⟩ := send_frame k buf
    show SameLimits k (k.send buf).2
    rw [hsend]
    exact ⟨rfl, rfl, rfl, rfl, rfl⟩
  | update current =>
    obtain ⟨n, hupdate⟩ := update_flushed k current
    exact hflushed n _ hupdate
  | flush =>
    obtain ⟨n, hflush⟩ := flush_flushed k
    exact hflushed n _ hflush
  | recv bufLen => exact hreceived _ (recv_received k bufLen)
  | input datagram => exact hreceived _ (input_received datagram h)

theorem run_sameLimits {Output : Type} [Write Output] (k : Kcp Output) (ops : List Op)
    (h : k.inputConv = false) : SameLimits k (Run.run apply k ops) := by
  refine @Run.run_preserves _ _ _ (SameLimits k) ?_ _ ops ⟨rfl, rfl, rfl, rfl, rfl⟩
  intro k' op hk'
  have hstep := apply_sameLimits k' op (hk'.inputConv.trans h)
  exact ⟨hstep.conv.trans hk'.conv, hstep.stream.trans hk'.stream,
    hstep.mss.trans hk'.mss, hstep.mtu.trans hk'.mtu,
    hstep.inputConv.trans hk'.inputConv⟩

/-- What every datagram satisfies: it is a non-empty sequence of whole segments
within the MTU, and every peer of the same conversation and mode with segments
at least as large consumes all of it. -/
def Deliverable (conv : UInt32) (stream : Bool) (mtu mss : Nat) (d : List Byte) : Prop :=
  d ≠ [] ∧ d.length ≤ mtu ∧ (exists segs, d = encodeAll segs) ∧
    forall (Output : Type) (peer : Kcp Output), peer.conv = conv ->
      peer.stream = stream -> mss ≤ peer.mss -> (peer.input d).1 = .ok d.length

theorem Framed.ne_nil {P : SegmentCore -> Prop} {mtu : Nat} (h : Framed P mtu d) : d ≠ [] := by
  obtain ⟨segs, hne, hd, -⟩ := h
  have hlen := segments_le_length segs
  intro hempty
  rw [← hd, hempty] at hlen
  exact hne (length_eq_zero_iff.mp (Nat.le_zero.mp hlen))

theorem Framed.deliverable {mtu mss : Nat} (hbound : mss < 4294967296)
    (h : Framed (Acceptable conv stream mss) mtu d) :
    Deliverable conv stream mtu mss d := by
  refine ⟨h.ne_nil, ?_, ?_, ?_⟩
  · obtain ⟨segs, -, -, -, hlen⟩ := h
    exact hlen
  · obtain ⟨segs, -, hd, -⟩ := h
    exact ⟨segs, hd⟩
  · intro Output peer hconv hstream hmss
    exact input_accepts hbound h hconv hstream hmss

/-- Every datagram of every run is deliverable, as long as a full payload fits
the 32-bit length field of the header. -/
theorem driven_deliverable (conv : UInt32) (stream : Bool) (settings : List Setting)
    (ops : List Op)
    (hmss : (configured conv ({} : PacketWriter) stream settings).mss < 4294967296) :
    forall d, d ∈ (driven conv ({} : PacketWriter) stream settings ops).output.packets ->
      Deliverable conv stream
        (configured conv ({} : PacketWriter) stream settings).mtu
        (configured conv ({} : PacketWriter) stream settings).mss d := by
  have hpristine := configured_pristine conv ({} : PacketWriter) stream settings
  have hwired : Wired (driven conv ({} : PacketWriter) stream settings ops) :=
    Run.run_preserves apply_wired ops hpristine.wired
  have hlimits : SameLimits (configured conv ({} : PacketWriter) stream settings)
      (driven conv ({} : PacketWriter) stream settings ops) :=
    run_sameLimits _ ops hpristine.inputConv
  intro d hd
  have hframed := hwired.emits.packets d hd
  rw [hlimits.conv, hlimits.stream, hlimits.mss, hlimits.mtu, hpristine.conv,
    hpristine.stream] at hframed
  exact hframed.deliverable hmss

theorem driven_deliverable_hi :
    (driven 7 ({} : PacketWriter) true [.mtu 50, .nodelay true 10 2 true]
      [.send [104, 105], .update 0]).output.packets ≠ [] ∧
    forall d, d ∈ (driven 7 ({} : PacketWriter) true [.mtu 50, .nodelay true 10 2 true]
      [.send [104, 105], .update 0]).output.packets -> Deliverable 7 true 50 26 d :=
  ⟨by decide, driven_deliverable 7 true [.mtu 50, .nodelay true 10 2 true]
      [.send [104, 105], .update 0] (by decide)⟩

/-!
## Payloads beyond the length field

Nothing in `set_mtu` keeps a segment below `2^32` bytes.  A payload of exactly that
size is announced with length zero, and no peer consumes the datagram.
-/

/-- The settings under which one segment may carry `2^32` bytes. -/
def hugeSettings : List Setting :=
  [.mtu 4294967320, .nodelay true 10 2 true]

theorem send_single {Output : Type} {k : Kcp Output} {buf : List Byte}
    (hstream : k.stream = true) (hqueue : k.sndQueue = []) (hne : buf ≠ [])
    (hlen : buf.length ≤ k.mss) :
    (k.send buf).2 = { k with sndQueue := [KcpSegment.newWithData buf] } := by
  have hextend : k.extendSize buf = 0 := by
    unfold extendSize
    rw [hqueue]
    rfl
  have hlast : k.extendLast buf = k := by
    unfold extendLast
    rw [hqueue]
    rfl
  have hpos : ¬ 0 = buf.length := by
    intro hzero
    exact hne (length_eq_zero_iff.mp hzero.symm)
  have hcount : segmentCount k.mss buf.length = 1 := if_pos hlen
  unfold send
  rw [if_pos hstream, hextend, hlast]
  simp only [if_neg hpos, drop_zero]
  unfold sendRest
  rw [hcount, hqueue]
  simp [wndRcv, splitSegments, hstream, KcpSegment.newWithData, take_of_length_le hlen]

theorem flushAcks_idle {Output : Type} [Write Output] {k : Kcp Output}
    (h : k.acklist = []) (segment : KcpSegment) :
    k.flushAcks segment = (.ok segment, k) := by
  unfold flushAcks
  rw [h]
  unfold flushAckLoop
  rw [andThen_ok, ← h]

theorem flushProbeCommands_idle {Output : Type} [Write Output] {k : Kcp Output}
    (h : k.probe = 0) (segment : KcpSegment) :
    k.flushProbeCommands segment = (.ok (), k) := by
  have hprobe : forall ask cmd segment, k.flushProbe ask cmd segment = (.ok segment, k) := by
    intro ask cmd segment
    unfold flushProbe
    rw [h]
    simp
  unfold flushProbeCommands
  rw [hprobe, andThen_ok, hprobe, andThen_ok, ← h]

theorem resendLoop_single {p : ResendParams} {k : Kcp PacketWriter} {seg : KcpSegment}
    (hbuf : k.buf = []) (hxmit : seg.xmit = 0)
    (hfit : overhead + seg.data.length ≤ k.mtu) (scan : ResendScan) :
    exists (s : KcpSegment) (k' : Kcp PacketWriter) (scan' : ResendScan),
      resendLoop p k scan [] [seg] = (.ok scan', k') ∧
        s.core = seg.core ∧ k'.buf = s.encode := by
  have hkind : resendKind k p seg = .initial := if_pos hxmit
  have hcore := resendSegment_core k p seg
  have hdata : (resendSegment k p seg).data = seg.data := congrArg SegmentCore.data hcore
  have hput : k.putSegment (overhead + (resendSegment k p seg).data.length)
      (resendSegment k p seg) =
      (.ok (), { k with buf := (resendSegment k p seg).encode }) := by
    have hroom : ¬ k.buf.length + (overhead + (resendSegment k p seg).data.length) > k.mtu := by
      rw [hbuf, hdata, length_nil]
      omega
    unfold putSegment
    rw [if_neg hroom, andThen_ok, hbuf, nil_append]
  obtain ⟨state, hdead⟩ := noteDeadLink_frame
    { k with buf := (resendSegment k p seg).encode } (resendSegment k p seg)
  have hloop : resendLoop p k scan [] [seg] =
      (.ok (scan.note .initial), { k with
        buf := (resendSegment k p seg).encode, state := state,
        sndBuf := [resendSegment k p seg] }) := by
    unfold resendLoop
    simp only [hkind, reduceCtorEq, if_false, noteTimeout, hput, hdead]
    rfl
  exact ⟨_, _, _, hloop, hcore, rfl⟩

/-- Flushing an idle machine with one queued segment writes that segment. -/
theorem flush_single {k : Kcp PacketWriter} {seg : KcpSegment}
    (hupdated : k.updated = true) (hacks : k.acklist = []) (hprobe : k.probe = 0)
    (hremote : k.rmtWnd ≠ 0) (hbuf : k.buf = []) (hempty : k.sndBuf = [])
    (hqueue : k.sndQueue = [seg])
    (hopen : timediff k.sndNxt (k.sndUna + k.effectiveCwnd.toUInt32) < 0)
    (hfit : overhead + seg.data.length ≤ k.mtu) :
    exists s : KcpSegment,
      s.conv = k.conv ∧ s.data = seg.data ∧ s.encode ∈ k.flush.2.output.packets := by
  have hwnd : k.probeWndSize = { k with tsProbe := 0, probeWait := 0 } := if_neg hremote
  have hfill : fillWindow k.controlSegment.wnd k.effectiveCwnd k.sndQueue
      { k with tsProbe := 0, probeWait := 0 } 0 =
      ({ k with
        tsProbe := 0, probeWait := 0, sndNxt := k.sndNxt + 1, sndQueue := []
        sndBuf := [k.stampSegment k.controlSegment.wnd seg] }, 1) := by
    rw [hqueue]
    unfold fillWindow
    rw [if_pos hopen]
    simp only [hempty]
    rfl
  obtain ⟨s, k', scan, hloop, hcore, hwritten⟩ :=
    @resendLoop_single
      (resendParams { k with
        tsProbe := 0, probeWait := 0, sndNxt := k.sndNxt + 1, sndQueue := []
        sndBuf := [k.stampSegment k.controlSegment.wnd seg] } k.controlSegment.wnd 1)
      { k with
        tsProbe := 0, probeWait := 0, sndNxt := k.sndNxt + 1, sndQueue := []
        sndBuf := [k.stampSegment k.controlSegment.wnd seg] }
      (k.stampSegment k.controlSegment.wnd seg) hbuf rfl hfit {}
  have hne : k'.buf.isEmpty = false := by
    rw [hwritten, isEmpty_eq_false_iff]
    intro hnil
    have hlen := congrArg length hnil
    simp [overhead] at hlen
  refine ⟨s, congrArg SegmentCore.conv hcore, congrArg SegmentCore.data hcore, ?_⟩
  have hflush : k.flush = k.probeWndSize.flushData k.controlSegment.wnd := by
    unfold flush
    rw [if_neg (by simp [hupdated]), flushAcks_idle hacks, andThen_ok,
      flushProbeCommands_idle (by rw [hwnd]; exact hprobe), andThen_ok]
  rw [hflush, hwnd]
  unfold flushData
  have hcwnd : effectiveCwnd { k with tsProbe := 0, probeWait := 0 } = k.effectiveCwnd := rfl
  simp only [hcwnd, hfill, hloop, andThen_ok]
  unfold flushBuf
  rw [hne]
  rw [← hwritten]
  exact mem_append_right _ (mem_singleton.mpr rfl)

/-- A payload of exactly `2^32` bytes has a zero length field: the peer reads the
payload itself as the next header. -/
theorem input_refuses_huge {Output : Type} {peer : Kcp Output} {s : KcpSegment}
    (hwait : peer.inputConv = false) (hlen : s.data.length = 4294967296)
    (hnext : (readHeader s.data).conv = peer.conv)
    (hcmd : knownCmd (readHeader s.data).cmd = false)
    (hnextLen : (readHeader s.data).len = 0) (n : Nat) :
    (peer.input s.encode).1 ≠ .ok n := by
  have hread : readHeader s.encode = { s.header with len := 0 } := by
    have hmod := readHeader_encode_mod s []
    rw [append_nil, hlen] at hmod
    exact hmod
  have hbody : s.encode.drop overhead = s.data := by
    have hdrop := drop_overhead_encode s []
    simpa using hdrop
  have hfirst : ¬ s.encode.length < overhead := by
    rw [encode_length]
    omega
  have hsecond : ¬ s.data.length < overhead := by
    rw [hlen]
    decide
  have hfuel : s.encode.length = s.data.length + 22 + 1 + 1 := by
    rw [encode_length]
    unfold overhead
    omega
  have hloop : forall r, (inputLoop s.encode.length peer {} s.encode).1 ≠ .ok r := by
    intro r
    have hreceived := @inputSegment_received _ peer {} { s.header with len := 0 }
      s.data (.inl hwait)
    rw [hfuel, inputLoop_succ hfirst, hread, hbody]
    rcases hres : peer.inputSegment {} { s.header with len := 0 } s.data with ⟨res, k⟩
    rw [hres] at hreceived
    cases res with
    | error e =>
      intro h
      cases h
    | ok scan =>
      have hadopt : k.adoptConv (readHeader s.data).conv = (.ok (), k) := by
        unfold adoptConv
        rw [if_pos (hnext.trans hreceived.conv.symm)]
      have hsegment : k.inputSegment scan (readHeader s.data) (s.data.drop overhead) =
          (.error (.unsupportedCmd (readHeader s.data).cmd), k) := by
        unfold inputSegment
        rw [hadopt, andThen_ok, hnextLen, if_neg (Nat.not_lt_zero _), if_pos hcmd]
      rw [andThen_ok, drop_zero, inputLoop_succ hsecond, hsegment]
      intro h
      cases h
  unfold input
  rcases hres : inputLoop s.encode.length peer {} s.encode with ⟨res, k⟩
  cases res with
  | error e =>
    intro h
    cases h
  | ok r =>
    exact absurd (by rw [hres]) (hloop r)

def hugeState (data : List Byte) : Kcp PacketWriter :=
  { configured 0 ({} : PacketWriter) true hugeSettings with
    sndQueue := [KcpSegment.newWithData data] }

theorem update_hugeState (data : List Byte) :
    (hugeState data).update 0 = ((hugeState data).withClock 0 10).flush := by
  with_unfolding_all rfl

theorem huge_undeliverable {data rest : List Byte} (hlen : data.length = 4294967296)
    (hzero : data = replicate 24 0 ++ rest) :
    exists d, d ∈ (driven 0 ({} : PacketWriter) true hugeSettings
        [.send data, .update 0]).output.packets ∧
      ((configured 0 ({} : PacketWriter) true hugeSettings).input d).1 ≠ .ok d.length := by
  have hremote : (128 : UInt16) ≠ 0 := by decide
  have hopen : timediff (0 : UInt32) (0 + (32 : UInt16).toUInt32) < 0 := by decide
  obtain ⟨s, hconv, hs, hmem⟩ := @flush_single
    ((hugeState data).withClock 0 10) (KcpSegment.newWithData data) rfl rfl rfl hremote rfl rfl rfl
    hopen (by
      show overhead + data.length ≤ 4294967320
      rw [hlen]
      decide)
  have hsend : ((configured 0 ({} : PacketWriter) true hugeSettings).send data).2 =
      hugeState data := by
    apply send_single rfl rfl
    · rw [hzero]
      simp
    · rw [hlen]
      decide
  refine ⟨s.encode, ?_, ?_⟩
  · show s.encode ∈ (((configured 0 ({} : PacketWriter) true hugeSettings).send data).2.update
      0).2.output.packets
    rw [hsend, update_hugeState]
    exact hmem
  · have hheader : readHeader s.data = readHeader (replicate 24 0) := by
      rw [hs, KcpSegment.newWithData, hzero]
      rfl
    have hslen : s.data.length = 4294967296 := by
      rw [hs]
      exact hlen
    apply input_refuses_huge rfl hslen <;> rw [hheader]
    · rfl
    · decide
    · rfl

theorem driven_huge_undeliverable :
    50 ≤ (configured 0 ({} : PacketWriter) true hugeSettings).mtu ∧
      ¬ forall d, d ∈ (driven 0 ({} : PacketWriter) true hugeSettings
          [.send (replicate 4294967296 0), .update 0]).output.packets ->
        Deliverable 0 true (configured 0 ({} : PacketWriter) true hugeSettings).mtu
          (configured 0 ({} : PacketWriter) true hugeSettings).mss d := by
  have hsplit : replicate 4294967296 (0 : Byte) =
      replicate 24 0 ++ replicate 4294967272 0 := by
    rw [replicate_append_replicate]
  obtain ⟨d, hd, hrefused⟩ := @huge_undeliverable (replicate 4294967296 0)
    (replicate 4294967272 0) length_replicate hsplit
  refine ⟨by decide, ?_⟩
  intro hall
  exact hrefused ((hall d hd).2.2.2 PacketWriter _ rfl rfl (Nat.le_refl _))

end Kcp
end FrpRs
