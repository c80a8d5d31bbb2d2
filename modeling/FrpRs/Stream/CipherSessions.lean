import FrpRs.Stream.CipherWriter

/-!
# Sessions of the encrypting writer

As long as no flush finishes the buffer of a write after the first one, the bytes sent are a
prefix of the initialisation vector and the encryption of the writes, each once and in order.
The retry of a write whose buffer a flush has finished encrypts it again.
-/

namespace FrpRs
namespace Stream
namespace CipherWriterState

open List Bytes Poll

/-!
## What a session has sent
-/

def wire (encryptBlock : Block -> Block) (iv : Block) (text : List Byte) : List Byte :=
  iv.toList ++ cfb128 encryptBlock iv text

def idle (iv : Block) (c : CfbState) : CipherWriterState where
  cfb := some c
  writeIv := iv
  ivSent := true
  firstWriteBuf := none
  firstWritePos := 0
  firstWriteDataLen := 0
  encryptedBuf := none
  encryptedWritePos := 0

inductive Phase (encryptBlock : Block -> Block) (iv : Block)
    (s : Session CipherWriterState) : Prop
  | fresh (hstate : s.state = new iv) (hsent : s.sink.accepted = []) (hoffered : s.offered = [])
      (hflight : s.inFlight = none) (hreported : s.reported = [])
  | idle (c : CfbState) (hstate : s.state = idle iv c)
      (hafter : CfbState.After encryptBlock iv s.reported c)
      (hsent : s.sink.accepted = wire encryptBlock iv s.reported)
      (hoffered : s.offered.flatten = s.reported ++ s.pendingBytes)
  /-- The vector alone is being sent, and a write waits behind it. -/
  | openIv (c : CfbState) (pos : Nat)
      (hstate : s.state = { idle iv c with firstWriteBuf := some iv.toList, firstWritePos := pos })
      (hpos : pos < iv.toList.length) (hafter : CfbState.After encryptBlock iv [] c)
      (hsent : s.sink.accepted ++ iv.toList.drop pos = iv.toList)
      (hreported : s.reported = []) (hoffered : s.offered.flatten = s.pendingBytes)
  | openFirst (c : CfbState) (pos : Nat) (b : List Byte)
      (hstate : s.state = { idle iv c with
        firstWriteBuf := some (wire encryptBlock iv b)
        firstWritePos := pos
        firstWriteDataLen := b.length })
      (hpos : pos < (wire encryptBlock iv b).length) (hne : b ≠ [])
      (hafter : CfbState.After encryptBlock iv b c)
      (hsent : s.sink.accepted ++ (wire encryptBlock iv b).drop pos = wire encryptBlock iv b)
      (hflight : s.inFlight = some b) (hreported : s.reported = [])
      (hoffered : s.offered.flatten = b)
  /-- A flush has finished the first write, whose retry is still to come. -/
  | claimed (c : CfbState) (b : List Byte)
      (hstate : s.state = { idle iv c with firstWriteDataLen := b.length })
      (hne : b ≠ []) (hafter : CfbState.After encryptBlock iv b c)
      (hsent : s.sink.accepted = wire encryptBlock iv b)
      (hflight : s.inFlight = some b) (hreported : s.reported = [])
      (hoffered : s.offered.flatten = b)
  | openLater (c : CfbState) (text : List Byte) (pos : Nat) (b : List Byte)
      (hstate : s.state = { idle iv c with encryptedBuf := some text, encryptedWritePos := pos })
      (hpos : pos < text.length) (hlength : text.length = b.length)
      (hafter : CfbState.After encryptBlock iv (s.reported ++ b) c)
      (hsent : s.sink.accepted ++ text.drop pos = wire encryptBlock iv (s.reported ++ b))
      (hflight : s.inFlight = some b) (hoffered : s.offered.flatten = s.reported ++ b)
  /-- An empty write that was pending fails from then on. -/
  | stuck (c : CfbState) (hstate : s.state = { idle iv c with encryptedBuf := some [] })
      (hsent : s.sink.accepted = wire encryptBlock iv s.reported)
      (hoffered : s.reported <+: s.offered.flatten)

section Steps

variable {encryptBlock : Block -> Block} {iv : Block} {s : Session CipherWriterState}

theorem wire_nil : wire encryptBlock iv [] = iv.toList := by
  rw [wire, Chain.cfb128_eq_run, Chain.run, append_nil]

variable {c : CfbState}

variable {buf : List Byte}

/-- A later write with nothing to retry. -/
theorem writeEncrypted_phase (hafter : CfbState.After encryptBlock iv s.reported c) {sink : Sink}
    (hsink : sink.Sound) (hsent : sink.accepted = wire encryptBlock iv s.reported)
    (hoffered : s.offered.flatten = s.reported ++ s.pendingBytes)
    (hrepolls : s.Repolls (.write buf))
    (hpoll : (cipherWriter encryptBlock).pollWrite s.state s.sink buf =
      writeEncrypted encryptBlock (idle iv c) sink buf) :
    Phase encryptBlock iv ((cipherWriter encryptBlock).step s (.write buf)) := by
  obtain ⟨hcfb, hlength, hafter'⟩ := CfbState.encrypt_after hafter buf
  have hoffered' := Session.offered_write hrepolls hoffered
  have hwire : wire encryptBlock iv (s.reported ++ buf) =
      sink.accepted ++ (c.encrypt encryptBlock buf).1 := by
    rw [wire, hcfb, hsent, wire, append_assoc]
  rw [writeEncrypted] at hpoll
  dsimp only [idle] at hpoll
  generalize c.encrypt encryptBlock buf = r at hcfb hlength hafter' hwire hpoll
  cases hoffer : sink.offer r.1 with
  | mk p sink' =>
    have haccepted := Sink.offer_accepted hoffer
    rw [hoffer] at hpoll
    cases p with
    | done =>
      rw [Writer.step_write hpoll]
      rw [Progress.rest, append_nil] at haccepted
      have hreported : s.reported ++ Outcome.written buf (.ready buf.length) = s.reported ++ buf := by
        rw [Outcome.written, take_length]
      refine Phase.idle r.2 rfl ?_ ?_ ?_
      · rw [hreported]
        exact hafter'
      · rw [hreported, hwire, haccepted]
      · rw [hreported, hoffered']
        exact (append_nil _).symm
    | failed e => exact absurd hoffer fun hoffer => hsink.offer_not_failed hoffer
    | part n =>
      rw [Writer.step_write hpoll]
      have hreported : s.reported ++ Outcome.written buf .pending = s.reported :=
        append_nil _
      refine Phase.openLater r.2 r.1 n buf rfl (Sink.offer_part hoffer) hlength ?_ ?_ rfl ?_
      · rw [hreported]
        exact hafter'
      · rw [hreported, hwire]
        exact haccepted
      · rw [hreported, hoffered']
    | pending =>
      rw [Writer.step_write hpoll]
      have hreported : s.reported ++ Outcome.written buf .pending = s.reported :=
        append_nil _
      by_cases hnil : r.1 = []
      · rw [hnil] at haccepted ⊢
        refine Phase.stuck r.2 rfl ?_ ?_
        · rw [hreported, ← hsent, ← append_nil sink.accepted, ← haccepted]
          exact (append_nil _).symm
        · rw [hreported, hoffered']
          exact prefix_append _ _
      · refine Phase.openLater r.2 r.1 0 buf rfl (length_pos_iff.mpr hnil) hlength ?_ ?_
          rfl ?_
        · rw [hreported]
          exact hafter'
        · rw [hreported, hwire]
          exact haccepted
        · rw [hreported, hoffered']

variable {b : List Byte} {pos : Nat}

theorem phase_of_first (hstate : s.state = { idle iv c with
      firstWriteBuf := some (wire encryptBlock iv b)
      firstWritePos := pos
      firstWriteDataLen := b.length }) (hpos : pos < (wire encryptBlock iv b).length)
    (hafter : CfbState.After encryptBlock iv b c)
    (hsent : s.sink.accepted ++ (wire encryptBlock iv b).drop pos = wire encryptBlock iv b)
    (hflight : s.inFlight = some b) (hreported : s.reported = []) (hoffered : s.offered.flatten = b) :
    Phase encryptBlock iv s := by
  by_cases hnil : b = []
  · rw [hnil] at hstate hpos hafter hsent hflight hoffered
    rw [wire_nil] at hstate hpos hsent
    refine Phase.openIv c pos hstate hpos hafter hsent hreported ?_
    rw [hoffered, Session.pendingBytes, hflight]
    rfl
  · exact Phase.openFirst c pos b hstate hpos hnil hafter hsent hflight hreported hoffered

theorem length_iv (iv : Block) : iv.toList.length = 16 :=
  Vector.length_toList

theorem write_fresh (hsound : s.sink.Sound) (hstate : s.state = new iv)
    (hsent : s.sink.accepted = []) (hoffered : s.offered = []) (hflight : s.inFlight = none)
    (hreported : s.reported = []) (buf : List Byte) :
    Phase encryptBlock iv ((cipherWriter encryptBlock).step s (.write buf)) := by
  obtain ⟨hcfb, hlength, hafter⟩ :=
    CfbState.encrypt_after (CfbState.after_new encryptBlock iv) buf
  have hpoll : (cipherWriter encryptBlock).pollWrite s.state s.sink buf =
      writeFirst encryptBlock (new iv) s.sink buf := by
    rw [hstate]
    rfl
  rw [writeFirst, if_neg (by simp [new])] at hpoll
  dsimp only [new] at hpoll
  generalize (CfbState.new encryptBlock iv).encrypt encryptBlock buf = r at *
  have hwire : iv.toList ++ r.1 = wire encryptBlock iv buf := by
    rw [nil_append] at hcfb
    rw [wire, hcfb, Chain.cfb128_eq_run]
    rfl
  have hwritten : forall o : Outcome Nat, s.reported ++ o.written buf = o.written buf := by
    intro o
    rw [hreported, nil_append]
  have hoffered' : (if s.inFlight.isSome then s.offered else s.offered ++ [buf]).flatten = buf := by
    rw [hflight, hoffered]
    exact append_nil buf
  rw [hwire] at hpoll
  cases hoffer : s.sink.offer (wire encryptBlock iv buf) with
  | mk p sink' =>
    have haccepted := Sink.offer_accepted hoffer
    rw [hsent, nil_append] at haccepted
    rw [hoffer] at hpoll
    cases p with
    | done =>
      rw [Progress.rest, append_nil] at haccepted
      rw [Writer.step_write hpoll]
      have hall : s.reported ++ Outcome.written buf (.ready buf.length) = buf := by
        rw [hwritten, Outcome.written, take_length]
      refine Phase.idle r.2 rfl ?_ ?_ ?_
      · rw [hall]
        exact hafter
      · rw [hall, haccepted]
      · rw [hall, hoffered']
        exact (append_nil _).symm
    | failed e => exact absurd hoffer fun hoffer => hsound.offer_not_failed hoffer
    | part n =>
      rw [Writer.step_write hpoll]
      exact phase_of_first rfl (Sink.offer_part hoffer) hafter haccepted rfl (hwritten _)
        hoffered'
    | pending =>
      rw [Writer.step_write hpoll]
      have hlong : 0 < (wire encryptBlock iv buf).length := by
        rw [wire, length_append, length_iv]
        omega
      exact phase_of_first rfl hlong hafter haccepted rfl (hwritten _) hoffered'

theorem flush_fresh (hsound : s.sink.Sound) (hstate : s.state = new iv)
    (hsent : s.sink.accepted = []) (hoffered : s.offered = []) (hflight : s.inFlight = none)
    (hreported : s.reported = []) :
    Phase encryptBlock iv ((cipherWriter encryptBlock).step s .flush) := by
  have hpoll : (cipherWriter encryptBlock).pollFlush s.state s.sink =
      flushIv encryptBlock (new iv) s.sink := by
    rw [hstate]
    rfl
  rw [flushIv, if_neg (by simp [new])] at hpoll
  dsimp only [new] at hpoll
  have hnothing : s.offered.flatten = s.pendingBytes := by
    rw [hoffered, Session.pendingBytes, hflight]
    rfl
  cases hoffer : s.sink.offer iv.toList with
  | mk p sink' =>
    have haccepted := Sink.offer_accepted hoffer
    rw [hsent, nil_append] at haccepted
    rw [hoffer] at hpoll
    cases p with
    | done =>
      rw [Progress.rest, append_nil] at haccepted
      rw [Writer.step_flush hpoll]
      refine Phase.idle (CfbState.new encryptBlock iv) rfl ?_ ?_ ?_
      · rw [hreported]
        exact CfbState.after_new encryptBlock iv
      · rw [hreported, wire_nil, ← haccepted, Sink.pollFlush_accepted]
      · rw [hreported]
        exact hnothing
    | failed e => exact absurd hoffer fun hoffer => hsound.offer_not_failed hoffer
    | part n =>
      rw [Writer.step_flush hpoll]
      exact Phase.openIv _ n rfl (Sink.offer_part hoffer)
        (CfbState.after_new encryptBlock iv) haccepted hreported hnothing
    | pending =>
      rw [Writer.step_flush hpoll]
      exact Phase.openIv _ 0 rfl (by rw [length_iv]; exact Nat.zero_lt_succ 15)
        (CfbState.after_new encryptBlock iv) haccepted hreported hnothing

section OpenIv

variable (hsound : s.sink.Sound)
  (hstate : s.state = { idle iv c with firstWriteBuf := some iv.toList, firstWritePos := pos })
  (hpos : pos < iv.toList.length) (hafter : CfbState.After encryptBlock iv [] c)
  (hsent : s.sink.accepted ++ iv.toList.drop pos = iv.toList) (hreported : s.reported = [])
  (hoffered : s.offered.flatten = s.pendingBytes)
include hsound hstate hpos hafter hsent hreported hoffered

theorem write_openIv (hrepolls : s.Repolls (.write buf)) :
    Phase encryptBlock iv ((cipherWriter encryptBlock).step s (.write buf)) := by
  have hoffered' : s.offered.flatten = s.reported ++ s.pendingBytes := by
    rw [hreported, nil_append, hoffered]
  have hbegun := Session.offered_write hrepolls hoffered'
  rw [hreported, nil_append] at hbegun
  have hpoll : (cipherWriter encryptBlock).pollWrite s.state s.sink buf =
      pollWrite encryptBlock
        { idle iv c with firstWriteBuf := some iv.toList, firstWritePos := pos } s.sink buf := by
    rw [hstate]
    rfl
  rw [pollWrite] at hpoll
  dsimp only [idle] at hpoll
  have hnone : s.reported ++ Outcome.written buf .pending = [] := by
    rw [hreported]
    rfl
  cases hdrain : s.sink.drain iv.toList pos with
  | mk p sink' =>
    have haccepted := Sink.drain_accepted hdrain
    rw [hsent] at haccepted
    rw [hdrain] at hpoll
    cases p with
    | done =>
      rw [Progress.rest, append_nil] at haccepted
      have hsink : sink'.Sound := by
        have hsnd := hsound.drain iv.toList pos
        rw [hdrain] at hsnd
        exact hsnd
      exact writeEncrypted_phase (hreported ▸ hafter) hsink
        (by rw [hreported, wire_nil, haccepted]) hoffered' hrepolls hpoll
    | failed e =>
      exact absurd (hsound.drain_failed hdrain) (Nat.not_le.mpr hpos)
    | part pos' =>
      rw [Writer.step_write hpoll]
      exact Phase.openIv c pos' rfl (Sink.drain_part hdrain) hafter haccepted hnone hbegun
    | pending =>
      rw [Writer.step_write hpoll]
      exact Phase.openIv c pos rfl hpos hafter haccepted hnone hbegun

theorem flush_openIv :
    Phase encryptBlock iv ((cipherWriter encryptBlock).step s .flush) := by
  have hpoll : (cipherWriter encryptBlock).pollFlush s.state s.sink =
      pollFlush encryptBlock
        { idle iv c with firstWriteBuf := some iv.toList, firstWritePos := pos } s.sink := by
    rw [hstate]
    rfl
  rw [pollFlush] at hpoll
  dsimp only [idle] at hpoll
  cases hdrain : s.sink.drain iv.toList pos with
  | mk p sink' =>
    have haccepted := Sink.drain_accepted hdrain
    rw [hsent] at haccepted
    rw [hdrain] at hpoll
    cases p with
    | done =>
      rw [Progress.rest, append_nil] at haccepted
      have hstep := Writer.step_flush (hpoll.trans
        (show _ = (sink'.pollFlush.1, idle iv c, sink'.pollFlush.2) from rfl))
      rw [hstep]
      refine Phase.idle c rfl ?_ ?_ ?_
      · rw [hreported]
        exact hafter
      · rw [hreported, wire_nil, Sink.pollFlush_accepted, haccepted]
      · rw [hreported]
        exact hoffered
    | failed e =>
      exact absurd (hsound.drain_failed hdrain) (Nat.not_le.mpr hpos)
    | part pos' =>
      rw [Writer.step_flush hpoll]
      exact Phase.openIv c pos' rfl (Sink.drain_part hdrain) hafter haccepted hreported hoffered
    | pending =>
      rw [Writer.step_flush hpoll]
      exact Phase.openIv c pos rfl hpos hafter haccepted hreported hoffered

end OpenIv

section OpenFirst

variable (hsound : s.sink.Sound) (hstate : s.state = { idle iv c with
    firstWriteBuf := some (wire encryptBlock iv b)
    firstWritePos := pos
    firstWriteDataLen := b.length }) (hpos : pos < (wire encryptBlock iv b).length) (hne : b ≠ [])
  (hafter : CfbState.After encryptBlock iv b c)
  (hsent : s.sink.accepted ++ (wire encryptBlock iv b).drop pos = wire encryptBlock iv b)
  (hflight : s.inFlight = some b) (hreported : s.reported = []) (hoffered : s.offered.flatten = b)
include hsound hstate hpos hne hafter hsent hflight hreported hoffered

theorem write_openFirst :
    Phase encryptBlock iv ((cipherWriter encryptBlock).step s (.write b)) := by
  have hpoll : (cipherWriter encryptBlock).pollWrite s.state s.sink b =
      pollWrite encryptBlock { idle iv c with
        firstWriteBuf := some (wire encryptBlock iv b)
        firstWritePos := pos
        firstWriteDataLen := b.length } s.sink b := by
    rw [hstate]
    rfl
  rw [pollWrite] at hpoll
  dsimp only [idle] at hpoll
  have hbegun : (if s.inFlight.isSome then s.offered else s.offered ++ [b]).flatten = b := by
    rw [hflight]
    exact hoffered
  have hnone : s.reported ++ Outcome.written b .pending = [] := by
    rw [hreported]
    rfl
  cases hdrain : s.sink.drain (wire encryptBlock iv b) pos with
  | mk p sink' =>
    have haccepted := Sink.drain_accepted hdrain
    rw [hsent] at haccepted
    rw [hdrain] at hpoll
    cases p with
    | done =>
      rw [Progress.rest, append_nil] at haccepted
      dsimp only at hpoll
      rw [if_pos (length_pos_iff.mpr hne)] at hpoll
      rw [Writer.step_write hpoll]
      have hall : s.reported ++ Outcome.written b (.ready b.length) = b := by
        rw [hreported, Outcome.written, take_length, nil_append]
      refine Phase.idle c rfl ?_ ?_ ?_
      · rw [hall]
        exact hafter
      · rw [hall, haccepted]
      · rw [hall, hbegun]
        exact (append_nil _).symm
    | failed e =>
      exact absurd (hsound.drain_failed hdrain) (Nat.not_le.mpr hpos)
    | part pos' =>
      rw [Writer.step_write hpoll]
      exact Phase.openFirst c pos' b rfl (Sink.drain_part hdrain) hne hafter haccepted rfl hnone
        hbegun
    | pending =>
      rw [Writer.step_write hpoll]
      exact Phase.openFirst c pos b rfl hpos hne hafter haccepted rfl hnone hbegun

theorem flush_openFirst :
    Phase encryptBlock iv ((cipherWriter encryptBlock).step s .flush) := by
  have hpoll : (cipherWriter encryptBlock).pollFlush s.state s.sink =
      pollFlush encryptBlock { idle iv c with
        firstWriteBuf := some (wire encryptBlock iv b)
        firstWritePos := pos
        firstWriteDataLen := b.length } s.sink := by
    rw [hstate]
    rfl
  rw [pollFlush] at hpoll
  dsimp only [idle] at hpoll
  cases hdrain : s.sink.drain (wire encryptBlock iv b) pos with
  | mk p sink' =>
    have haccepted := Sink.drain_accepted hdrain
    rw [hsent] at haccepted
    rw [hdrain] at hpoll
    cases p with
    | done =>
      rw [Progress.rest, append_nil] at haccepted
      have hstep := Writer.step_flush (hpoll.trans
        (show _ = (sink'.pollFlush.1, { idle iv c with firstWriteDataLen := b.length },
          sink'.pollFlush.2) from rfl))
      rw [hstep]
      exact Phase.claimed c b rfl hne hafter
        ((Sink.pollFlush_accepted sink').trans haccepted) hflight hreported hoffered
    | failed e =>
      exact absurd (hsound.drain_failed hdrain) (Nat.not_le.mpr hpos)
    | part pos' =>
      rw [Writer.step_flush hpoll]
      exact Phase.openFirst c pos' b rfl (Sink.drain_part hdrain) hne hafter haccepted hflight
        hreported hoffered
    | pending =>
      rw [Writer.step_flush hpoll]
      exact Phase.openFirst c pos b rfl hpos hne hafter haccepted hflight hreported hoffered

end OpenFirst

theorem write_claimed (hstate : s.state = { idle iv c with firstWriteDataLen := b.length })
    (hne : b ≠ []) (hafter : CfbState.After encryptBlock iv b c)
    (hsent : s.sink.accepted = wire encryptBlock iv b) (hflight : s.inFlight = some b)
    (hreported : s.reported = []) (hoffered : s.offered.flatten = b) :
    Phase encryptBlock iv ((cipherWriter encryptBlock).step s (.write b)) := by
  have hpoll : (cipherWriter encryptBlock).pollWrite s.state s.sink b =
      (.ready b.length, idle iv c, s.sink) := by
    rw [hstate]
    change reportFirst encryptBlock { idle iv c with firstWriteDataLen := b.length } s.sink b = _
    rw [reportFirst, if_pos (length_pos_iff.mpr hne), Nat.min_self]
    rfl
  have hall : s.reported ++ Outcome.written b (.ready b.length) = b := by
    rw [hreported, Outcome.written, take_length, nil_append]
  rw [Writer.step_write hpoll]
  refine Phase.idle c rfl ?_ ?_ ?_
  · rw [hall]
    exact hafter
  · rw [hall, hsent]
  · rw [hall, hflight]
    exact hoffered.trans (append_nil _).symm

def KeepsClaim (s : Session CipherWriterState) : Call -> Prop
  | .write _ => True
  | .flush =>
    s.state.encryptedBuf.any
      (fun text => s.sink.takesAll (text.drop s.state.encryptedWritePos)) = false

instance (s : Session CipherWriterState) : (call : Call) -> Decidable (KeepsClaim s call)
  | .write _ => isTrue trivial
  | .flush => inferInstanceAs (Decidable (_ = false))

section OpenLater

variable (hsound : s.sink.Sound) {text : List Byte}
  (hstate : s.state = { idle iv c with encryptedBuf := some text, encryptedWritePos := pos })
  (hpos : pos < text.length) (hlength : text.length = b.length)
  (hafter : CfbState.After encryptBlock iv (s.reported ++ b) c)
  (hsent : s.sink.accepted ++ text.drop pos = wire encryptBlock iv (s.reported ++ b))
  (hflight : s.inFlight = some b) (hoffered : s.offered.flatten = s.reported ++ b)
include hsound hstate hpos hlength hafter hsent hflight hoffered

theorem write_openLater :
    Phase encryptBlock iv ((cipherWriter encryptBlock).step s (.write b)) := by
  have hpoll : (cipherWriter encryptBlock).pollWrite s.state s.sink b =
      retryEncrypted encryptBlock
        { idle iv c with encryptedBuf := some text, encryptedWritePos := pos } s.sink b := by
    rw [hstate]
    rfl
  rw [retryEncrypted] at hpoll
  dsimp only [idle] at hpoll
  have hbegun : (if s.inFlight.isSome then s.offered else s.offered ++ [b]).flatten =
      s.reported ++ b := by
    rw [hflight]
    exact hoffered
  have hnone : s.reported ++ Outcome.written b .pending = s.reported := append_nil _
  cases hdrain : s.sink.drain text pos with
  | mk p sink' =>
    have haccepted := Sink.drain_accepted hdrain
    rw [hsent] at haccepted
    rw [hdrain] at hpoll
    cases p with
    | done =>
      rw [Progress.rest, append_nil] at haccepted
      rw [Writer.step_write hpoll]
      have hall : s.reported ++ Outcome.written b (.ready text.length) = s.reported ++ b := by
        rw [Outcome.written, hlength, take_length]
      refine Phase.idle c rfl ?_ ?_ ?_
      · rw [hall]
        exact hafter
      · rw [hall, haccepted]
      · rw [hall, hbegun]
        exact (append_nil _).symm
    | failed e =>
      exact absurd (hsound.drain_failed hdrain) (Nat.not_le.mpr hpos)
    | part pos' =>
      rw [Writer.step_write hpoll]
      refine Phase.openLater c text pos' b rfl (Sink.drain_part hdrain) hlength ?_ ?_ rfl ?_
      · rw [hnone]
        exact hafter
      · rw [hnone]
        exact haccepted
      · rw [hnone, hbegun]
    | pending =>
      rw [Writer.step_write hpoll]
      refine Phase.openLater c text pos b rfl hpos hlength ?_ ?_ rfl ?_
      · rw [hnone]
        exact hafter
      · rw [hnone]
        exact haccepted
      · rw [hnone, hbegun]

theorem flush_openLater
    (hkeeps : KeepsClaim s .flush) :
    Phase encryptBlock iv ((cipherWriter encryptBlock).step s .flush) := by
  have hpoll : (cipherWriter encryptBlock).pollFlush s.state s.sink =
      flushEncrypted encryptBlock
        { idle iv c with encryptedBuf := some text, encryptedWritePos := pos } s.sink := by
    rw [hstate]
    rfl
  rw [flushEncrypted] at hpoll
  dsimp only [idle] at hpoll
  cases hdrain : s.sink.drain text pos with
  | mk p sink' =>
    have haccepted := Sink.drain_accepted hdrain
    rw [hsent] at haccepted
    rw [hdrain] at hpoll
    cases p with
    | done =>
      rw [KeepsClaim, hstate] at hkeeps
      have hall := Sink.drain_done hdrain
      rw [idle, Option.any_some, hall] at hkeeps
      cases hkeeps
    | failed e =>
      exact absurd (hsound.drain_failed hdrain) (Nat.not_le.mpr hpos)
    | part pos' =>
      rw [Writer.step_flush hpoll]
      exact Phase.openLater c text pos' b rfl (Sink.drain_part hdrain) hlength hafter haccepted
        hflight hoffered
    | pending =>
      rw [Writer.step_flush hpoll]
      exact Phase.openLater c text pos b rfl hpos hlength hafter haccepted hflight hoffered

end OpenLater

section Stuck

variable (hstate : s.state = { idle iv c with encryptedBuf := some [] })
  (hsent : s.sink.accepted = wire encryptBlock iv s.reported)
  (hoffered : s.reported <+: s.offered.flatten)
include hstate hsent hoffered

theorem write_stuck (buf : List Byte) :
    Phase encryptBlock iv ((cipherWriter encryptBlock).step s (.write buf)) := by
  have hpoll : (cipherWriter encryptBlock).pollWrite s.state s.sink buf =
      retryEncrypted encryptBlock { idle iv c with encryptedBuf := some [] } s.sink buf := by
    rw [hstate]
    rfl
  rw [retryEncrypted] at hpoll
  dsimp only [idle] at hpoll
  have hbegun : s.reported <+:
      (if s.inFlight.isSome then s.offered else s.offered ++ [buf]).flatten := by
    split
    · exact hoffered
    · rw [flatten_append]
      exact hoffered.trans (prefix_append _ _)
  have hstay : forall (o : Outcome Nat) (sink' : Sink), o.written buf = [] ->
      sink'.accepted = s.sink.accepted ->
      (cipherWriter encryptBlock).pollWrite s.state s.sink buf =
        (o, { idle iv c with encryptedBuf := some [] }, sink') ->
      Phase encryptBlock iv ((cipherWriter encryptBlock).step s (.write buf)) := by
    intro o sink' ho haccepted hpoll
    rw [Writer.step_write hpoll, ho, append_nil]
    exact Phase.stuck c rfl (haccepted.trans hsent) hbegun
  cases hdrain : s.sink.drain [] 0 with
  | mk p sink' =>
    obtain ⟨hp, haccepted⟩ := Sink.drain_empty hdrain
    rw [hdrain] at hpoll
    rcases hp with hp | ⟨e, hp⟩
    · rw [hp] at hpoll
      exact hstay .pending sink' rfl haccepted hpoll
    · rw [hp] at hpoll
      exact hstay (.failed e) sink' rfl haccepted hpoll

theorem flush_stuck :
    Phase encryptBlock iv ((cipherWriter encryptBlock).step s .flush) := by
  have hpoll : (cipherWriter encryptBlock).pollFlush s.state s.sink =
      flushEncrypted encryptBlock { idle iv c with encryptedBuf := some [] } s.sink := by
    rw [hstate]
    rfl
  rw [flushEncrypted] at hpoll
  dsimp only [idle] at hpoll
  cases hdrain : s.sink.drain [] 0 with
  | mk p sink' =>
    obtain ⟨hp, haccepted⟩ := Sink.drain_empty hdrain
    rw [hdrain] at hpoll
    rcases hp with hp | ⟨e, hp⟩
    · rw [hp] at hpoll
      rw [Writer.step_flush hpoll]
      exact Phase.stuck c rfl (haccepted.trans hsent) hoffered
    · rw [hp] at hpoll
      rw [Writer.step_flush hpoll]
      exact Phase.stuck c rfl (haccepted.trans hsent) hoffered

end Stuck

theorem write_phase (hsound : s.sink.Sound) (h : Phase encryptBlock iv s)
    (hrepolls : s.Repolls (.write buf)) :
    Phase encryptBlock iv ((cipherWriter encryptBlock).step s (.write buf)) := by
  cases h with
  | fresh hstate hsent hoffered hflight hreported =>
    exact write_fresh hsound hstate hsent hoffered hflight hreported buf
  | idle c hstate hafter hsent hoffered =>
    refine writeEncrypted_phase hafter hsound hsent hoffered hrepolls ?_
    rw [hstate]
    rfl
  | openIv c pos hstate hpos hafter hsent hreported hoffered =>
    exact write_openIv hsound hstate hpos hafter hsent hreported hoffered hrepolls
  | openFirst c pos b hstate hpos hne hafter hsent hflight hreported hoffered =>
    rw [← hrepolls.eq hflight]
    exact write_openFirst hsound hstate hpos hne hafter hsent hflight hreported hoffered
  | claimed c b hstate hne hafter hsent hflight hreported hoffered =>
    rw [← hrepolls.eq hflight]
    exact write_claimed hstate hne hafter hsent hflight hreported hoffered
  | openLater c text pos b hstate hpos hlength hafter hsent hflight hoffered =>
    rw [← hrepolls.eq hflight]
    exact write_openLater hsound hstate hpos hlength hafter hsent hflight hoffered
  | stuck c hstate hsent hoffered => exact write_stuck hstate hsent hoffered buf

theorem flush_phase (hsound : s.sink.Sound) (h : Phase encryptBlock iv s)
    (hkeeps : KeepsClaim s .flush) :
    Phase encryptBlock iv ((cipherWriter encryptBlock).step s .flush) := by
  cases h with
  | fresh hstate hsent hoffered hflight hreported =>
    exact flush_fresh hsound hstate hsent hoffered hflight hreported
  | idle c hstate hafter hsent hoffered =>
    have hpoll : (cipherWriter encryptBlock).pollFlush s.state s.sink =
        (s.sink.pollFlush.1, CipherWriterState.idle iv c, s.sink.pollFlush.2) := by
      rw [hstate]
      rfl
    rw [Writer.step_flush hpoll]
    exact Phase.idle c rfl hafter ((Sink.pollFlush_accepted _).trans hsent) hoffered
  | openIv c pos hstate hpos hafter hsent hreported hoffered =>
    exact flush_openIv hsound hstate hpos hafter hsent hreported hoffered
  | openFirst c pos b hstate hpos hne hafter hsent hflight hreported hoffered =>
    exact flush_openFirst hsound hstate hpos hne hafter hsent hflight hreported hoffered
  | claimed c b hstate hne hafter hsent hflight hreported hoffered =>
    have hpoll : (cipherWriter encryptBlock).pollFlush s.state s.sink =
        (s.sink.pollFlush.1, { CipherWriterState.idle iv c with firstWriteDataLen := b.length },
          s.sink.pollFlush.2) := by
      rw [hstate]
      rfl
    rw [Writer.step_flush hpoll]
    exact Phase.claimed c b rfl hne hafter ((Sink.pollFlush_accepted _).trans hsent) hflight
      hreported hoffered
  | openLater c text pos b hstate hpos hlength hafter hsent hflight hoffered =>
    exact flush_openLater hsound hstate hpos hlength hafter hsent hflight hoffered hkeeps
  | stuck c hstate hsent hoffered => exact flush_stuck hstate hsent hoffered

end Steps

section Sound

variable {encryptBlock : Block -> Block} {s : CipherWriterState} {sink : Sink}

theorem writeEncrypted_sound (h : sink.Sound) (buf : List Byte) :
    (writeEncrypted encryptBlock s sink buf).2.2.Sound := by
  unfold writeEncrypted
  split
  · exact h
  · rename_i cfb _
    have hsink := h.offer (cfb.encrypt encryptBlock buf).1
    dsimp only
    split
    all_goals
      rename_i heq
      rw [heq] at hsink
      exact hsink

theorem retryEncrypted_sound (h : sink.Sound) (buf : List Byte) :
    (retryEncrypted encryptBlock s sink buf).2.2.Sound := by
  unfold retryEncrypted
  split
  · exact writeEncrypted_sound h buf
  · rename_i pending _
    have hsink := h.drain pending s.encryptedWritePos
    split
    all_goals
      rename_i heq
      rw [heq] at hsink
      exact hsink

theorem reportFirst_sound (h : sink.Sound) (buf : List Byte) :
    (reportFirst encryptBlock s sink buf).2.2.Sound := by
  unfold reportFirst writeFirst
  split
  · exact h
  · split
    · exact retryEncrypted_sound h buf
    · have hsink := h.offer (s.writeIv.toList ++
        ((CfbState.new encryptBlock s.writeIv).encrypt encryptBlock buf).1)
      dsimp only
      split
      all_goals
        rename_i heq
        rw [heq] at hsink
        exact hsink

theorem pollWrite_sound (h : sink.Sound) (buf : List Byte) :
    (pollWrite encryptBlock s sink buf).2.2.Sound := by
  unfold pollWrite
  split
  · exact reportFirst_sound h buf
  · rename_i pending _
    have hsink := h.drain pending s.firstWritePos
    split
    · rename_i heq
      rw [heq] at hsink
      split
      · exact hsink
      · exact reportFirst_sound hsink buf
    all_goals
      rename_i heq
      rw [heq] at hsink
      exact hsink

theorem flushIv_sound (h : sink.Sound) : (flushIv encryptBlock s sink).2.2.Sound := by
  unfold flushIv
  split
  · exact h.pollFlush
  · have hsink := h.offer s.writeIv.toList
    dsimp only
    split
    · rename_i heq
      rw [heq] at hsink
      exact hsink.pollFlush
    all_goals
      rename_i heq
      rw [heq] at hsink
      exact hsink

theorem flushEncrypted_sound (h : sink.Sound) :
    (flushEncrypted encryptBlock s sink).2.2.Sound := by
  unfold flushEncrypted
  split
  · exact flushIv_sound h
  · rename_i pending _
    have hsink := h.drain pending s.encryptedWritePos
    split
    · rename_i heq
      rw [heq] at hsink
      exact flushIv_sound hsink
    all_goals
      rename_i heq
      rw [heq] at hsink
      exact hsink

theorem pollFlush_sound (h : sink.Sound) : (pollFlush encryptBlock s sink).2.2.Sound := by
  unfold pollFlush
  split
  · exact flushEncrypted_sound h
  · rename_i pending _
    have hsink := h.drain pending s.firstWritePos
    split
    · rename_i heq
      rw [heq] at hsink
      exact flushEncrypted_sound hsink
    all_goals
      rename_i heq
      rw [heq] at hsink
      exact hsink

end Sound

/-!
## Flushing
-/

def Drained (s : CipherWriterState) : Prop :=
  s.ivSent = true ∧ s.firstWriteBuf = none ∧ s.encryptedBuf = none

section Flushing

variable {encryptBlock : Block -> Block} {iv : Block} {s : Session CipherWriterState}

variable {st st' : CipherWriterState}
variable {sink sink' : Sink}

theorem flushIv_drained (hfirst : st.firstWriteBuf = none) (hencrypted : st.encryptedBuf = none)
    (h : flushIv encryptBlock st sink = (.ready (), st', sink')) : Drained st' := by
  unfold flushIv at h
  split at h
  · rename_i hiv
    have hst : st = st' := congrArg (fun r => r.2.1) h
    rw [← hst]
    exact ⟨hiv, hfirst, hencrypted⟩
  · dsimp only at h
    split at h
    · have hst := congrArg (fun r => r.2.1) h
      dsimp only at hst
      rw [← hst]
      exact ⟨rfl, hfirst, hencrypted⟩
    · cases h
    · cases h
    · cases h

theorem flushEncrypted_drained (hfirst : st.firstWriteBuf = none)
    (h : flushEncrypted encryptBlock st sink = (.ready (), st', sink')) : Drained st' := by
  unfold flushEncrypted at h
  split at h
  · rename_i hencrypted
    exact flushIv_drained hfirst hencrypted h
  · split at h
    · refine flushIv_drained ?_ ?_ h
      · exact hfirst
      · rfl
    · cases h
    · cases h
    · cases h

theorem pollFlush_drained (h : pollFlush encryptBlock st sink = (.ready (), st', sink')) :
    Drained st' := by
  unfold pollFlush at h
  split at h
  · rename_i hfirst
    exact flushEncrypted_drained hfirst h
  · split at h
    · refine flushEncrypted_drained ?_ h
      rfl
    · cases h
    · cases h
    · cases h

/-- The bytes sent are the encryption of the reported writes, or of these and the pending
one. -/
def SentWhole (encryptBlock : Block -> Block) (iv : Block) (s : Session CipherWriterState) : Prop :=
  s.sink.accepted = wire encryptBlock iv s.reported ∨
    exists b, s.inFlight = some b ∧ s.sink.accepted = wire encryptBlock iv (s.reported ++ b)

theorem Phase.sentWhole (h : Phase encryptBlock iv s) (hdrained : Drained s.state) :
    SentWhole encryptBlock iv s := by
  obtain ⟨hiv, hfirst, hencrypted⟩ := hdrained
  cases h with
  | fresh hstate hsent hoffered hflight hreported =>
    rw [hstate] at hiv
    cases hiv
  | idle c hstate hafter hsent hoffered => exact .inl hsent
  | openIv c pos hstate hpos hafter hsent hreported hoffered =>
    rw [hstate] at hfirst
    cases hfirst
  | openFirst c pos b hstate hpos hne hafter hsent hflight hreported hoffered =>
    rw [hstate] at hfirst
    cases hfirst
  | claimed c b hstate hne hafter hsent hflight hreported hoffered =>
    refine .inr ⟨b, hflight, ?_⟩
    rw [hreported]
    exact hsent
  | openLater c text pos b hstate hpos hlength hafter hsent hflight hoffered =>
    rw [hstate] at hencrypted
    cases hencrypted
  | stuck c hstate hsent hoffered =>
    rw [hstate] at hencrypted
    cases hencrypted

/-- A flush that is ready has sent everything, also when it has finished the buffer of a
later write. -/
theorem Phase.flush_sentWhole (hsound : s.sink.Sound) (h : Phase encryptBlock iv s) {sink : Sink}
    (hflush : (cipherWriter encryptBlock).pollFlush s.state s.sink = (.ready (), st, sink)) :
    SentWhole encryptBlock iv ((cipherWriter encryptBlock).step s .flush) := by
  have hdrained : Drained ((cipherWriter encryptBlock).step s .flush).state := by
    rw [Writer.step_flush hflush]
    exact pollFlush_drained hflush
  by_cases hkeeps : KeepsClaim s .flush
  · exact (flush_phase hsound h hkeeps).sentWhole hdrained
  · cases h with
    | openLater c text pos b hstate hpos hlength hafter hsent hflight hoffered =>
      have hpoll : (cipherWriter encryptBlock).pollFlush s.state s.sink =
          flushEncrypted encryptBlock
            { CipherWriterState.idle iv c with encryptedBuf := some text, encryptedWritePos := pos }
            s.sink := by
        rw [hstate]
        rfl
      rw [hflush, flushEncrypted] at hpoll
      dsimp only [CipherWriterState.idle] at hpoll
      cases hdrain : s.sink.drain text pos with
      | mk p sink' =>
        have haccepted := Sink.drain_accepted hdrain
        rw [hsent] at haccepted
        rw [hdrain] at hpoll
        cases p with
        | done =>
          rw [Progress.rest, append_nil] at haccepted
          have hsink : sink = sink'.pollFlush.2 := congrArg (fun r => r.2.2) hpoll
          rw [Writer.step_flush hflush, hsink]
          refine .inr ⟨b, hflight, ?_⟩
          exact (Sink.pollFlush_accepted sink').trans haccepted
        | failed e => cases hpoll
        | part pos' => cases hpoll
        | pending => cases hpoll
    | stuck c hstate hsent hoffered =>
      have hpoll : (cipherWriter encryptBlock).pollFlush s.state s.sink =
          flushEncrypted encryptBlock { CipherWriterState.idle iv c with encryptedBuf := some [] }
            s.sink := by
        rw [hstate]
        rfl
      rw [hflush, flushEncrypted] at hpoll
      dsimp only [CipherWriterState.idle] at hpoll
      cases hdrain : s.sink.drain [] 0 with
      | mk p sink' =>
        obtain ⟨hp, _⟩ := Sink.drain_empty hdrain
        rw [hdrain] at hpoll
        rcases hp with hp | ⟨e, hp⟩
        · rw [hp] at hpoll
          cases hpoll
        · rw [hp] at hpoll
          cases hpoll
    | fresh hstate hsent hoffered hflight hreported =>
      refine absurd ?_ hkeeps
      rw [KeepsClaim, hstate]
      rfl
    | idle c hstate hafter hsent hoffered =>
      refine absurd ?_ hkeeps
      rw [KeepsClaim, hstate]
      rfl
    | openIv c pos hstate hpos hafter hsent hreported hoffered =>
      refine absurd ?_ hkeeps
      rw [KeepsClaim, hstate]
      rfl
    | openFirst c pos b hstate hpos hne hafter hsent hflight hreported hoffered =>
      refine absurd ?_ hkeeps
      rw [KeepsClaim, hstate]
      rfl
    | claimed c b hstate hne hafter hsent hflight hreported hoffered =>
      refine absurd ?_ hkeeps
      rw [KeepsClaim, hstate]
      rfl

end Flushing

/-!
## Sessions
-/

/-- What is sent is a prefix of the vector and the encryption of the writes, every reported
byte is sent, and a flush that is ready leaves nothing. -/
structure SentOnce (encryptBlock : Block -> Block) (iv : Block)
    (s : Session CipherWriterState) : Prop where
  sent : s.sink.accepted <+: wire encryptBlock iv s.offered.flatten
  reported : s.reported ≠ [] -> wire encryptBlock iv s.reported <+: s.sink.accepted
  flushed : forall st sink,
    (cipherWriter encryptBlock).pollFlush s.state s.sink = (.ready (), st, sink) ->
      Drained st ∧ SentWhole encryptBlock iv ((cipherWriter encryptBlock).step s .flush)

section Session

variable {encryptBlock : Block -> Block} {iv : Block} {s : Session CipherWriterState}

theorem wire_initial (text text' : List Byte) :
    wire encryptBlock iv text <+: wire encryptBlock iv (text ++ text') :=
  (prefix_append_right_inj _).mpr (cfb128_initial encryptBlock iv text text')

theorem wire_mono {text text' : List Byte} (h : text <+: text') :
    wire encryptBlock iv text <+: wire encryptBlock iv text' := by
  obtain ⟨more, heq⟩ := h
  rw [← heq]
  exact wire_initial text more

theorem Phase.sent (h : Phase encryptBlock iv s) :
    s.sink.accepted <+: wire encryptBlock iv s.offered.flatten := by
  cases h with
  | fresh hstate hsent hoffered hflight hreported =>
    rw [hsent]
    exact nil_prefix
  | idle c hstate hafter hsent hoffered =>
    rw [hsent, hoffered]
    exact wire_initial _ _
  | openIv c pos hstate hpos hafter hsent hreported hoffered =>
    have hiv : s.sink.accepted <+: iv.toList := ⟨_, hsent⟩
    exact hiv.trans (prefix_append _ _)
  | openFirst c pos b hstate hpos hne hafter hsent hflight hreported hoffered =>
    rw [hoffered]
    exact ⟨_, hsent⟩
  | claimed c b hstate hne hafter hsent hflight hreported hoffered =>
    rw [hoffered]
    exact initial_of_eq hsent
  | openLater c text pos b hstate hpos hlength hafter hsent hflight hoffered =>
    rw [hoffered]
    exact ⟨_, hsent⟩
  | stuck c hstate hsent hoffered =>
    rw [hsent]
    exact wire_mono hoffered

theorem Phase.reported (h : Phase encryptBlock iv s) (hne : s.reported ≠ []) :
    wire encryptBlock iv s.reported <+: s.sink.accepted := by
  cases h with
  | fresh hstate hsent hoffered hflight hreported => exact absurd hreported hne
  | idle c hstate hafter hsent hoffered =>
    exact initial_of_eq hsent.symm
  | openIv c pos hstate hpos hafter hsent hreported hoffered => exact absurd hreported hne
  | openFirst c pos b hstate hpos hne' hafter hsent hflight hreported hoffered =>
    exact absurd hreported hne
  | claimed c b hstate hne' hafter hsent hflight hreported hoffered => exact absurd hreported hne
  | openLater c text pos b hstate hpos hlength hafter hsent hflight hoffered =>
    -- Only bytes of the pending write are missing.
    have hlen := congrArg length hsent
    rw [length_append, length_drop] at hlen
    have hwire : (wire encryptBlock iv (s.reported ++ b)).length =
        (wire encryptBlock iv s.reported).length + b.length := by
      simp only [wire, Chain.cfb128_eq_run, length_append, length_run]
      omega
    refine prefix_of_prefix_length_le (wire_initial s.reported b) ⟨_, hsent⟩ ?_
    omega
  | stuck c hstate hsent hoffered =>
    exact initial_of_eq hsent.symm

theorem Phase.sentOnce (hsound : s.sink.Sound) (h : Phase encryptBlock iv s) :
    SentOnce encryptBlock iv s where
  sent := h.sent
  reported := h.reported
  flushed := fun _ _ hflush => ⟨pollFlush_drained hflush, h.flush_sentWhole hsound hflush⟩

def Clear (s : Session CipherWriterState) (call : Call) : Prop :=
  s.Repolls call ∧ KeepsClaim s call

instance (s : Session CipherWriterState) (call : Call) : Decidable (Clear s call) :=
  inferInstanceAs (Decidable (_ ∧ _))

theorem step_phase (s : Session CipherWriterState) (call : Call)
    (h : s.sink.Sound ∧ Phase encryptBlock iv s) (hclear : Clear s call) :
    ((cipherWriter encryptBlock).step s call).sink.Sound ∧
      Phase encryptBlock iv ((cipherWriter encryptBlock).step s call) := by
  obtain ⟨hsound, hphase⟩ := h
  cases call with
  | write buf => exact ⟨pollWrite_sound hsound buf, write_phase hsound hphase hclear.1⟩
  | flush => exact ⟨pollFlush_sound hsound, flush_phase hsound hphase hclear.2⟩

end Session

/-- Every write is encrypted and sent once, whatever the inner writer does, as long as no
flush finishes the buffer of a write after the first one. -/
theorem sentOnce_of_clear (encryptBlock : Block -> Block) (iv : Block)
    {script : List WriteEvent} (hscript : Sink.Sound ⟨[], script⟩) (calls : List Call)
    (hcalls : Run.Along (cipherWriter encryptBlock).step Clear
      (Session.start (new iv) script) calls) :
    SentOnce encryptBlock iv
      (Run.run (cipherWriter encryptBlock).step (Session.start (new iv) script) calls) := by
  have hstart : (Session.start (new iv) script).sink.Sound ∧
      Phase encryptBlock iv (Session.start (new iv) script) :=
    ⟨hscript, Phase.fresh rfl rfl rfl rfl rfl⟩
  obtain ⟨hsound, hphase⟩ := Run.run_invariant (@step_phase encryptBlock iv) hstart hcalls
  exact hphase.sentOnce hsound

/-- The second write is pending, a flush sends a byte of it, and the retry the other. -/
theorem sentOnce_of_clear_sample :
    SentOnce id (blockOf [])
      (Run.run (cipherWriter id).step
        (Session.start (new (blockOf []))
          [.accept 20, .pending, .accept 1, .accept 100, .accept 100])
        [.write [1], .write [2, 3], .flush, .write [2, 3], .flush]) :=
  sentOnce_of_clear id (blockOf []) (by decide) _ (by decide)

/-- The second write is pending, a flush sends all of it, and the retry sends it again. -/
theorem flushed_write_sent_twice :
    Sink.Sound ⟨[], [.accept 100, .pending, .accept 100, .accept 100, .accept 100]⟩ ∧
    Run.Along (cipherWriter id).step (fun s call => s.Repolls call)
      (Session.start (new (blockOf []))
        [.accept 100, .pending, .accept 100, .accept 100, .accept 100])
      [.write [1], .write [2, 3], .flush, .write [2, 3]] ∧
    ¬ (Run.run (cipherWriter id).step
        (Session.start (new (blockOf []))
          [.accept 100, .pending, .accept 100, .accept 100, .accept 100])
        [.write [1], .write [2, 3], .flush, .write [2, 3]]).sink.accepted <+:
      wire id (blockOf [])
        (Run.run (cipherWriter id).step
          (Session.start (new (blockOf []))
            [.accept 100, .pending, .accept 100, .accept 100, .accept 100])
          [.write [1], .write [2, 3], .flush, .write [2, 3]]).offered.flatten := by
  decide

end CipherWriterState

end Stream
end FrpRs
