import FrpRs.Stream.WsFrames

/-!
# What a WebSocket byte stream delivers

The bytes of a session of writes are whole frames, one for every write that is reported, and at
most the beginning of one more.  A stream of the opposite mode that reads these bytes delivers
the payloads, wherever its reads and its caller's buffers end.
-/

namespace FrpRs
namespace Stream

open List Bytes Poll

def encodeFrames (client : Bool) (fs : List DataFrame) : List Byte :=
  fs.flatMap (DataFrame.encode client)

def framePayloads (fs : List DataFrame) : List Byte :=
  fs.flatMap DataFrame.payload

def PartialFrame (client : Bool) (part : List Byte) : Prop :=
  exists (f : DataFrame) (more : List Byte), more ≠ [] ∧ part ++ more = f.encode client

/-!
## Reading frames
-/

namespace WsByteStream

/-- What is owed of the frames that a source still has, up to the beginning of one more. -/
inductive Stage (client : Bool) (st : RawReadState) (frame : RawFrame) (bytes later : List Byte) :
    Prop
  | boundary {fs : List DataFrame} {cut : List Byte} (hidle : st = .idle)
      (hcut : PartialFrame client cut) (hbytes : bytes = encodeFrames client fs ++ cut)
      (hlater : later = framePayloads fs)
  | inside {f : DataFrame} {post : List Byte} {fs : List DataFrame} {cut : List Byte}
      (hat : InboundAt client f.inbound st frame post) (hcut : PartialFrame client cut)
      (hbytes : bytes = post ++ (encodeFrames client fs ++ cut))
      (hlater : later = f.payload ++ framePayloads fs)
  | cutShort {f : DataFrame} {missing : List Byte} (hmissing : missing ≠ [])
      (hat : InboundAt client f.inbound st frame (bytes ++ missing)) (hlater : later = [])

section Reading

variable {client : Bool} {st : RawReadState} {frame : RawFrame} {bytes later : List Byte}

theorem Stage.begin (h : Stage client .idle frame bytes later) :
    Stage client (.readingHeader []) frame bytes later := by
  cases h with
  | inside hat hcut hbytes hlater => exact absurd rfl hat.not_idle
  | cutShort hmissing hat hlater => exact absurd rfl hat.not_idle
  | boundary hidle hcut hbytes hlater =>
    rename_i fs cut
    cases fs with
    | nil =>
      obtain ⟨f, more, hmore, hencode⟩ := hcut
      have hat : InboundAt client f.inbound (.readingHeader []) frame (cut ++ more) :=
        .header (by decide) (hencode.trans (f.encode_inbound client).symm)
      rw [hbytes]
      exact .cutShort hmore hat hlater
    | cons f fs =>
      have hat : InboundAt client f.inbound (.readingHeader []) frame (f.encode client) :=
        .header (by decide) (f.encode_inbound client).symm
      refine @Stage.inside _ _ _ _ _ f _ fs cut hat hcut ?_ ?_
      · rw [hbytes, encodeFrames, flatMap_cons, append_assoc]
        rfl
      · rw [hlater, framePayloads, flatMap_cons]
        rfl

theorem Stage.end (h : Stage client st frame [] later) (hidle : st ≠ .idle) : later = [] := by
  cases h with
  | boundary hidle' hcut hbytes hlater => exact absurd hidle' hidle
  | cutShort hmissing hat hlater => exact hlater
  | inside hat hcut hbytes hlater =>
    have hpost := (append_eq_nil_iff.mp hbytes.symm).1
    have hroom := hat.room
    rw [hpost, length_nil] at hroom
    omega

/-- The bytes of a read are bytes of the frame. -/
theorem Stage.read {got : List Byte} (h : Stage client st frame (got ++ bytes) later)
    (hidle : st ≠ .idle) (hroom : got.length ≤ want frame st) :
    exists (f : DataFrame) (post : List Byte), InboundAt client f.inbound st frame (got ++ post) ∧
      (forall st' frame', InboundAt client f.inbound st' frame' post ->
        Stage client st' frame' bytes later) ∧
      (post = [] -> exists later', later = f.payload ++ later' ∧
        forall frame', Stage client .idle frame' bytes later') := by
  cases h with
  | boundary hidle' hcut hbytes hlater => exact absurd hidle' hidle
  | cutShort hmissing hat hlater =>
    rename_i f missing
    rw [append_assoc] at hat
    refine ⟨f, bytes ++ missing, hat, ?_, ?_⟩
    · intro st' frame' hat'
      exact .cutShort hmissing hat' hlater
    · intro hnil
      exact absurd (append_eq_nil_iff.mp hnil).2 hmissing
  | inside hat hcut hbytes hlater =>
    rename_i f post fs cut
    have hlong := hat.room.2
    have hsplit : post = got ++ post.drop got.length ∧
        bytes = post.drop got.length ++ (encodeFrames client fs ++ cut) := by
      have hpost : (got ++ bytes).take got.length = post.take got.length := by
        rw [hbytes, take_append_of_le_length (by omega)]
      have hdrop : (got ++ bytes).drop got.length =
          post.drop got.length ++ (encodeFrames client fs ++ cut) := by
        rw [hbytes, drop_append_of_le_length (by omega)]
      rw [take_left] at hpost
      rw [drop_left] at hdrop
      refine ⟨?_, hdrop⟩
      calc post = post.take got.length ++ post.drop got.length :=
            (take_append_drop _ _).symm
        _ = got ++ post.drop got.length := by rw [← hpost]
    refine ⟨f, post.drop got.length, hsplit.1 ▸ hat, ?_, ?_⟩
    · intro st' frame' hat'
      exact .inside hat' hcut hsplit.2 hlater
    · intro hnil
      refine ⟨framePayloads fs, hlater, ?_⟩
      intro frame'
      refine .boundary rfl hcut ?_ rfl
      rw [hsplit.2, hnil, nil_append]

end Reading

/-!
## The read side
-/

/-- What a stream that reads the frames of the opposite mode owes. -/
structure Reads (client : Bool) (s : WsByteStream × Sink) (source : Source) (owed : List Byte) :
    Prop where
  sound : source.Sound
  mode : s.1.clientMode = !client
  quiet : s.1.pendingControlWrite = []
  owes : exists later, owed = s.1.readBuf.drop s.1.readPos ++ later ∧
    Stage client s.1.rawReadState s.1.rawFrame source.bytes later

def measure (_ : WsByteStream × Sink) (source : Source) (owed : List Byte) : Nat :=
  source.weight + owed.length

def Final (e : Ending) : Prop :=
  e = .eof

/-- A turn is the last one, or it has read something or begun a frame. -/
inductive TurnRule (client : Bool) (bound fuel : Nat) (owed : List Byte) : Turn -> Prop
  | again {s : WsByteStream} {sink : Sink} {source : Source} {idles : Nat}
      (hreads : Reads client (s, sink) source owed) (hserved : s.readBuf.length ≤ s.readPos)
      (hidle : s.rawReadState ≠ .idle) (hless : measure (s, sink) source owed ≤ bound)
      (hfuel : 2 * source.weight + 1 < fuel) :
      TurnRule client bound fuel owed (.again s sink source idles)
  | finish {outcome : Outcome (List Byte)} {s : WsByteStream} {sink : Sink} {source : Source}
      (hrule : PollRule (Reads client) measure Final bound owed (outcome, (s, sink), source)) :
      TurnRule client bound fuel owed (.finish outcome s sink source)

section Poll

variable {client : Bool} {masks : Nat -> Mask} {cap : Nat} {s : WsByteStream} {sink : Sink}
  {source : Source} {owed : List Byte}

theorem dispatchRawFrame_data {payload : List Byte} (hopcode : s.rawFrame.opcode = 2)
    (hpayload : payload ≠ []) (hcap : 0 < cap) :
    dispatchRawFrame masks s sink cap payload =
      (.ready (payload.take cap),
        if cap < payload.length then
          { s with rawReadState := .idle, readBuf := payload.drop cap, readPos := 0 }
        else { s with rawReadState := .idle },
        sink) := by
  rw [dispatchRawFrame]
  rw [hopcode, if_neg (by decide), if_pos (by decide), if_neg hpayload,
    if_neg (Nat.pos_iff_ne_zero.mp hcap)]

/-- A complete frame is served, as far as the buffer goes. -/
theorem dispatch_rule {payload later : List Byte} {bound : Nat} (hsound : source.Sound)
    (hmode : s.clientMode = !client) (hquiet : s.pendingControlWrite = [])
    (hserved : s.readBuf.length ≤ s.readPos) (hopcode : s.rawFrame.opcode = 2)
    (hpayload : payload ≠ []) (hcap : 0 < cap)
    (hstage : Stage client .idle s.rawFrame source.bytes later)
    (hbound : source.weight + (payload ++ later).length ≤ bound) :
    exists s', dispatchRawFrame masks s sink cap payload = (.ready (payload.take cap), s', sink) ∧
      PollRule (Reads client) measure Final bound (payload ++ later)
        (.ready (payload.take cap), (s', sink), source) := by
  have hpos := length_pos_iff.mpr hpayload
  have hgot : payload.take cap ≠ [] := by
    apply length_pos_iff.mp
    rw [length_take]
    omega
  have howed : payload ++ later = payload.take cap ++ (payload.drop cap ++ later) := by
    rw [← append_assoc, take_append_drop]
  have hless : source.weight + (payload.drop cap ++ later).length < bound := by
    rw [length_append] at hbound
    rw [length_append, length_drop]
    omega
  refine ⟨_, dispatchRawFrame_data hopcode hpayload hcap, ?_⟩
  refine .data hgot howed ?_ hless
  by_cases hlong : cap < payload.length
  · rw [if_pos hlong]
    exact ⟨hsound, hmode, hquiet, later, rfl, hstage⟩
  · rw [if_neg hlong]
    refine ⟨hsound, hmode, hquiet, later, ?_, hstage⟩
    rw [drop_eq_nil_of_le hserved, drop_eq_nil_of_le (Nat.not_lt.mp hlong)]

theorem turn_rule (h : Reads client (s, sink) source owed) (hserved : s.readBuf.length ≤ s.readPos)
    (hcap : 0 < cap) {idles : Nat} (hidles : s.rawReadState = .idle -> idles = 0) :
    TurnRule client (measure (s, sink) source owed)
      (2 * source.weight + if s.rawReadState = .idle then 2 else 1) owed
      (turn masks cap s sink source idles) := by
  obtain ⟨later, howed, hstage⟩ := h.owes
  rw [drop_eq_nil_of_le hserved, nil_append] at howed
  rw [turn]
  by_cases hidle : s.rawReadState = .idle
  · have hzero := hidles hidle
    rw [hidle] at hstage
    rw [if_pos hidle, if_pos hidle, if_neg (by rw [hzero]; decide)]
    refine .again ⟨h.sound, h.mode, h.quiet, later, ?_, hstage.begin⟩ hserved
      (by exact RawReadState.noConfusion) (Nat.le_refl _) (Nat.lt_succ_self _)
    rw [howed]
    rw [drop_eq_nil_of_le hserved, nil_append]
  · rw [if_neg hidle, if_neg hidle]
    have hwant : 0 < want s.rawFrame s.rawReadState := by
      cases hstage with
      | boundary hidle' hcut hbytes hlater => exact absurd hidle' hidle
      | inside hat hcut hbytes hlater => exact hat.room.1
      | cutShort hmissing hat hlater => exact hat.room.1
    cases hread : source.pollRead (want s.rawFrame s.rawReadState) with
    | mk o source' =>
      have hsound : source'.Sound := by
        have hsound := h.sound.pollRead (want s.rawFrame s.rawReadState)
        rw [hread] at hsound
        exact hsound
      have hkeep : owed = s.readBuf.drop s.readPos ++ later := by
        rw [drop_eq_nil_of_le hserved, nil_append]
        exact howed
      cases o with
      | failed e => exact absurd hread fun hread => h.sound.not_failed hread
      | pending =>
        obtain ⟨hbytes, hweight⟩ := Source.pollRead_pending hread
        apply TurnRule.finish
        apply PollRule.pending
        · refine ⟨hsound, h.mode, h.quiet, later, hkeep, ?_⟩
          rw [hbytes]
          exact hstage
        · rw [measure, measure]
          omega
      | ready got =>
        obtain ⟨hbytes, hroom⟩ := Source.pollRead_ready hread
        dsimp only
        rcases h.sound.read hwant hread with ⟨hnil, hscript, hsame⟩ | ⟨hgot, hweight⟩
        · have hend : source.bytes = [] := by
            rw [Source.bytes, hscript]
            rfl
          rw [hend] at hstage
          rw [if_pos hnil]
          exact .finish (.eof (howed.trans (hstage.end hidle)) rfl)
        · rw [if_neg hgot]
          rw [hbytes] at hstage
          obtain ⟨f, post, hat, hinside, hdone⟩ := hstage.read hidle hroom
          have hadvanced := hat.advance hroom
          have hmode : s.clientMode = !client := h.mode
          rw [← hmode] at hadvanced
          generalize advance s.clientMode s.rawFrame got s.rawReadState = parsed at hadvanced ⊢
          cases hadvanced with
          | wait hat' =>
            apply TurnRule.finish
            apply PollRule.pending
            · exact ⟨hsound, h.mode, h.quiet, later, hkeep, hinside _ _ hat'⟩
            · rw [measure, measure]
              omega
          | next hat' =>
            refine .again ⟨hsound, h.mode, h.quiet, later, hkeep, hinside _ _ hat'⟩ hserved
              hat'.not_idle ?_ (by omega)
            rw [measure, measure]
            omega
          | complete hopcode hpost =>
            rename_i frame'
            obtain ⟨later', hlater, hnext⟩ := hdone hpost
            rw [howed, hlater]
            obtain ⟨s', hdispatch, hrule⟩ :=
              @dispatch_rule client masks cap { s with rawFrame := frame' } sink source' f.payload
                later' (measure (s, sink) source (f.payload ++ later')) hsound h.mode h.quiet
                hserved hopcode f.nonempty hcap (hnext frame')
                (by rw [measure]; omega)
            dsimp only
            rw [show f.inbound.payload = f.payload from rfl, hdispatch]
            exact .finish hrule

theorem pollLoop_rule (hcap : 0 < cap) {fuel bound : Nat} (h : Reads client (s, sink) source owed)
    (hserved : s.readBuf.length ≤ s.readPos) {idles : Nat}
    (hidles : s.rawReadState = .idle -> idles = 0)
    (hbound : measure (s, sink) source owed ≤ bound)
    (hfuel : (2 * source.weight + if s.rawReadState = .idle then 2 else 1) ≤ fuel) :
    PollRule (Reads client) measure Final bound owed
      ((pollLoop masks cap fuel s sink source idles).1,
        ((pollLoop masks cap fuel s sink source idles).2.1,
          (pollLoop masks cap fuel s sink source idles).2.2.1),
        (pollLoop masks cap fuel s sink source idles).2.2.2) := by
  induction fuel generalizing s sink source idles with
  | zero =>
    split at hfuel
    · omega
    · omega
  | succ fuel ih =>
    have hrule := @turn_rule client masks cap s sink source owed h hserved hcap idles hidles
    rw [pollLoop]
    generalize turn masks cap s sink source idles = t at hrule
    cases hrule with
    | finish hrule => exact hrule.mono hbound
    | again hreads hserved' hidle hless hspent =>
      refine ih hreads hserved' (fun h => absurd h hidle) (Nat.le_trans hless hbound) ?_
      rw [if_neg hidle]
      omega

end Poll

/-- A stream that reads frames of the opposite mode delivers their payloads. -/
theorem serves (client : Bool) (masks : Nat -> Mask) :
    (wsReader masks).Serves (Reads client) measure Final fun _ _ cap => 0 < cap := by
  rintro ⟨s, sink⟩ source owed cap h hcap
  obtain ⟨later, howed, hstage⟩ := h.owes
  change PollRule _ _ _ _ _ ((pollRead masks s sink source cap).1,
    ((pollRead masks s sink source cap).2.1, (pollRead masks s sink source cap).2.2.1),
    (pollRead masks s sink source cap).2.2.2)
  rw [pollRead]
  by_cases hserve : s.readPos < s.readBuf.length
  · rw [if_pos hserve]
    have hgot : (s.readBuf.drop s.readPos).take cap ≠ [] := by
      apply length_pos_iff.mp
      rw [length_take, length_drop]
      omega
    have hsplit : owed = (s.readBuf.drop s.readPos).take cap ++
        ((serve s cap).readBuf.drop (serve s cap).readPos ++ later) := by
      rw [howed, ← append_assoc, serve]
      split
      · rw [drop_nil, append_nil, take_of_length_le]
        rw [length_drop]
        omega
      · rw [← drop_drop, take_append_drop]
    have hsame : (serve s cap).clientMode = s.clientMode ∧
        (serve s cap).pendingControlWrite = s.pendingControlWrite ∧
        (serve s cap).rawReadState = s.rawReadState ∧ (serve s cap).rawFrame = s.rawFrame := by
      rw [serve]
      split
      · exact ⟨rfl, rfl, rfl, rfl⟩
      · exact ⟨rfl, rfl, rfl, rfl⟩
    obtain ⟨hmode, hquiet, hstate, hframe⟩ := hsame
    refine .data hgot hsplit ⟨h.sound, hmode.trans h.mode, hquiet.trans h.quiet, later, rfl, ?_⟩ ?_
    · rw [hstate, hframe]
      exact hstage
    · have htotal := congrArg length hsplit
      have hpos := length_pos_iff.mpr hgot
      rw [length_append] at htotal
      rw [measure, measure]
      dsimp only
      omega
  · rw [if_neg hserve, if_neg (fun hne => hne h.quiet)]
    refine pollLoop_rule hcap h (Nat.not_lt.mp hserve) (fun _ => rfl) (Nat.le_refl _) ?_
    rw [loopFuel]
    split
    · exact Nat.le_refl _
    · omega

end WsByteStream

end Stream
end FrpRs
