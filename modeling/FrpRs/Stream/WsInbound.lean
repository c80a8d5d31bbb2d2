import FrpRs.Stream.WsFrames

/-!
# What a WebSocket byte stream keeps of the payloads it has read

Inbound data frames in every form that `poll_read` of `WsByteStream` takes: binary or text, final
or not, empty or not, and with any of the three length fields.  A caller whose buffer has no room
gets nothing, and the payload of a frame that is complete is put into `readBuf`.  The poll goes
on with the next frame, which may be complete as well.
-/

namespace FrpRs
namespace Stream

open List Bytes Poll

def inboundWire (client : Bool) (fs : List InboundFrame) : List Byte :=
  fs.flatMap (InboundFrame.encode client)

def inboundPayloads (fs : List InboundFrame) : List Byte :=
  fs.flatMap InboundFrame.payload

def consumedPayload (client : Bool) : List InboundFrame -> Nat -> List Byte
  | [], _ => []
  | f :: fs, n =>
    f.payload.take (n - f.headLen client) ++
      consumedPayload client fs (n - (f.encode client).length)

/-!
## Payloads that are being parsed
-/

namespace WsByteStream

def parsing (frame : RawFrame) : RawReadState -> List Byte
  | .readingPayload part => if frame.masked then xorMask frame.maskKey part else part
  | _ => []

def stash (s : WsByteStream) : List Byte :=
  s.readBuf.drop s.readPos

section Inbound

variable {client : Bool} {f : InboundFrame} {frame : RawFrame} {st : RawReadState}
  {got post : List Byte}

/-- What is kept of a payload is what the frame has given of it. -/
theorem InboundAt.parsing (h : InboundAt client f st frame post) :
    parsing frame st = f.payload.take (f.payload.length - post.length) := by
  have hbody : f.payload.length ≤ (f.body client).length := by
    rw [InboundFrame.body, length_append, f.length_wirePayload]
    exact Nat.le_add_left _ _
  have hnone : f.payload.length ≤ post.length ->
      [] = f.payload.take (f.payload.length - post.length) := by
    intro hle
    rw [Nat.sub_eq_zero_of_le hle, take_zero]
  cases h with
  | header hshort hbytes =>
    have htotal := congrArg length hbytes
    rw [length_append, InboundFrame.encode, length_append, length_append,
      length_cons, length_singleton] at htotal
    exact hnone (by omega)
  | extendedLen2 hshort hknown hlen hbytes =>
    have htotal := congrArg length hbytes
    rw [length_append, length_append, beBytes_length] at htotal
    exact hnone (by omega)
  | extendedLen8 hshort hknown hbytes =>
    have htotal := congrArg length hbytes
    rw [length_append, length_append, beBytes_length] at htotal
    exact hnone (by omega)
  | maskKey hshort hclient hknown hlen hbytes =>
    have htotal := congrArg length hbytes
    rw [length_append, length_append, f.length_wirePayload] at htotal
    change _ = 4 + _ at htotal
    exact hnone (by omega)
  | payload hshort hknown hkey hlen hbytes =>
    rename_i part
    have htotal := congrArg length hbytes
    rw [length_append, f.length_wirePayload] at htotal
    have hpart : part = (f.wirePayload client).take (f.payload.length - post.length) := by
      rw [<- hbytes, take_left' (by omega)]
    rw [WsByteStream.parsing, hknown.2, hpart]
    cases client with
    | true =>
      rw [if_pos rfl, hkey rfl, xorMask_take, InboundFrame.wirePayload, if_pos rfl,
        xorMask_xorMask]
    | false => rfl

end Inbound

/-!
## Where a stream is in the frames
-/

/-- The bytes `rest` are still to come, and the frames that are complete had the payload
`seen`. -/
inductive Place (client : Bool) (fs : List InboundFrame) (st : RawReadState) (frame : RawFrame)
    (rest seen : List Byte) : Prop
  | boundary {done later : List InboundFrame} (hidle : st = .idle) (hfs : fs = done ++ later)
      (hrest : rest = inboundWire client later) (hseen : seen = inboundPayloads done)
  | inside {done later : List InboundFrame} {f : InboundFrame} {pre post : List Byte}
      (hat : InboundAt client f st frame post) (hencode : pre ++ post = f.encode client)
      (hfs : fs = done ++ f :: later) (hrest : rest = post ++ inboundWire client later)
      (hseen : seen = inboundPayloads done)
  | ended (hst : st = .readingHeader []) (hrest : rest = []) (hseen : seen = inboundPayloads fs)

theorem consumedPayload_zero (client : Bool) (fs : List InboundFrame) :
    consumedPayload client fs 0 = [] := by
  induction fs with
  | nil => rfl
  | cons f fs ih => rw [consumedPayload, Nat.zero_sub, Nat.zero_sub, take_zero, ih]; rfl

theorem length_wire_cons (client : Bool) (f : InboundFrame) (fs : List InboundFrame) :
    (inboundWire client (f :: fs)).length =
      (f.encode client).length + (inboundWire client fs).length := by
  rw [inboundWire, flatMap_cons, length_append]
  rfl

theorem length_wire_append (client : Bool) (done later : List InboundFrame) :
    (inboundWire client (done ++ later)).length =
      (inboundWire client done).length + (inboundWire client later).length := by
  rw [inboundWire, flatMap_append, length_append]
  rfl

theorem consumedPayload_append (client : Bool) (done later : List InboundFrame) (n : Nat) :
    consumedPayload client (done ++ later) ((inboundWire client done).length + n) =
      inboundPayloads done ++ consumedPayload client later n := by
  induction done with
  | nil =>
    rw [inboundWire, flatMap_nil, length_nil, Nat.zero_add]
    rfl
  | cons f done ih =>
    have hlength := f.length_encode client
    rw [cons_append, consumedPayload, length_wire_cons, take_of_length_le (by omega),
      show (f.encode client).length + (inboundWire client done).length + n -
        (f.encode client).length = (inboundWire client done).length + n by omega, ih,
      <- append_assoc]
    rfl

section Place

variable {client : Bool} {fs : List InboundFrame} {st : RawReadState} {frame : RawFrame}
  {rest seen : List Byte}

theorem Place.consumed (h : Place client fs st frame rest seen) :
    seen ++ parsing frame st =
      consumedPayload client fs ((inboundWire client fs).length - rest.length) := by
  cases h with
  | boundary hidle hfs hrest hseen =>
    rename_i done later
    rw [hidle, hseen, hfs, hrest, length_wire_append, Nat.add_sub_cancel,
      <- Nat.add_zero (inboundWire client done).length, consumedPayload_append,
      consumedPayload_zero]
    rfl
  | ended hst hrest hseen =>
    have hall := consumedPayload_append client fs [] 0
    rw [append_nil, Nat.add_zero, consumedPayload_zero, append_nil] at hall
    rw [hst, hseen, hrest, length_nil, Nat.sub_zero, hall]
    exact append_nil _
  | inside hat hencode hfs hrest hseen =>
    rename_i done later f pre post
    have hlength := congrArg length hencode
    rw [length_append] at hlength
    have hhead := f.length_encode client
    have hcount : (inboundWire client fs).length - rest.length =
        (inboundWire client done).length + pre.length := by
      rw [hfs, hrest, length_wire_append, length_wire_cons, length_append]
      omega
    rw [hseen, hcount, hfs, consumedPayload_append, consumedPayload, hat.parsing,
      show pre.length - (f.encode client).length = 0 by omega, consumedPayload_zero,
      append_nil,
      show pre.length - f.headLen client = f.payload.length - post.length by omega]

theorem Place.begin (h : Place client fs .idle frame rest seen) :
    Place client fs (.readingHeader []) frame rest seen := by
  cases h with
  | inside hat hencode hfs hrest hseen => cases hat
  | ended hst hrest hseen => cases hst
  | boundary hidle hfs hrest hseen =>
    rename_i done later
    cases later with
    | nil =>
      rw [append_nil] at hfs
      refine .ended rfl hrest ?_
      rw [hfs]
      exact hseen
    | cons f later =>
      refine @Place.inside _ _ _ _ _ _ done later f [] _ (.header (by decide) rfl) rfl hfs ?_
        hseen
      rw [hrest, inboundWire, flatMap_cons]
      rfl

/-- What the next bytes lead to. -/
inductive PlaceRead (client : Bool) (fs : List InboundFrame) (rest seen : List Byte) :
    Parsed -> Prop
  | wait {st : RawReadState} {frame : RawFrame} (hplace : Place client fs st frame rest seen) :
      PlaceRead client fs rest seen (.wait st frame)
  | next {st : RawReadState} {frame : RawFrame} (hplace : Place client fs st frame rest seen) :
      PlaceRead client fs rest seen (.next st frame)
  | complete {payload : List Byte} {frame : RawFrame}
      (hdata : frame.opcode = 0x01 ∨ frame.opcode = 0x02)
      (hplace : Place client fs .idle frame rest (seen ++ payload)) :
      PlaceRead client fs rest seen (.complete payload frame)

theorem opcode_data (f : InboundFrame) : f.opcode = 0x01 ∨ f.opcode = 0x02 := by
  rw [InboundFrame.opcode]
  split
  · exact Or.inl rfl
  · exact Or.inr rfl

theorem Place.read {got : List Byte} (h : Place client fs st frame (got ++ rest) seen)
    (hidle : st ≠ .idle) (hgot : got ≠ []) (hroom : got.length ≤ want frame st) :
    PlaceRead client fs rest seen (advance (!client) frame got st) := by
  cases h with
  | boundary hidle' hfs hrest hseen => exact absurd hidle' hidle
  | ended hst hrest hseen => exact absurd (append_eq_nil_iff.mp hrest).1 hgot
  | inside hat hencode hfs hrest hseen =>
    rename_i done later f pre post
    have hlong := hat.room.2
    have hpost : post = got ++ post.drop got.length := by
      have htake : (got ++ rest).take got.length = post.take got.length := by
        rw [hrest, take_append_of_le_length (by omega)]
      rw [take_left] at htake
      rw [htake, length_take, Nat.min_eq_left (by omega), take_append_drop]
    have hrest' : rest = post.drop got.length ++ inboundWire client later := by
      have hdrop : (got ++ rest).drop got.length =
          post.drop got.length ++ inboundWire client later := by
        rw [hrest, drop_append_of_le_length (by omega)]
      rw [drop_left] at hdrop
      exact hdrop
    rw [hpost] at hat hencode
    rw [<- append_assoc] at hencode
    have hadvanced := hat.advance hroom
    generalize WsByteStream.advance (!client) frame got st = parsed at hadvanced ⊢
    cases hadvanced with
    | wait hat' => exact .wait (.inside hat' hencode hfs hrest' hseen)
    | next hat' => exact .next (.inside hat' hencode hfs hrest' hseen)
    | complete hopcode hnil =>
      have hfs' : fs = (done ++ [f]) ++ later := by
        rw [hfs, append_assoc]
        rfl
      refine .complete (hopcode ▸ opcode_data f) (.boundary rfl hfs' ?_ ?_)
      · rw [hrest', hnil]
        rfl
      · rw [hseen, inboundPayloads, inboundPayloads, flatMap_append,
          flatMap_singleton]

end Place

/-!
## Polls
-/

/-- The payloads, empty ones apart, of the frames that one poll completes when nothing stops
it but the inner stream. -/
def burst (clientMode : Bool) :
    Nat -> RawReadState -> RawFrame -> Source -> Nat -> List (List Byte)
  | 0, _, _, _, _ => []
  | fuel + 1, st, frame, source, idles =>
    if st = .idle then
      if maxNoProgressFramesPerPoll < idles + 1 then []
      else burst clientMode fuel (.readingHeader []) frame source (idles + 1)
    else
      match source.pollRead (want frame st) with
      | (.pending, _) => []
      | (.failed _, _) => []
      | (.ready got, source) =>
        if got = [] then []
        else
          match advance clientMode frame got st with
          | .wait _ _ => []
          | .bad _ _ => []
          | .next st frame => burst clientMode fuel st frame source idles
          | .complete payload frame =>
            if payload = [] then burst clientMode fuel .idle frame source idles
            else payload :: burst clientMode fuel .idle frame source idles

/-- Where a stream is in the frames that its source hands out, `missing` bytes apart. -/
structure Parses (client : Bool) (fs : List InboundFrame) (missing : List Byte)
    (s : WsByteStream) (source : Source) (seen : List Byte) : Prop where
  mode : s.clientMode = !client
  quiet : s.pendingControlWrite = []
  place : Place client fs s.rawReadState s.rawFrame (source.bytes ++ missing) seen

/-- What a turn does with the frames, and with the payloads that are complete. -/
inductive InboundTurn (client : Bool) (fs : List InboundFrame) (missing : List Byte) (cap : Nat)
    (s : WsByteStream) (sink : Sink) (seen : List Byte) (fuel : Nat) (ends : List (List Byte)) :
    Turn -> Prop
  | stop {o : Outcome (List Byte)} {s' : WsByteStream} {source' : Source} (hread : o.read = [])
      (hstash : stash s' = stash s) (hparses : Parses client fs missing s' source' seen)
      (hends : ends = []) :
      InboundTurn client fs missing cap s sink seen fuel ends (.finish o s' sink source')
  | again {s' : WsByteStream} {source' : Source} {idles : Nat} (hstash : stash s' = stash s)
      (hparses : Parses client fs missing s' source' seen)
      (hends : ends = burst s'.clientMode fuel s'.rawReadState s'.rawFrame source' idles) :
      InboundTurn client fs missing cap s sink seen fuel ends (.again s' sink source' idles)
  | stashed {s' : WsByteStream} {source' : Source} {idles : Nat} {payload : List Byte}
      (hcap : cap = 0) (hpayload : payload ≠ []) (hstash : stash s' = payload)
      (hparses : Parses client fs missing s' source' (seen ++ payload))
      (hends : ends =
        payload :: burst s'.clientMode fuel s'.rawReadState s'.rawFrame source' idles) :
      InboundTurn client fs missing cap s sink seen fuel ends (.again s' sink source' idles)
  | served {s' : WsByteStream} {source' : Source} {got payload : List Byte} (hcap : 0 < cap)
      (hstash : stash s = [] -> got ++ stash s' = payload)
      (hparses : Parses client fs missing s' source' (seen ++ payload)) :
      InboundTurn client fs missing cap s sink seen fuel ends (.finish (.ready got) s' sink source')

section Inbound

variable {client : Bool} {fs : List InboundFrame} {missing seen : List Byte} {s : WsByteStream}
  {sink : Sink} {source : Source} {masks : Nat -> Mask} {cap idles : Nat}

theorem dispatchRawFrame_inbound (payload : List Byte)
    (hdata : s.rawFrame.opcode = 0x01 ∨ s.rawFrame.opcode = 0x02) :
    dispatchRawFrame masks s sink cap payload =
      if payload = [] then (.pending, { s with rawReadState := .idle }, sink)
      else if cap = 0 then
        (.pending, { s with rawReadState := .idle, readBuf := payload, readPos := 0 }, sink)
      else
        (.ready (payload.take cap),
          if cap < payload.length then
            { s with rawReadState := .idle, readBuf := payload.drop cap, readPos := 0 }
          else { s with rawReadState := .idle },
          sink) := by
  have hfirst : ¬ s.rawFrame.opcode = 0x00 := by
    rcases hdata with hdata | hdata
    · rw [hdata]
      decide
    · rw [hdata]
      decide
  rw [dispatchRawFrame]
  rw [if_neg hfirst, if_pos hdata]

theorem turn_inbound (h : Parses client fs missing s source seen) (fuel : Nat) :
    InboundTurn client fs missing cap s sink seen fuel
      (burst s.clientMode (fuel + 1) s.rawReadState s.rawFrame source idles)
      (turn masks cap s sink source idles) := by
  rw [turn, burst]
  by_cases hidle : s.rawReadState = .idle
  · rw [if_pos hidle, if_pos hidle]
    by_cases hmany : maxNoProgressFramesPerPoll < idles + 1
    · rw [if_pos hmany, if_pos hmany]
      exact .stop rfl rfl h rfl
    · rw [if_neg hmany, if_neg hmany]
      have hplace := h.place
      rw [hidle] at hplace
      exact .again rfl ⟨h.mode, h.quiet, hplace.begin⟩ rfl
  · rw [if_neg hidle, if_neg hidle]
    cases hread : source.pollRead (want s.rawFrame s.rawReadState) with
    | mk o source' =>
      cases o with
      | pending =>
        have hbytes := (Source.pollRead_pending hread).1
        refine .stop rfl rfl ⟨h.mode, h.quiet, ?_⟩ rfl
        rw [hbytes]
        exact h.place
      | failed e =>
        have hbytes := Source.pollRead_failed hread
        refine .stop rfl rfl ⟨h.mode, h.quiet, ?_⟩ rfl
        rw [hbytes]
        exact h.place
      | ready got =>
        rcases Source.pollRead_ready hread with ⟨hbytes, hroom⟩
        have hplace := h.place
        rw [hbytes, append_assoc] at hplace
        dsimp only
        by_cases hgot : got = []
        · rw [if_pos hgot, if_pos hgot]
          rw [hgot] at hplace
          exact .stop rfl rfl ⟨h.mode, h.quiet, hplace⟩ rfl
        · rw [if_neg hgot, if_neg hgot]
          have hmode : s.clientMode = !client := h.mode
          have hadvanced := hplace.read hidle hgot hroom
          rw [<- hmode] at hadvanced
          generalize advance s.clientMode s.rawFrame got s.rawReadState = parsed at hadvanced ⊢
          cases hadvanced with
          | wait hplace' => exact .stop rfl rfl ⟨h.mode, h.quiet, hplace'⟩ rfl
          | next hplace' =>
            exact .again rfl ⟨h.mode, h.quiet, hplace'⟩ rfl
          | complete hdata hplace' =>
            rename_i payload frame'
            dsimp only
            rw [@dispatchRawFrame_inbound { s with rawFrame := frame' } sink masks cap payload
              hdata]
            by_cases hnil : payload = []
            · rw [if_pos hnil, if_pos hnil]
              rw [hnil, append_nil] at hplace'
              exact .again rfl ⟨h.mode, h.quiet, hplace'⟩ rfl
            · rw [if_neg hnil, if_neg hnil]
              by_cases hcap : cap = 0
              · rw [if_pos hcap]
                exact .stashed hcap hnil rfl ⟨h.mode, h.quiet, hplace'⟩ rfl
              · rw [if_neg hcap]
                by_cases hlong : cap < payload.length
                · rw [if_pos hlong]
                  exact .served (Nat.pos_of_ne_zero hcap)
                    (fun _ => take_append_drop cap payload) ⟨h.mode, h.quiet, hplace'⟩
                · rw [if_neg hlong, take_of_length_le (Nat.not_lt.mp hlong)]
                  refine .served (Nat.pos_of_ne_zero hcap) (fun hempty => ?_)
                    ⟨h.mode, h.quiet, hplace'⟩
                  change payload ++ stash s = payload
                  rw [hempty, append_nil]

/-- A poll without room leaves the last of the payloads that it completes. -/
theorem pollLoop_noRoom {fuel : Nat} (h : Parses client fs missing s source seen) :
    (pollLoop masks 0 fuel s sink source idles).1.read = [] ∧
      Parses client fs missing (pollLoop masks 0 fuel s sink source idles).2.1
        (pollLoop masks 0 fuel s sink source idles).2.2.2
        (seen ++ (burst s.clientMode fuel s.rawReadState s.rawFrame source idles).flatten) ∧
      stash (pollLoop masks 0 fuel s sink source idles).2.1 =
        (burst s.clientMode fuel s.rawReadState s.rawFrame source idles).getLastD (stash s) := by
  induction fuel generalizing s source idles seen with
  | zero =>
    refine ⟨rfl, ?_, rfl⟩
    rw [burst, flatten_nil, append_nil]
    exact h
  | succ fuel ih =>
    have hturn := @turn_inbound client fs missing seen s sink source masks 0 idles h fuel
    rw [pollLoop]
    generalize turn masks 0 s sink source idles = t at hturn ⊢
    cases hturn with
    | stop hread hstash hparses hends =>
      rw [hends, flatten_nil, append_nil]
      exact ⟨hread, hparses, hstash⟩
    | again hstash hparses hends =>
      rw [hends, <- hstash]
      exact ih hparses
    | stashed hcap hpayload hstash hparses hends =>
      rename_i s' source' idles' payload
      rcases @ih _ s' source' idles' hparses with ⟨hread, hparses', hstash'⟩
      rw [hends, flatten_cons, <- append_assoc, getLastD_cons, <- hstash]
      rw [<- hstash] at hparses'
      exact ⟨hread, hparses', hstash'⟩
    | served hcap hstash hparses => exact absurd hcap (Nat.lt_irrefl 0)

theorem pollLoop_room {fuel : Nat} (hcap : 0 < cap) (h : Parses client fs missing s source seen)
    (hserved : stash s = []) :
    Parses client fs missing (pollLoop masks cap fuel s sink source idles).2.1
      (pollLoop masks cap fuel s sink source idles).2.2.2
      (seen ++ ((pollLoop masks cap fuel s sink source idles).1.read ++
        stash (pollLoop masks cap fuel s sink source idles).2.1)) := by
  induction fuel generalizing s source idles seen with
  | zero =>
    rw [pollLoop]
    rw [hserved, Outcome.read, append_nil, append_nil]
    exact h
  | succ fuel ih =>
    have hturn := @turn_inbound client fs missing seen s sink source masks cap idles h fuel
    rw [pollLoop]
    generalize turn masks cap s sink source idles = t at hturn ⊢
    cases hturn with
    | stop hread hstash hparses hends =>
      rw [hread, hstash, hserved, append_nil, append_nil]
      exact hparses
    | again hstash hparses hends => exact ih hparses (hstash.trans hserved)
    | stashed hzero hpayload hstash hparses hends =>
      rw [hzero] at hcap
      exact absurd hcap (Nat.lt_irrefl 0)
    | served hroom hstash hparses =>
      rw [Outcome.read, hstash hserved]
      exact hparses

def SingleBurst (s : WsByteStream) (source : Source) (cap : Nat) : Prop :=
  cap = 0 -> s.readBuf.length ≤ s.readPos ->
    (burst s.clientMode (loopFuel source) s.rawReadState s.rawFrame source 0).length ≤ 1

instance (s : WsByteStream) (source : Source) (cap : Nat) : Decidable (SingleBurst s source cap) :=
  inferInstanceAs (Decidable (cap = 0 -> s.readBuf.length ≤ s.readPos ->
    (burst s.clientMode (loopFuel source) s.rawReadState s.rawFrame source 0).length ≤ 1))

theorem burst_ne_nil (clientMode : Bool) (fuel : Nat) (st : RawReadState) (frame : RawFrame)
    (source : Source) (idles : Nat) {payload : List Byte}
    (hmem : payload ∈ burst clientMode fuel st frame source idles) : payload ≠ [] := by
  fun_induction burst clientMode fuel st frame source idles with
  | case1 => cases hmem
  | case2 => cases hmem
  | case3 fuel frame source idles hfew ih => exact ih hmem
  | case4 => cases hmem
  | case5 => cases hmem
  | case6 => cases hmem
  | case7 => cases hmem
  | case8 => cases hmem
  | case9 fuel st frame source idles hidle got source' hread hgot st' frame' hadvance ih =>
    exact ih hmem
  | case10 fuel st frame source idles hidle got source' hread hgot frame' hadvance ih =>
    exact ih hmem
  | case11 fuel st frame source idles hidle got source' hread hgot payload' frame' hadvance hnil
      ih =>
      rcases mem_cons.mp hmem with heq | hmem
      · rw [heq]
        exact hnil
      · exact ih hmem

theorem length_getLastD_le (ends : List (List Byte)) (kept : List Byte) :
    (ends.getLastD kept).length ≤ kept.length + ends.flatten.length := by
  induction ends generalizing kept with
  | nil => exact Nat.le_add_right _ _
  | cons payload ends ih =>
    have hrest := ih payload
    rw [getLastD_cons, flatten_cons, length_append]
    omega

theorem getLastD_eq_flatten_iff {ends : List (List Byte)}
    (hends : forall payload, payload ∈ ends -> payload ≠ []) :
    ends.getLastD [] = ends.flatten ↔ ends.length ≤ 1 := by
  cases ends with
  | nil => exact ⟨fun _ => Nat.zero_le 1, fun _ => rfl⟩
  | cons payload ends =>
    cases ends with
    | nil =>
      refine ⟨fun _ => Nat.le_refl 1, fun _ => ?_⟩
      rw [flatten_cons, flatten_nil, append_nil]
      rfl
    | cons payload' ends =>
      constructor
      · intro heq
        have hpos := length_pos_iff.mpr (hends payload mem_cons_self)
        have hle := length_getLastD_le ends payload'
        have hlength := congrArg length heq
        rw [getLastD_cons, getLastD_cons, flatten_cons, flatten_cons,
          length_append, length_append] at hlength
        omega
      · intro hone
        exact absurd (Nat.le_of_succ_le_succ hone) (Nat.not_succ_le_zero _)

theorem serve_stash (hkept : s.readPos < s.readBuf.length) :
    (stash s).take cap ++ stash (serve s cap) = stash s := by
  rw [stash, stash, serve]
  split
  · rename_i hall
    rw [drop_nil, append_nil, take_of_length_le]
    rw [length_drop]
    omega
  · rw [<- drop_drop, take_append_drop]

theorem Parses.serve (h : Parses client fs missing s source seen) (cap : Nat) :
    Parses client fs missing (serve s cap) source seen := by
  rw [WsByteStream.serve]
  split
  · exact ⟨h.mode, h.quiet, h.place⟩
  · exact ⟨h.mode, h.quiet, h.place⟩

/-- A poll loses nothing exactly if it completes no second payload where there is no room. -/
theorem pollRead_inbound (h : Parses client fs missing s source seen) :
    exists seen', Parses client fs missing (pollRead masks s sink source cap).2.1
        (pollRead masks s sink source cap).2.2.2 seen' ∧
      forall all, all ++ stash s = seen ->
        (all ++ (pollRead masks s sink source cap).1.read ++
          stash (pollRead masks s sink source cap).2.1 = seen' ↔ SingleBurst s source cap) := by
  rw [pollRead]
  by_cases hkept : s.readPos < s.readBuf.length
  · rw [if_pos hkept]
    refine ⟨seen, h.serve cap, ?_⟩
    intro all hall
    have hsplit := @serve_stash s cap hkept
    have hsingle : SingleBurst s source cap := fun _ hle => absurd hkept (Nat.not_lt.mpr hle)
    refine iff_of_true ?_ hsingle
    rw [append_assoc, <- hall]
    exact congrArg (all ++ ·) hsplit
  · rw [if_neg hkept, if_neg (fun hne => hne h.quiet)]
    have hempty : stash s = [] := drop_eq_nil_of_le (Nat.not_lt.mp hkept)
    by_cases hcap : cap = 0
    · rw [hcap]
      rcases @pollLoop_noRoom client fs missing seen s sink source masks 0 (loopFuel source) h with
        ⟨hread, hparses, hstash⟩
      refine ⟨_, hparses, ?_⟩
      intro all hall
      rw [hread, hstash, append_nil, <- hall, hempty, append_nil,
        append_cancel_left_eq,
        getLastD_eq_flatten_iff fun payload hmem => burst_ne_nil _ _ _ _ _ _ hmem]
      exact ⟨fun hone _ _ => hone, fun hsingle => hsingle rfl (Nat.not_lt.mp hkept)⟩
    · have hparses := @pollLoop_room client fs missing seen s sink source masks cap 0
        (loopFuel source) (Nat.pos_of_ne_zero hcap) h hempty
      refine ⟨_, hparses, ?_⟩
      intro all hall
      refine iff_of_true ?_ fun hzero => absurd hzero hcap
      rw [<- hall, hempty, append_nil, append_assoc]

end Inbound

/-!
## Runs
-/

/-- What was delivered, with what is kept of complete frames and of the frame that is being
parsed, is the payload among the bytes that were read. -/
def NothingLost (client : Bool) (fs : List InboundFrame) (total : Nat)
    (r : Reading (WsByteStream × Sink)) : Prop :=
  r.all ++ stash r.state.1 ++ parsing r.state.1.rawFrame r.state.1.rawReadState =
    consumedPayload client fs (total - r.source.bytes.length)

instance (client : Bool) (fs : List InboundFrame) (total : Nat)
    (r : Reading (WsByteStream × Sink)) : Decidable (NothingLost client fs total r) :=
  inferInstanceAs (Decidable (_ = _))

/-- The stream is somewhere in the frames. -/
structure Receiving (client : Bool) (fs : List InboundFrame) (total : Nat)
    (r : Reading (WsByteStream × Sink)) : Prop where
  ordered : r.Ordered
  parses : exists missing seen, total + missing.length = (inboundWire client fs).length ∧
    Parses client fs missing r.state.1 r.source seen

section Runs

variable {client : Bool} {fs : List InboundFrame} {total : Nat} {masks : Nat -> Mask}
  {r : Reading (WsByteStream × Sink)}

theorem nothingLost_iff {missing seen : List Byte}
    (htotal : total + missing.length = (inboundWire client fs).length)
    (h : Parses client fs missing r.state.1 r.source seen) :
    NothingLost client fs total r ↔ r.all ++ stash r.state.1 = seen := by
  have hconsumed := h.place.consumed
  have hcount : (inboundWire client fs).length - (r.source.bytes ++ missing).length =
      total - r.source.bytes.length := by
    rw [length_append]
    omega
  rw [hcount] at hconsumed
  rw [NothingLost, <- hconsumed, append_cancel_right_eq]

theorem step_receiving (h : Receiving client fs total r) (cap : Nat) :
    Receiving client fs total ((wsReader masks).step r cap) ∧
      (NothingLost client fs total r ->
        (NothingLost client fs total ((wsReader masks).step r cap) ↔
          SingleBurst r.state.1 r.source cap)) := by
  rcases h.parses with ⟨missing, seen, htotal, hparses⟩
  rcases @pollRead_inbound client fs missing seen r.state.1 r.state.2 r.source masks cap hparses
    with ⟨seen', hparses', hiff⟩
  have hpoll : (wsReader masks).pollRead r.state r.source cap =
      ((pollRead masks r.state.1 r.state.2 r.source cap).1,
        ((pollRead masks r.state.1 r.state.2 r.source cap).2.1,
          (pollRead masks r.state.1 r.state.2 r.source cap).2.2.1),
        (pollRead masks r.state.1 r.state.2 r.source cap).2.2.2) := rfl
  rcases Reader.step_fields hpoll h.ordered with ⟨hstate, hsource, hall, hordered⟩
  have hparses'' : Parses client fs missing ((wsReader masks).step r cap).state.1
      ((wsReader masks).step r cap).source seen' := by
    rw [hstate, hsource]
    exact hparses'
  refine ⟨⟨hordered, missing, seen', htotal, hparses''⟩, ?_⟩
  intro hgood
  rw [nothingLost_iff htotal hparses'', hall, hstate]
  exact hiff r.all ((nothingLost_iff htotal hparses).mp hgood)

/-- No payload byte is lost in any state of a run exactly if no poll without room completes a
second payload. -/
theorem nothingLost_iff_singleBurst (client tcp : Bool) (masks : Nat -> Mask) (replies : Sink)
    (fs : List InboundFrame) (reads : List ReadEvent) (caps : List Nat)
    (hreads : Source.bytes ⟨reads⟩ <+: inboundWire client fs) :
    (forall polls, polls <+: caps ->
      NothingLost client fs (Source.bytes ⟨reads⟩).length
        (Run.run (wsReader masks).step (Reading.start (fromRaw tcp (!client), replies) reads)
          polls)) ↔
      Run.Along (wsReader masks).step (fun r cap => SingleBurst r.state.1 r.source cap)
        (Reading.start (fromRaw tcp (!client), replies) reads) caps := by
  rcases hreads with ⟨missing, hwire⟩
  have htotal : (Source.bytes ⟨reads⟩).length + missing.length =
      (inboundWire client fs).length := by
    rw [<- hwire, length_append]
  have hparses : Parses client fs missing (fromRaw tcp (!client)) ⟨reads⟩ [] :=
    ⟨rfl, rfl, @Place.boundary _ _ _ _ _ _ [] fs rfl rfl hwire rfl⟩
  have hreceiving : Receiving client fs (Source.bytes ⟨reads⟩).length
      (Reading.start (fromRaw tcp (!client), replies) reads) :=
    ⟨fun _ => rfl, missing, [], htotal, hparses⟩
  have hstart : NothingLost client fs (Source.bytes ⟨reads⟩).length
      (Reading.start (fromRaw tcp (!client), replies) reads) :=
    (nothingLost_iff htotal hparses).mpr rfl
  apply @Run.forall_prefix_iff_along _ _ _ _
    (Receiving client fs (Source.bytes ⟨reads⟩).length) _ _ _ _ _ hreceiving hstart
  · intro r cap h
    exact (step_receiving h cap).1
  · intro r cap h
    exact (step_receiving h cap).2

def twoFrames : List InboundFrame :=
  [⟨true, false, ⟨0, 0, 0, 0⟩, .one, [7], by decide, by decide⟩,
    ⟨true, false, ⟨0, 0, 0, 0⟩, .one, [8], by decide, by decide⟩]

/-- A frame that is complete in a poll without room is delivered by the next poll. -/
theorem nothingLost_iff_singleBurst_apart :
    Source.bytes ⟨[.chunk [0x82, 1, 7], .pending, .chunk [0x82, 1, 8]]⟩ <+:
        inboundWire false twoFrames ∧
      forall polls, polls <+: [0, 0, 1, 0, 1] ->
        NothingLost false twoFrames 6
          (Run.run (wsReader fun _ => ⟨0, 0, 0, 0⟩).step
            (Reading.start (fromRaw true true, ⟨[], []⟩)
              [.chunk [0x82, 1, 7], .pending, .chunk [0x82, 1, 8]]) polls) :=
  ⟨by decide, (nothingLost_iff_singleBurst false true (fun _ => ⟨0, 0, 0, 0⟩) ⟨[], []⟩ twoFrames
    [.chunk [0x82, 1, 7], .pending, .chunk [0x82, 1, 8]] [0, 0, 1, 0, 1] (by decide)).mpr
      (by decide)⟩

/-- The second frame takes the place of the first. -/
theorem first_payload_lost :
    Source.bytes ⟨[.chunk [0x82, 1, 7, 0x82, 1, 8]]⟩ <+: inboundWire false twoFrames ∧
      ¬ NothingLost false twoFrames 6
        (Run.run (wsReader fun _ => ⟨0, 0, 0, 0⟩).step
          (Reading.start (fromRaw true true, ⟨[], []⟩) [.chunk [0x82, 1, 7, 0x82, 1, 8]]) [0]) := by
  decide

end Runs

end WsByteStream

end Stream
end FrpRs
