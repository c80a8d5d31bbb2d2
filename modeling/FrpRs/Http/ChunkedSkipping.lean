import FrpRs.Data.Feeding
import FrpRs.Http.Injector

/-!
# Skipping a chunked body in pieces

`ChunkedSkip` of `frp-server/src/control/bridge/injector.rs`.  What a feed answers depends on the
bytes that were fed so far and not on how they were cut, and a well-formed body is skipped up to
its last byte.
-/

namespace FrpRs
namespace Http
namespace Injector
namespace ChunkedSkip

open List Bytes Lines Textproto Feeding

/-!
## Turns
-/

def extend (s : ChunkedSkip) (bytes : List Byte) : ChunkedSkip :=
  { s with pending := s.pending ++ bytes }

/-- How one turn of the loop ends. -/
inductive Turn where
  | again (s : ChunkedSkip)
  | stop (result : Except String Bool) (s : ChunkedSkip)

def Turn.andThen (t : Turn) (next : ChunkedSkip -> Except String Bool × ChunkedSkip) :
    Except String Bool × ChunkedSkip :=
  match t with
  | .again s => next s
  | .stop result s => (result, s)

def sizeTurn (s : ChunkedSkip) : Turn :=
  match cut lf s.pending with
  | none =>
    if s.pending.length > 4096 + 2 then .stop (.error "chunked size line exceeds 4096 bytes") s
    else .stop (.ok false) s
  | some (line, rest) =>
    match parseSizeLine line with
    | .error e => .stop (.error e) s
    | .ok 0 => .again { s with pending := rest, state := .trailers }
    | .ok (n + 1) => .again { s with pending := rest, left := n + 1, state := .data }

def dataTurn (s : ChunkedSkip) : Turn :=
  if s.pending = [] then .stop (.ok false) s
  else
    let take := min s.pending.length s.left
    .again { s with
      pending := s.pending.drop take
      left := s.left - take
      state := if s.left - take = 0 then .dataEnd else .data }

def dataEndTurn (s : ChunkedSkip) : Turn :=
  if s.pending.length < 2 then .stop (.ok false) s
  else if s.pending.take 2 ≠ crlf then .stop (.error "malformed chunked encoding") s
  else .again { s with pending := s.pending.drop 2, state := .size }

def trailersTurn (s : ChunkedSkip) : Turn :=
  match scanTrailers s.pending (s.pending.length + 1) s.trailerScanned with
  | .error e => .stop (.error e) s
  | .ok (false, pos) => .stop (.ok false) { s with trailerScanned := pos }
  | .ok (true, pos) =>
    .stop (.ok true) { s with pending := s.pending.drop pos, trailerScanned := 0 }

def turn (s : ChunkedSkip) : Turn :=
  match s.state with
  | .size => s.sizeTurn
  | .data => s.dataTurn
  | .dataEnd => s.dataEndTurn
  | .trailers => s.trailersTurn

theorem run_succ (fuel : Nat) (s : ChunkedSkip) :
    run (fuel + 1) s = s.turn.andThen (run fuel) := by
  rcases s with ⟨state, pending, left, scanned⟩
  rw [run, turn]
  cases state with
  | size =>
    rw [sizeTurn]
    cases cut lf pending with
    | none =>
      dsimp only
      split
      · rfl
      · rfl
    | some parts =>
      rcases parts with ⟨line, rest⟩
      dsimp only
      cases parseSizeLine line with
      | error e => rfl
      | ok n =>
        cases n with
        | zero => rfl
        | succ n => rfl
  | data =>
    dsimp only
    rw [dataTurn]
    split
    · rfl
    · rfl
  | dataEnd =>
    dsimp only
    rw [dataEndTurn]
    split
    · rfl
    · split
      · rfl
      · rfl
  | trailers =>
    rw [trailersTurn]
    cases scanTrailers pending (pending.length + 1) scanned with
    | error e => rfl
    | ok r =>
      rcases r with ⟨found, pos⟩
      cases found with
      | true => rfl
      | false => rfl

/-- Something is missing of a chunk that is being skipped, and only trailers are scanned. -/
structure Sound (s : ChunkedSkip) : Prop where
  left_pos : s.state = .data -> 0 < s.left
  unscanned : s.state ≠ .trailers -> s.trailerScanned = 0
  scanned : s.trailerScanned ≤ s.pending.length

/-!
## Trailers
-/

theorem scanTrailers_fuel {pending : List Byte} {fuel fuel' pos : Nat}
    (hfuel : pending.length + 1 - pos ≤ fuel) (hfuel' : pending.length + 1 - pos ≤ fuel')
    (hpos : 0 < fuel) (hpos' : 0 < fuel') :
    scanTrailers pending fuel pos = scanTrailers pending fuel' pos := by
  induction fuel generalizing fuel' pos with
  | zero => exact absurd hpos (Nat.lt_irrefl 0)
  | succ fuel ih =>
    cases fuel' with
    | zero => exact absurd hpos' (Nat.lt_irrefl 0)
    | succ fuel' =>
      rw [scanTrailers, scanTrailers]
      by_cases hlong : pos > 4096
      · rw [if_pos hlong, if_pos hlong]
      · rw [if_neg hlong, if_neg hlong]
        cases hcut : cut lf (pending.drop pos) with
        | none => rfl
        | some parts =>
          rcases parts with ⟨line, rest⟩
          dsimp only
          by_cases hblank : stripCr line = []
          · rw [if_pos hblank, if_pos hblank]
          · rw [if_neg hblank, if_neg hblank]
            have hlength := congrArg length (cut_some hcut).1
            rw [length_drop, length_append, length_cons] at hlength
            exact ih (by omega) (by omega) (by omega) (by omega)

def scan (pending : List Byte) (pos : Nat) : Except String (Bool × Nat) :=
  scanTrailers pending (pending.length + 1) pos

section Scan

variable {pending line rest : List Byte} {pos : Nat}

theorem scan_long (h : 4096 < pos) :
    scan pending pos = .error "suspiciously long trailer after chunked body" := by
  rw [scan, scanTrailers, if_pos h]

theorem scan_none (hpos : pos ≤ 4096) (hcut : cut lf (pending.drop pos) = none) :
    scan pending pos =
      if pending.length > 4096 + 2 then .error "suspiciously long trailer after chunked body"
      else .ok (false, pos) := by
  rw [scan, scanTrailers, if_neg (Nat.not_lt.mpr hpos), hcut]

theorem scan_blank (hpos : pos ≤ 4096) (hcut : cut lf (pending.drop pos) = some (line, rest))
    (hblank : stripCr line = []) : scan pending pos = .ok (true, pos + line.length + 1) := by
  rw [scan, scanTrailers, if_neg (Nat.not_lt.mpr hpos), hcut]
  dsimp only
  rw [if_pos hblank]

theorem length_of_cut (hcut : cut lf (pending.drop pos) = some (line, rest)) :
    pos + line.length + 1 + rest.length = pending.length := by
  have hlength := congrArg length (cut_some hcut).1
  rw [length_drop, length_append, length_cons] at hlength
  omega

theorem scan_next (hpos : pos ≤ 4096) (hcut : cut lf (pending.drop pos) = some (line, rest))
    (hfilled : stripCr line ≠ []) :
    scan pending pos = scan pending (pos + line.length + 1) := by
  have hlength := length_of_cut hcut
  rw [scan, scanTrailers, if_neg (Nat.not_lt.mpr hpos), hcut]
  dsimp only
  rw [if_neg hfilled, scan]
  exact scanTrailers_fuel (by omega) (by omega) (by omega) (by omega)

theorem cut_drop_append {more : List Byte}
    (hcut : cut lf (pending.drop pos) = some (line, rest)) :
    cut lf ((pending ++ more).drop pos) = some (line, rest ++ more) := by
  have hlength := length_of_cut hcut
  rcases cut_some hcut with ⟨htext, hfree⟩
  rw [drop_append_of_le_length (by omega), htext, append_assoc, cons_append]
  exact cut_append lf hfree _

theorem le_length_of_cut {head more : List Byte} (hfree : lf ∉ head)
    (hcut : cut lf (head ++ more) = some (line, rest)) : head.length ≤ line.length := by
  rcases append_eq_append_iff.mp (cut_some hcut).1 with ⟨part, hline, _⟩ | ⟨part, hhead, hrest⟩
  · rw [hline, length_append]
    exact Nat.le_add_right _ _
  · cases part with
    | nil =>
      rw [hhead, append_nil]
    | cons b part =>
      cases hrest
      rw [hhead] at hfree
      exact absurd (mem_append_right line mem_cons_self) hfree

theorem stripCr_ne_nil (h : 2 ≤ line.length) : stripCr line ≠ [] := by
  rw [stripCr]
  split
  · intro hnil
    have hlength := congrArg length hnil
    rw [length_dropLast, length_nil] at hlength
    omega
  · intro hnil
    rw [hnil] at h
    exact absurd h (by decide)

theorem scan_unended (hpos : pos ≤ 4096) (hmany : 4096 + 2 < pending.length)
    (hcut : cut lf (pending.drop pos) = none) (more : List Byte) :
    scan (pending ++ more) pos = .error "suspiciously long trailer after chunked body" := by
  have hdrop : (pending ++ more).drop pos = pending.drop pos ++ more :=
    drop_append_of_le_length (by omega)
  cases hcut' : cut lf ((pending ++ more).drop pos) with
  | none =>
    rw [scan_none hpos hcut', if_pos]
    rw [length_append]
    omega
  | some parts =>
    rcases parts with ⟨line, rest⟩
    have hcut'' := hcut'
    rw [hdrop] at hcut''
    have hlength := le_length_of_cut (cut_none_iff.mp hcut) hcut''
    rw [length_drop] at hlength
    rw [scan_next hpos hcut' (stripCr_ne_nil (by omega)), scan_long]
    omega

/-- What a scan of a block says about a scan with more bytes. -/
inductive Rescan (pending more : List Byte) (pos : Nat) : Except String (Bool × Nat) -> Prop
  | failed {e e' : String} (hmore : scan (pending ++ more) pos = .error e') :
      Rescan pending more pos (.error e)
  | found {stop : Nat} (hle : stop ≤ pending.length)
      (hmore : scan (pending ++ more) pos = .ok (true, stop)) :
      Rescan pending more pos (.ok (true, stop))
  | resume {stop : Nat} (hle : stop ≤ pending.length)
      (hmore : scan (pending ++ more) pos = scan (pending ++ more) stop) :
      Rescan pending more pos (.ok (false, stop))

theorem rescan (more : List Byte) (hle : pos ≤ pending.length) :
    Rescan pending more pos (scan pending pos) := by
  induction hn : pending.length - pos using Nat.strong_induction_on generalizing pos with
  | _ n ih =>
    by_cases hlong : 4096 < pos
    · rw [scan_long hlong]
      exact .failed (scan_long hlong)
    · have hpos := Nat.not_lt.mp hlong
      cases hcut : cut lf (pending.drop pos) with
      | some parts =>
        rcases parts with ⟨line, rest⟩
        have hlength := length_of_cut hcut
        have hcut' := @cut_drop_append pending line rest pos more hcut
        by_cases hblank : stripCr line = []
        · rw [scan_blank hpos hcut hblank]
          exact .found (by omega) (scan_blank hpos hcut' hblank)
        · have hnext := scan_next hpos hcut' hblank
          have hrescan := @ih (pending.length - (pos + line.length + 1)) (by omega)
            (pos + line.length + 1) (by omega) rfl
          rw [scan_next hpos hcut hblank]
          generalize scan pending (pos + line.length + 1) = result at hrescan
          cases hrescan with
          | failed hmore => exact .failed (hnext.trans hmore)
          | found hstop hmore => exact .found hstop (hnext.trans hmore)
          | resume hstop hmore => exact .resume hstop (hnext.trans hmore)
      | none =>
        rw [scan_none hpos hcut]
        by_cases hmany : pending.length > 4096 + 2
        · rw [if_pos hmany]
          exact .failed (scan_unended hpos hmany hcut more)
        · rw [if_neg hmany]
          exact .resume hle rfl

end Scan

/-!
## One turn with more bytes
-/

def answerOf (r : Except String Bool × ChunkedSkip) : Feeding.Outcome Byte :=
  answer pending r

/-- What a turn says about the turn with more bytes. -/
inductive Joined (s : ChunkedSkip) (more : List Byte) : Turn -> Prop
  | again {s' : ChunkedSkip} (hmore : (s.extend more).turn = .again (s'.extend more)) :
      Joined s more (.again s')
  | spent {s' : ChunkedSkip} (hstop : s'.turn = .stop (.ok false) s')
      (hmore : (s.extend more).turn = (s'.extend more).turn) : Joined s more (.again s')
  | done {s' : ChunkedSkip} (hmore : (s.extend more).turn = .stop (.ok true) (s'.extend more)) :
      Joined s more (.stop (.ok true) s')
  | failed {e e' : String} {s' s'' : ChunkedSkip}
      (hmore : (s.extend more).turn = .stop (.error e') s'') : Joined s more (.stop (.error e) s')
  | waits {s' : ChunkedSkip}
      (hmore : forall next, answerOf ((s.extend more).turn.andThen next) =
        answerOf ((s'.extend more).turn.andThen next)) :
      Joined s more (.stop (.ok false) s')

section Turns

variable {s : ChunkedSkip} {more : List Byte}

theorem parseSizeLine_long {line : List Byte} (h : 4096 < line.length) :
    exists e, parseSizeLine line = .error e := by
  rw [parseSizeLine]
  split
  · exact ⟨_, rfl⟩
  · split
    · exact ⟨_, rfl⟩
    · rw [if_pos]
      · exact ⟨_, rfl⟩
      · rw [length_dropLast]
        omega

theorem sizeTurn_joined (hstate : s.state = .size) (more : List Byte) :
    Joined s more s.turn := by
  have hturn : forall s' : ChunkedSkip, s'.state = .size -> s'.turn = s'.sizeTurn := by
    intro s' h
    rw [turn, h]
  have hextend := hturn (s.extend more) hstate
  rw [hturn s hstate, sizeTurn]
  cases hcut : cut lf s.pending with
  | none =>
    by_cases hlong : s.pending.length > 4096 + 2
    · rw [if_pos hlong]
      cases hcut' : cut lf (s.pending ++ more) with
      | none =>
        have hmany : (s.extend more).pending.length > 4096 + 2 := by
          rw [extend, length_append]
          omega
        refine @Joined.failed s more _ "chunked size line exceeds 4096 bytes" _ (s.extend more)
          (hextend.trans ?_)
        rw [sizeTurn, show cut lf (s.extend more).pending = none from hcut']
        rw [if_pos hmany]
      | some parts =>
        rcases parts with ⟨line, rest⟩
        have hlength := le_length_of_cut (cut_none_iff.mp hcut) hcut'
        rcases @parseSizeLine_long line (by omega) with ⟨e, he⟩
        refine @Joined.failed s more _ e _ (s.extend more) (hextend.trans ?_)
        rw [sizeTurn, show cut lf (s.extend more).pending = some (line, rest) from hcut']
        dsimp only
        rw [he]
    · rw [if_neg hlong]
      exact .waits fun _ => rfl
  | some parts =>
    rcases parts with ⟨line, rest⟩
    have hcut' : cut lf (s.extend more).pending = some (line, rest ++ more) := by
      rcases cut_some hcut with ⟨htext, hfree⟩
      rw [extend, htext, append_assoc, cons_append]
      exact cut_append lf hfree _
    dsimp only
    cases hparse : parseSizeLine line with
    | error e =>
      refine @Joined.failed s more e e s (s.extend more) (hextend.trans ?_)
      rw [sizeTurn, hcut']
      dsimp only
      rw [hparse]
    | ok n =>
      cases n with
      | zero =>
        refine .again (hextend.trans ?_)
        rw [sizeTurn, hcut']
        dsimp only
        rw [hparse]
        rfl
      | succ n =>
        refine .again (hextend.trans ?_)
        rw [sizeTurn, hcut']
        dsimp only
        rw [hparse]
        rfl

theorem turn_data (h : s.state = .data) : s.turn = s.dataTurn := by
  rw [turn, h]

theorem turn_data_short (hstate : s.state = .data) (hne : s.pending ≠ [])
    (hshort : s.pending.length < s.left) :
    s.turn = .again { s with pending := [], left := s.left - s.pending.length } := by
  rw [turn_data hstate, dataTurn, if_neg hne]
  dsimp only
  rw [Nat.min_eq_left (Nat.le_of_lt hshort), drop_length,
    if_neg (Nat.sub_ne_zero_of_lt hshort), hstate]

theorem turn_data_long (hstate : s.state = .data) (hne : s.pending ≠ [])
    (hlong : s.left ≤ s.pending.length) :
    s.turn = .again { s with pending := s.pending.drop s.left, left := 0, state := .dataEnd } := by
  rw [turn_data hstate, dataTurn, if_neg hne]
  dsimp only
  rw [Nat.min_eq_right hlong, Nat.sub_self, if_pos rfl]

theorem dataTurn_joined (hstate : s.state = .data) (hmore : more ≠ []) :
    Joined s more s.turn := by
  have hfull : (s.extend more).pending ≠ [] :=
    append_ne_nil_of_right_ne_nil _ hmore
  have hlength : (s.extend more).pending.length = s.pending.length + more.length :=
    length_append
  by_cases hempty : s.pending = []
  · have hstop : s.turn = .stop (.ok false) s := by
      rw [turn_data hstate, dataTurn, if_pos hempty]
    rw [hstop]
    exact .waits fun _ => rfl
  · by_cases hlong : s.left ≤ s.pending.length
    · rw [turn_data_long hstate hempty hlong]
      refine .again ?_
      rw [@turn_data_long (s.extend more) hstate hfull
        (by rw [hlength]; exact Nat.le_add_right_of_le hlong)]
      dsimp only [extend]
      rw [drop_append_of_le_length hlong]
    · have hshort := Nat.not_le.mp hlong
      rw [turn_data_short hstate hempty hshort]
      refine .spent ?_ ?_
      · rw [@turn_data { s with pending := [], left := s.left - s.pending.length } hstate, dataTurn,
          if_pos rfl]
      · by_cases hall : s.left ≤ s.pending.length + more.length
        · rw [@turn_data_long (s.extend more) hstate hfull (by rw [hlength]; exact hall),
            @turn_data_long
              (extend { s with pending := [], left := s.left - s.pending.length } more)
              hstate hmore (Nat.sub_le_iff_le_add'.mpr hall)]
          dsimp only [extend]
          rw [drop_append, drop_eq_nil_of_le (Nat.le_of_lt hshort), nil_append,
            nil_append]
        · have hfew := Nat.not_le.mp hall
          rw [@turn_data_short (s.extend more) hstate hfull (by rw [hlength]; exact hfew),
            @turn_data_short
              (extend { s with pending := [], left := s.left - s.pending.length } more)
              hstate hmore (Nat.lt_sub_iff_add_lt'.mpr hfew), hlength]
          dsimp only [extend]
          rw [nil_append, Nat.sub_add_eq]

theorem dataEndTurn_joined (hstate : s.state = .dataEnd) (more : List Byte) :
    Joined s more s.turn := by
  have hturn : forall s' : ChunkedSkip, s'.state = .dataEnd -> s'.turn = s'.dataEndTurn := by
    intro s' h
    rw [turn, h]
  have hextend := hturn (s.extend more) hstate
  rw [hturn s hstate, dataEndTurn]
  by_cases hshort : s.pending.length < 2
  · rw [if_pos hshort]
    exact .waits fun _ => rfl
  · have htwo : 2 ≤ s.pending.length := Nat.not_lt.mp hshort
    have hlength : ¬ (s.extend more).pending.length < 2 := by
      rw [extend, length_append]
      omega
    have htake : (s.extend more).pending.take 2 = s.pending.take 2 :=
      take_append_of_le_length htwo
    rw [dataEndTurn, if_neg hlength, htake] at hextend
    rw [if_neg hshort]
    by_cases hend : s.pending.take 2 ≠ crlf
    · rw [if_pos hend] at hextend ⊢
      exact .failed hextend
    · rw [if_neg hend] at hextend ⊢
      refine .again (hextend.trans ?_)
      dsimp only [extend]
      rw [drop_append_of_le_length htwo]

theorem trailersTurn_joined (hstate : s.state = .trailers) (hsound : s.Sound) (more : List Byte) :
    Joined s more s.turn := by
  have hturn : forall s' : ChunkedSkip, s'.state = .trailers -> s'.turn = s'.trailersTurn := by
    intro s' h
    rw [turn, h]
  have hextend := hturn (s.extend more) hstate
  have hscan : scanTrailers (s.extend more).pending ((s.extend more).pending.length + 1)
      (s.extend more).trailerScanned = scan (s.pending ++ more) s.trailerScanned := rfl
  have hrescan := @rescan s.pending s.trailerScanned more hsound.scanned
  rw [hturn s hstate, trailersTurn]
  rw [trailersTurn, hscan] at hextend
  rw [<- scan]
  generalize scan s.pending s.trailerScanned = result at hrescan ⊢
  cases hrescan with
  | failed hmore =>
    rw [hmore] at hextend
    exact .failed hextend
  | found hle hmore =>
    rw [hmore] at hextend
    refine .done (hextend.trans ?_)
    dsimp only [extend]
    rw [drop_append_of_le_length hle]
  | resume hle hmore =>
    rename_i stop
    refine .waits fun next => ?_
    have hextend' := hturn (extend { s with trailerScanned := stop } more) hstate
    have hscan' : scanTrailers (extend { s with trailerScanned := stop } more).pending
        ((extend { s with trailerScanned := stop } more).pending.length + 1)
        (extend { s with trailerScanned := stop } more).trailerScanned =
          scan (s.pending ++ more) stop := rfl
    rw [trailersTurn, hscan'] at hextend'
    rw [hmore] at hextend
    rw [hextend, hextend']
    generalize scan (s.pending ++ more) stop = result
    cases result with
    | error e => rfl
    | ok r =>
      rcases r with ⟨found, pos⟩
      cases found with
      | true => rfl
      | false => rfl

theorem turn_joined (hsound : s.Sound) (hmore : more ≠ []) : Joined s more s.turn := by
  cases hstate : s.state with
  | size => exact sizeTurn_joined hstate more
  | data => exact dataTurn_joined hstate hmore
  | dataEnd => exact dataEndTurn_joined hstate more
  | trailers => exact trailersTurn_joined hstate hsound more

end Turns

/-!
## Whole runs
-/

section Runs

variable {s s' : ChunkedSkip} {more : List Byte}

theorem Sound.extend (h : s.Sound) (more : List Byte) : (s.extend more).Sound where
  left_pos := h.left_pos
  unscanned := h.unscanned
  scanned := by
    rw [ChunkedSkip.extend, length_append]
    exact Nat.le_add_right_of_le h.scanned

/-- A turn that is not the last one takes bytes off. -/
theorem turn_again (hsound : s.Sound) (h : s.turn = .again s') :
    s'.Sound ∧ s'.pending.length < s.pending.length := by
  rw [turn] at h
  cases hstate : s.state with
  | size =>
    have hscanned : s.trailerScanned = 0 := hsound.unscanned (by rw [hstate]; decide)
    rw [hstate] at h
    rw [sizeTurn] at h
    cases hcut : cut lf s.pending with
    | none =>
      rw [hcut] at h
      dsimp only at h
      split at h
      · cases h
      · cases h
    | some parts =>
      rcases parts with ⟨line, rest⟩
      have hshorter := cut_length hcut
      rw [hcut] at h
      dsimp only at h
      cases hparse : parseSizeLine line with
      | error e =>
        rw [hparse] at h
        cases h
      | ok n =>
        rw [hparse] at h
        cases n with
        | zero =>
          cases h
          refine ⟨⟨fun hdata => ?_, fun _ => hscanned, ?_⟩, hshorter⟩
          · cases hdata
          · rw [hscanned]
            exact Nat.zero_le _
        | succ n =>
          cases h
          refine ⟨⟨fun _ => Nat.succ_pos n, fun _ => hscanned, ?_⟩, hshorter⟩
          rw [hscanned]
          exact Nat.zero_le _
  | data =>
    have hscanned : s.trailerScanned = 0 := hsound.unscanned (by rw [hstate]; decide)
    have hleft := hsound.left_pos hstate
    rw [hstate] at h
    dsimp only at h
    rw [dataTurn] at h
    split at h
    · cases h
    · rename_i hne
      have hpos := length_pos_of_ne_nil hne
      cases h
      refine ⟨⟨fun hdata => ?_, fun _ => hscanned, ?_⟩, ?_⟩
      · split at hdata
        · cases hdata
        · rename_i hrest
          exact Nat.pos_of_ne_zero hrest
      · rw [hscanned]
        exact Nat.zero_le _
      · rw [length_drop]
        omega
  | dataEnd =>
    have hscanned : s.trailerScanned = 0 := hsound.unscanned (by rw [hstate]; decide)
    rw [hstate] at h
    dsimp only at h
    rw [dataEndTurn] at h
    split at h
    · cases h
    · split at h
      · cases h
      · cases h
        refine ⟨⟨fun hdata => ?_, fun _ => hscanned, ?_⟩, ?_⟩
        · cases hdata
        · rw [hscanned]
          exact Nat.zero_le _
        · rw [length_drop]
          omega
  | trailers =>
    rw [hstate] at h
    dsimp only at h
    rw [trailersTurn] at h
    split at h
    · cases h
    · cases h
    · cases h

/-- A turn that waits would wait again. -/
theorem turn_waits (hsound : s.Sound) (h : s.turn = .stop (.ok false) s') :
    s'.Sound ∧ s'.pending = s.pending ∧ s'.turn = .stop (.ok false) s' := by
  have hturn := h
  rw [turn] at h
  cases hstate : s.state with
  | size =>
    rw [hstate] at h
    dsimp only at h
    rw [sizeTurn] at h
    split at h
    · split at h
      · cases h
      · cases h
        exact ⟨hsound, rfl, hturn⟩
    · split at h
      · cases h
      · cases h
      · cases h
  | data =>
    rw [hstate] at h
    dsimp only at h
    rw [dataTurn] at h
    split at h
    · cases h
      exact ⟨hsound, rfl, hturn⟩
    · cases h
  | dataEnd =>
    rw [hstate] at h
    dsimp only at h
    rw [dataEndTurn] at h
    split at h
    · cases h
      exact ⟨hsound, rfl, hturn⟩
    · split at h
      · cases h
      · cases h
  | trailers =>
    have hrescan := @rescan s.pending s.trailerScanned [] hsound.scanned
    rw [hstate] at h
    rw [trailersTurn, <- scan] at h
    cases hscan : scan s.pending s.trailerScanned with
    | error e =>
      rw [hscan] at h
      cases h
    | ok r =>
      rcases r with ⟨found, pos⟩
      rw [hscan] at h hrescan
      cases hrescan with
      | found hle hmore => cases h
      | resume hle hmore =>
        cases h
        rw [append_nil, hscan] at hmore
        refine ⟨⟨fun hdata => ?_, fun hne => absurd hstate hne, hle⟩, rfl, ?_⟩
        · rw [show s.state = .data from hdata] at hstate
          cases hstate
        · rw [turn]
          rw [hstate]
          rw [trailersTurn]
          rw [<- scan, <- hmore]

theorem run_fuel {fuel fuel' : Nat} (hsound : s.Sound) (hfuel : s.pending.length < fuel)
    (hfuel' : s.pending.length < fuel') : run fuel s = run fuel' s := by
  induction fuel generalizing s fuel' with
  | zero => exact absurd hfuel (Nat.not_lt_zero _)
  | succ fuel ih =>
    cases fuel' with
    | zero => exact absurd hfuel' (Nat.not_lt_zero _)
    | succ fuel' =>
      rw [run_succ, run_succ]
      cases hturn : s.turn with
      | stop result s' => rfl
      | again s' =>
        rcases turn_again hsound hturn with ⟨hsound', hshorter⟩
        exact ih hsound' (by omega) (by omega)

def finish (s : ChunkedSkip) : Except String Bool × ChunkedSkip :=
  run (s.pending.length + 1) s

theorem feed_eq_finish (s : ChunkedSkip) (bytes : List Byte) :
    s.feed bytes = (s.extend bytes).finish := rfl

theorem finish_stop {result : Except String Bool} (h : s.turn = .stop result s') :
    s.finish = (result, s') := by
  rw [finish, run_succ, h]
  rfl

theorem finish_again (hsound : s.Sound) (h : s.turn = .again s') : s.finish = s'.finish := by
  rcases turn_again hsound h with ⟨hsound', hshorter⟩
  rw [finish, run_succ, h]
  exact run_fuel hsound' hshorter (Nat.lt_succ_self _)

theorem finish_congr {t : ChunkedSkip} (hs : s.Sound) (ht : t.Sound) (h : s.turn = t.turn) :
    s.finish = t.finish := by
  cases hturn : t.turn with
  | stop result s' => rw [finish_stop (h.trans hturn), finish_stop hturn]
  | again s' => rw [finish_again hs (h.trans hturn), finish_again ht hturn]

/-- A machine that waits can be left alone. -/
structure Waiting (s : ChunkedSkip) : Prop extends Sound s where
  waits : s.turn = .stop (.ok false) s

theorem finish_waits (hsound : s.Sound) (h : s.finish = (.ok false, s')) : s'.Waiting := by
  induction hn : s.pending.length using Nat.strong_induction_on generalizing s with
  | _ n ih =>
    cases hturn : s.turn with
    | stop result t =>
      rw [finish_stop hturn] at h
      cases h
      rcases turn_waits hsound hturn with ⟨hsound', _, hwaits⟩
      exact ⟨hsound', hwaits⟩
    | again t =>
      rcases turn_again hsound hturn with ⟨hsound', hshorter⟩
      rw [finish_again hsound hturn] at h
      exact ih t.pending.length (by omega) hsound' h rfl

/-- What a run says about a run with more bytes. -/
inductive Continued (s : ChunkedSkip) (more : List Byte) : Except String Bool × ChunkedSkip -> Prop
  | done {s' : ChunkedSkip} (hmore : answerOf (s.extend more).finish = .done (s'.pending ++ more)) :
      Continued s more (.ok true, s')
  | failed {e : String} {s' : ChunkedSkip} (hmore : answerOf (s.extend more).finish = .failed) :
      Continued s more (.error e, s')
  | waits {s' : ChunkedSkip}
      (hmore : answerOf (s.extend more).finish = answerOf (s'.extend more).finish) :
      Continued s more (.ok false, s')

theorem finish_continued (hsound : s.Sound) (hmore : more ≠ []) :
    Continued s more s.finish := by
  induction hn : s.pending.length using Nat.strong_induction_on generalizing s with
  | _ n ih =>
    have hjoined := turn_joined hsound hmore
    cases hturn : s.turn with
    | stop result t =>
      rw [finish_stop hturn]
      rw [hturn] at hjoined
      cases hjoined with
      | done hdone =>
        refine .done ?_
        rw [finish_stop hdone, answerOf, answer, outcome, flatten_nil, append_nil]
        rfl
      | failed hfailed =>
        refine .failed ?_
        rw [finish_stop hfailed]
        rfl
      | waits hwaits =>
        have hlength : (t.extend more).pending.length = (s.extend more).pending.length := by
          rw [extend, extend, (turn_waits hsound hturn).2.1]
        refine .waits ?_
        rw [finish, run_succ, finish, run_succ, hlength]
        exact hwaits _
    | again t =>
      rcases turn_again hsound hturn with ⟨hsound', hshorter⟩
      rw [finish_again hsound hturn]
      rw [hturn] at hjoined
      cases hjoined with
      | again hagain =>
        have hfinish := finish_again (hsound.extend more) hagain
        have hcontinued := ih t.pending.length (by omega) hsound' rfl
        generalize t.finish = result at hcontinued ⊢
        cases hcontinued with
        | done hdone => exact .done (by rw [hfinish]; exact hdone)
        | failed hfailed => exact .failed (by rw [hfinish]; exact hfailed)
        | waits hwaits => exact .waits (by rw [hfinish]; exact hwaits)
      | spent hstop hspent =>
        rw [finish_stop hstop]
        refine .waits ?_
        rw [finish_congr (hsound.extend more) (hsound'.extend more) hspent]

end Runs

theorem new_waiting : new.Waiting where
  left_pos := by
    intro h
    cases h
  unscanned := fun _ => rfl
  scanned := Nat.le_refl 0
  waits := rfl

theorem feed_append (s : ChunkedSkip) (a b : List Byte) :
    s.feed (a ++ b) = ((s.extend a).extend b).finish := by
  rw [feed_eq_finish, extend, extend, extend, append_assoc]

theorem feed_continued {s : ChunkedSkip} (hs : s.Waiting) (a : List Byte) {b : List Byte}
    (hb : b ≠ []) : Continued (s.extend a) b (s.feed a) :=
  finish_continued (hs.toSound.extend a) hb

theorem joining : Joining feed pending Waiting where
  idle := by
    intro s hs
    rw [feed_eq_finish, extend, append_nil, finish_stop hs.waits]
  keeps := by
    intro s a s' hs h
    exact finish_waits (hs.toSound.extend a) h
  done := by
    intro s a b s' hs h
    by_cases hb : b = []
    · rw [hb, append_nil, h]
      rfl
    · have hcontinued := feed_continued hs a hb
      rw [h] at hcontinued
      cases hcontinued with
      | done hmore =>
        rw [feed_append]
        exact hmore
  failed := by
    intro s a b e s' hs h
    by_cases hb : b = []
    · rw [hb, append_nil, h]
      rfl
    · have hcontinued := feed_continued hs a hb
      rw [h] at hcontinued
      cases hcontinued with
      | failed hmore =>
        rw [feed_append]
        exact hmore
  more := by
    intro s a b s' hs h
    by_cases hb : b = []
    · have hwaits := finish_waits (hs.toSound.extend a) h
      rw [hb, append_nil, h, feed_eq_finish, extend, append_nil,
        finish_stop hwaits.waits]
    · have hcontinued := feed_continued hs a hb
      rw [h] at hcontinued
      cases hcontinued with
      | waits hmore =>
        rw [feed_append]
        exact hmore

end ChunkedSkip
end Injector
end Http
end FrpRs
