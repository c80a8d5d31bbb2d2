import FrpRs.Data.Blocks
import FrpRs.Data.Neighbours
import FrpRs.Http.Injector

/-!
# What the injector delivers

A backend sends interim heads, a final head and more bytes.  The client gets the interim heads as
they are, the final head with the configured headers in the place of those with the same names,
and the rest.  How the stream was cut and how large the client's buffers are has no part in that,
and no byte of a head is delivered before the whole head is there.
-/

namespace FrpRs
namespace Http
namespace Injector

open List Bytes Lines Blocks Neighbours Textproto Poll

/-!
## Heads of a backend
-/

/-- Lines and the blank line after them, without their line feeds. -/
structure ResponseHead where
  lines : List (List Byte)
  blank : List Byte
  lines_filled : forall line, line ∈ lines -> Filled line
  blank_blank : Blank blank

namespace ResponseHead

def bytes (h : ResponseHead) : List Byte :=
  unlines lf h.lines ++ h.blank ++ [lf]

theorem isHead (h : ResponseHead) : IsHead h.lines h.blank h.bytes :=
  ⟨h.lines_filled, h.blank_blank, rfl⟩

def status (h : ResponseHead) : Option Nat :=
  headStatusCode h.bytes

/-- An interim head that the injector has room for. -/
structure Interim (h : ResponseHead) : Prop where
  status_eq : exists c, h.status = some c ∧ 100 ≤ c ∧ c ≤ 199 ∧ c ≠ 101
  short : h.bytes.length ≤ 61440

/-- A final head, or the switch to another protocol, that has a body. -/
structure Final (h : ResponseHead) : Prop where
  status_eq : exists c, h.status = some c ∧ (c < 100 ∨ 199 < c ∨ c = 101) ∧ c ≠ 204 ∧ c ≠ 304
  short : h.bytes.length ≤ 61440

def isFold (line : List Byte) : Bool :=
  (stripCr line).head?.any isOws

def fields (h : ResponseHead) : List (Block (List Byte)) :=
  (blocks isFold h.lines).2

end ResponseHead

def isConfigured (headers : HeaderMap) (field : Block (List Byte)) : Bool :=
  (cut colon (stripCr field.first)).any fun parts => headers.hasName parts.1

def lastOfCase (keys : List (List Byte × List Byte)) : List (List Byte × List Byte) :=
  lastOfRuns (fun key => lowered key.1) keys

def configuredLines (headers : HeaderMap) : List Byte :=
  (lastOfCase (headers.sorted [])).flatMap headerLine

def injectedHead (headers : HeaderMap) (h : ResponseHead) : List Byte :=
  unlines lf ((remaining (isConfigured headers) h.fields).flatMap Block.items) ++
    configuredLines headers ++ (h.blank ++ [lf])

/-!
## Emitting the configured headers
-/

theorem foldl_header (pre : List Byte) (h : List Byte × List Byte)
    (hs : List (List Byte × List Byte)) :
    (hs.foldl Emission.header ⟨pre ++ headerLine h, some h.1, pre.length⟩).out =
      pre ++ (lastOfCase (h :: hs)).flatMap headerLine := by
  induction hs generalizing pre h with
  | nil =>
    simp [lastOfCase, lastOfRuns]
  | cons next hs ih =>
    rw [foldl_cons, Emission.header, Option.any_some, eqIgnoreAsciiCase, lastOfCase]
    by_cases hcase : lowered h.1 = lowered next.1
    · rw [lastOfRuns, if_pos hcase, if_pos (decide_eq_true hcase), take_left]
      exact ih pre next
    · rw [lastOfRuns, if_neg hcase, if_neg (by rwa [decide_eq_true_eq]), flatMap_cons,
        ← append_assoc]
      exact ih (pre ++ headerLine h) next

theorem emitHeaders_eq (out : List Byte) (hs : List (List Byte × List Byte)) :
    emitHeaders out hs = out ++ (lastOfCase hs).flatMap headerLine := by
  cases hs with
  | nil =>
    rw [lastOfCase, lastOfRuns, flatMap_nil, append_nil]
    rfl
  | cons h hs =>
    exact foldl_header out h hs

/-!
## Splicing
-/

theorem lineBody_ended (line : List Byte) : lineBody (line ++ [lf]) = stripCr line := by
  rw [lineBody, getLast?_concat, if_pos rfl, dropLast_concat]

theorem isContinuation_ended (line : List Byte) :
    isContinuation (line ++ [lf]) = ResponseHead.isFold line := by
  rw [isContinuation, lineBody_ended, ResponseHead.isFold]

theorem takesOut_ended (headers : HeaderMap) (line : List Byte) (folds : List (List Byte)) :
    takesOut headers [] (line ++ [lf]) =
      (!ResponseHead.isFold line && isConfigured headers ⟨line, folds⟩) := by
  rw [takesOut, isContinuation_ended, lineBody_ended, isConfigured]
  simp only [any_nil, Bool.or_false]

theorem dropWhile_ended (lines : List (List Byte)) :
    (lines.map fun line => line ++ [lf]).dropWhile isContinuation =
      (lines.dropWhile ResponseHead.isFold).map fun line => line ++ [lf] := by
  rw [dropWhile_map]
  congr 2
  funext line
  exact isContinuation_ended line

theorem spliceLines_eq (headers : HeaderMap) {fuel : Nat} {lines : List (List Byte)}
    (hfuel : lines.length ≤ fuel) :
    spliceLines headers [] fuel (lines.map fun line => line ++ [lf]) =
      unlines lf ((blocks ResponseHead.isFold lines).1 ++
        (remaining (isConfigured headers) (blocks ResponseHead.isFold lines).2).flatMap
          Block.items) := by
  induction fuel generalizing lines with
  | zero =>
    rw [eq_nil_of_length_eq_zero (Nat.le_zero.mp hfuel)]
    rfl
  | succ fuel ih =>
    cases lines with
    | nil =>
      rfl
    | cons line lines =>
      have hrest : lines.length ≤ fuel := Nat.le_of_succ_le_succ hfuel
      rw [map_cons, spliceLines,
        takesOut_ended headers line (blocks ResponseHead.isFold lines).1, blocks]
      cases hfold : ResponseHead.isFold line with
      | true =>
        rw [Bool.not_true, Bool.false_and, if_neg Bool.false_ne_true, if_pos rfl, ih hrest,
          cons_append, unlines_cons, append_assoc]
        rfl
      | false =>
        rw [Bool.not_false, Bool.true_and, if_neg Bool.false_ne_true, nil_append,
          remaining]
        cases htaken : isConfigured headers
            ⟨line, (blocks ResponseHead.isFold lines).1⟩ with
        | true =>
          have hdrop : (lines.dropWhile ResponseHead.isFold).length ≤ fuel :=
            Nat.le_trans (length_dropWhile_le _ _) hrest
          rw [if_pos rfl, dropWhile_ended, ih hdrop, blocks_dropWhile, nil_append,
            filter_cons_of_neg (by simp [htaken]), remaining]
        | false =>
          rw [if_neg Bool.false_ne_true, ih hrest,
            filter_cons_of_pos (by simp [htaken]), flatMap_cons, Block.items,
            cons_append, unlines_cons, append_assoc, remaining]
          rfl

/-!
## Heads with a status
-/

namespace ResponseHead

theorem first_of_http {version rest : List Byte} (h : isHttpVersion version = true) :
    (version ++ rest).head? = some 72 := by
  simp only [isHttpVersion, Bool.and_eq_true] at h
  rcases isPrefixOf_iff_prefix.mp h.1.1.1.1 with ⟨more, hmore⟩
  rw [← hmore]
  rfl

variable {h : ResponseHead}

theorem lines_of_status {c : Nat} (hstatus : h.status = some c) :
    exists first rest, h.lines = first :: rest ∧ isFold first = false := by
  unfold status headStatusCode bytes at hstatus
  rcases hlines : h.lines with _ | ⟨first, rest⟩
  · rw [hlines, unlines_nil, nil_append, cut_append lf h.blank_blank.1] at hstatus
    dsimp only at hstatus
    rw [h.blank_blank.2] at hstatus
    cases hstatus
  · refine ⟨first, rest, rfl, ?_⟩
    have hfirst := h.lines_filled first (by rw [hlines]; exact mem_cons_self)
    rw [hlines, unlines_cons, append_assoc, append_assoc, cons_append,
      cut_append lf hfirst.1] at hstatus
    dsimp only at hstatus
    split at hstatus
    · cases hstatus
    · rename_i version code hcut
      split at hstatus
      · rename_i hversion
        rw [isFold, (cut_some hcut).1, first_of_http hversion]
        decide
      · cases hstatus

/-- The blank line starts where the lines end. -/
theorem blankStart_eq (hlines : h.lines ≠ []) (more : List Byte) :
    ResponseHeaderInjector.blankStart (h.bytes ++ more) h.bytes.length =
      (unlines lf h.lines).length := by
  rcases eq_nil_or_concat h.lines with hnil | ⟨front, last, hlast⟩
  · exact absurd hnil hlines
  · have hend : unlines lf h.lines = unlines lf front ++ last ++ [lf] := by
      rw [hlast, concat_eq_append, unlines_append, unlines_cons, unlines_nil,
        append_assoc]
    unfold ResponseHeaderInjector.blankStart
    rcases blank_iff.mp h.blank_blank with hblank | hblank
    · have hlength : h.bytes.length = (unlines lf h.lines).length + 1 := by
        rw [bytes, hblank, append_nil, length_append, length_singleton]
      have hbefore : (h.bytes ++ more)[h.bytes.length - 2]? = some lf := by
        rw [hlength, bytes, hend, hblank]
        simp
      have hne : ¬ some lf = some cr := by decide
      rw [hbefore, decide_eq_false hne, Bool.and_false, if_neg Bool.false_ne_true, hlength,
        Nat.add_sub_cancel]
    · have hlength : h.bytes.length = (unlines lf h.lines).length + 2 := by
        rw [bytes, hblank, length_append, length_append]
        rfl
      have hbefore : (h.bytes ++ more)[h.bytes.length - 2]? = some cr := by
        rw [hlength, bytes, hblank]
        simp
      rw [hbefore, if_pos, hlength, Nat.add_sub_cancel]
      rw [hlength, Bool.and_eq_true]
      exact ⟨decide_eq_true (Nat.le_add_left 2 _), decide_eq_true rfl⟩

theorem splice_lines {c : Nat} (hstatus : h.status = some c) (headers : HeaderMap) :
    spliceHeadDeduplicated (unlines lf h.lines) headers [] =
      unlines lf ((remaining (isConfigured headers) h.fields).flatMap Block.items) := by
  have hsplit := splitInclusive_unlines (fun line hline => (h.lines_filled line hline).1) []
  rw [append_nil, splitInclusive, append_nil] at hsplit
  rcases lines_of_status hstatus with ⟨first, rest, hlines, hfold⟩
  have horphans : (blocks isFold h.lines).1 = [] := by
    rw [hlines, blocks, if_neg (by rw [hfold]; exact Bool.false_ne_true)]
  unfold spliceHeadDeduplicated
  dsimp only
  rw [hsplit, length_map, spliceLines_eq headers (Nat.le_refl _), horphans, nil_append,
    fields]

end ResponseHead

/-!
## Phases of a response
-/

def stream (rest : List ResponseHead) (final : ResponseHead) (body : List Byte) : List Byte :=
  rest.flatMap ResponseHead.bytes ++ (final.bytes ++ body)

def relayed (headers : HeaderMap) (rest : List ResponseHead) (final : ResponseHead)
    (body : List Byte) : List Byte :=
  rest.flatMap ResponseHead.bytes ++ (injectedHead headers final ++ body)

namespace ResponseHeaderInjector

/-- What such a response leaves alone. -/
structure Plain (headers : HeaderMap) (s : ResponseHeaderInjector) : Prop where
  headers_eq : s.headers = headers
  malformedRaw_eq : s.malformedRaw = false
  deadlineSleep_eq : s.deadlineSleep = none
  discard_eq : s.discard = none
  rawPass_eq : s.rawPass = false

/-- Where the injector is in a response, and what it still owes. -/
inductive Phase (headers : HeaderMap) (interim : List ResponseHead) (final : ResponseHead)
    (body : List Byte) (s : ResponseHeaderInjector) (source : Source) : List Byte -> Prop
  | gathering {done rest : List ResponseHead} (hplain : s.Plain headers)
      (hidle : s.complete = false ∧ s.injected = false ∧ s.rawHead = false)
      (hsplit : interim = done ++ rest) (hscan : s.headScanner.Resumes s.buffer)
      (hstream : s.buffer ++ source.bytes = stream rest final body) :
      Phase headers interim final body s source (relayed headers rest final body)
  | interim {done rest : List ResponseHead} {head : ResponseHead} (hplain : s.Plain headers)
      (hopen : s.complete = false ∧ s.injected = false ∧ s.rawHead = true)
      (hsplit : interim = done ++ head :: rest) (hbuffer : s.buffer = head.bytes)
      (hoffset : s.bufferOffset < s.buffer.length)
      (hstream : s.tail.getD [] ++ source.bytes = stream rest final body) :
      Phase headers interim final body s source
        (s.buffer.drop s.bufferOffset ++ relayed headers rest final body)
  | final {arrived : List Byte} (hplain : s.Plain headers)
      (hopen : s.complete = false ∧ s.injected = true ∧ s.rawHead = false)
      (hoffset : s.bufferOffset < s.buffer.length) (hbody : body = arrived ++ source.bytes) :
      Phase headers interim final body s source (s.buffer.drop s.bufferOffset ++ source.bytes)
  | passing {arrived : List Byte} (hplain : s.Plain headers) (hcomplete : s.complete = true)
      (hbody : body = arrived ++ source.bytes) :
      Phase headers interim final body s source source.bytes

def Inv (headers : HeaderMap) (interim : List ResponseHead) (final : ResponseHead)
    (body : List Byte) (s : ResponseHeaderInjector) (source : Source) (owed : List Byte) : Prop :=
  source.Sound ∧ Phase headers interim final body s source owed

def measure (_ : ResponseHeaderInjector) (source : Source) (owed : List Byte) : Nat :=
  source.weight + owed.length

def Ends (e : Ending) : Prop :=
  e = .eof

def Answer.polled (a : Answer) : Outcome (List Byte) × ResponseHeaderInjector × Source :=
  (a.outcome, a.state, a.source)

section Polls

variable {headers : HeaderMap} {interim : List ResponseHead} {final : ResponseHead}
  {body owed : List Byte} {s : ResponseHeaderInjector} {source : Source} {cap : Nat}

theorem copied (hoffset : s.bufferOffset < s.buffer.length) (hcap : 0 < cap) {n : Nat}
    (hn : min (s.buffer.length - s.bufferOffset) cap = n) :
    (s.buffer.drop s.bufferOffset).take n ≠ [] ∧
      s.buffer.drop s.bufferOffset =
        (s.buffer.drop s.bufferOffset).take n ++ s.buffer.drop (s.bufferOffset + n) := by
  constructor
  · apply length_pos_iff.mp
    rw [length_take, length_drop]
    omega
  · rw [← drop_drop, take_append_drop]

theorem measure_less {s s' : ResponseHeaderInjector} {got later : List Byte} (hgot : got ≠ [])
    (howed : owed = got ++ later) : measure s' source later < measure s source owed := by
  have hpos := length_pos_iff.mpr hgot
  rw [measure, measure, howed, length_append]
  omega

variable {done rest : List ResponseHead}

/-- An interim head is served; after it the next head is gathered. -/
theorem serve_interim (hsound : source.Sound) {head : ResponseHead} (hplain : s.Plain headers)
    (hopen : s.complete = false ∧ s.injected = false ∧ s.rawHead = true)
    (hsplit : interim = done ++ head :: rest) (hbuffer : s.buffer = head.bytes)
    (hoffset : s.bufferOffset < s.buffer.length)
    (hstream : s.tail.getD [] ++ source.bytes = stream rest final body) (hcap : 0 < cap)
    (howed : owed = s.buffer.drop s.bufferOffset ++ relayed headers rest final body) :
    PollRule (Inv headers interim final body) measure Ends (measure s source owed) owed
      (s.serve source cap).polled := by
  generalize hn : min (s.buffer.length - s.bufferOffset) cap = n
  rcases copied hoffset hcap hn with ⟨hgot, hdrop⟩
  have hlater : owed = (s.buffer.drop s.bufferOffset).take n ++
      (s.buffer.drop (s.bufferOffset + n) ++ relayed headers rest final body) := by
    rw [← append_assoc, ← hdrop]
    exact howed
  unfold serve Answer.polled Answer.outcome
  dsimp only
  rw [hn]
  refine PollRule.data hgot hlater ⟨hsound, ?_⟩ (measure_less hgot hlater)
  split
  · rename_i hdone
    rw [drop_of_length_le hdone, nil_append]
    unfold emissionDrained rawHeadFullyServed
    rw [if_neg (Bool.eq_false_iff.mp hplain.rawPass_eq), if_pos hopen.2.2,
      if_neg (Bool.eq_false_iff.mp hplain.malformedRaw_eq)]
    have hnext : interim = (done ++ [head]) ++ rest := by
      rw [hsplit, append_assoc, singleton_append]
    exact Phase.gathering ⟨hplain.headers_eq, hplain.malformedRaw_eq, hplain.deadlineSleep_eq,
      hplain.discard_eq, hplain.rawPass_eq⟩ ⟨hopen.1, hopen.2.1, rfl⟩ hnext
      (HeadEndScanner.new_resumes _) hstream
  · rename_i hleft
    exact Phase.interim ⟨hplain.headers_eq, hplain.malformedRaw_eq, hplain.deadlineSleep_eq,
      hplain.discard_eq, hplain.rawPass_eq⟩ hopen hsplit hbuffer (Nat.lt_of_not_le hleft) hstream

/-- The injected head is served; after it the stream is passed through. -/
theorem serve_final (hsound : source.Sound) {arrived : List Byte} (hplain : s.Plain headers)
    (hopen : s.complete = false ∧ s.injected = true ∧ s.rawHead = false)
    (hoffset : s.bufferOffset < s.buffer.length) (hbody : body = arrived ++ source.bytes)
    (hcap : 0 < cap) (howed : owed = s.buffer.drop s.bufferOffset ++ source.bytes) :
    PollRule (Inv headers interim final body) measure Ends (measure s source owed) owed
      (s.serve source cap).polled := by
  generalize hn : min (s.buffer.length - s.bufferOffset) cap = n
  rcases copied hoffset hcap hn with ⟨hgot, hdrop⟩
  have hlater : owed = (s.buffer.drop s.bufferOffset).take n ++
      (s.buffer.drop (s.bufferOffset + n) ++ source.bytes) := by
    rw [← append_assoc, ← hdrop]
    exact howed
  unfold serve Answer.polled Answer.outcome
  dsimp only
  rw [hn]
  refine PollRule.data hgot hlater ⟨hsound, ?_⟩ (measure_less hgot hlater)
  split
  · rename_i hdone
    rw [drop_of_length_le hdone, nil_append]
    unfold emissionDrained
    have hkept : (s.injected && s.discard.isSome) = false := by
      rw [hplain.discard_eq, Option.isSome_none, Bool.and_false]
    rw [if_neg (Bool.eq_false_iff.mp hplain.rawPass_eq), if_neg (Bool.eq_false_iff.mp hopen.2.2),
      if_neg (Bool.eq_false_iff.mp hkept)]
    exact Phase.passing ⟨hplain.headers_eq, hplain.malformedRaw_eq, hplain.deadlineSleep_eq,
      hplain.discard_eq, hplain.rawPass_eq⟩ rfl hbody
  · rename_i hleft
    exact Phase.final ⟨hplain.headers_eq, hplain.malformedRaw_eq, hplain.deadlineSleep_eq,
      hplain.discard_eq, hplain.rawPass_eq⟩ hopen (Nat.lt_of_not_le hleft) hbody

/-- The rest of the stream is read into the caller's buffer. -/
theorem pass_rule (hsound : source.Sound) {arrived : List Byte} (hplain : s.Plain headers)
    (hcomplete : s.complete = true) (hbody : body = arrived ++ source.bytes) (hcap : 0 < cap)
    (howed : owed = source.bytes) :
    PollRule (Inv headers interim final body) measure Ends (measure s source owed) owed
      (s.passThrough source cap).polled := by
  unfold passThrough
  cases hread : source.pollRead cap with
  | mk o source' =>
    have hsound' : source'.Sound := by
      have hpoll := hsound.pollRead cap
      rw [hread] at hpoll
      exact hpoll
    cases o with
    | failed e => exact absurd hread fun hread => hsound.not_failed hread
    | pending =>
      rcases Source.pollRead_pending hread with ⟨hbytes, hweight⟩
      rw [← hbytes] at howed hbody
      refine PollRule.pending ⟨hsound', ?_⟩ ?_
      · rw [howed]
        exact Phase.passing hplain hcomplete hbody
      · exact Nat.add_lt_add_right hweight _
    | ready got =>
      rcases Source.pollRead_ready hread with ⟨hbytes, _⟩
      unfold Answer.polled Answer.outcome
      dsimp only
      rcases hsound.read hcap hread with ⟨hnil, hscript, _⟩ | ⟨hgot, hweight⟩
      · rw [hnil]
        refine PollRule.eof ?_ rfl
        rw [howed, Source.bytes, hscript]
        rfl
      · rw [hbytes] at howed
        rw [hbytes, ← append_assoc] at hbody
        refine PollRule.data hgot howed ⟨hsound', Phase.passing hplain hcomplete hbody⟩ ?_
        rw [measure, measure, howed, length_append]
        omega

/-!
## Gathering
-/

theorem unlines_length_ne_zero {h : ResponseHead} (hlines : h.lines ≠ []) :
    (unlines lf h.lines).length ≠ 0 := by
  have hle := length_le_unlines h.lines
  have hpos := length_pos_iff.mpr hlines
  omega

theorem lines_ne_nil {h : ResponseHead} {c : Nat} (hstatus : h.status = some c) :
    h.lines ≠ [] := by
  rcases ResponseHead.lines_of_status hstatus with ⟨first, rest, hlines, _⟩
  rw [hlines]
  exact cons_ne_nil first rest

theorem stream_append (done rest : List ResponseHead) (final : ResponseHead) (body : List Byte) :
    stream (done ++ rest) final body =
      done.flatMap ResponseHead.bytes ++ stream rest final body := by
  rw [stream, flatMap_append, append_assoc, stream]

theorem stream_cons (head : ResponseHead) (rest : List ResponseHead) (final : ResponseHead)
    (body : List Byte) :
    stream (head :: rest) final body = head.bytes ++ stream rest final body := by
  rw [stream, flatMap_cons, append_assoc, stream]

theorem relayed_append (headers : HeaderMap) (done rest : List ResponseHead)
    (final : ResponseHead) (body : List Byte) :
    relayed headers (done ++ rest) final body =
      done.flatMap ResponseHead.bytes ++ relayed headers rest final body := by
  rw [relayed, flatMap_append, append_assoc, relayed]

theorem relayed_cons (headers : HeaderMap) (head : ResponseHead) (rest : List ResponseHead)
    (final : ResponseHead) (body : List Byte) :
    relayed headers (head :: rest) final body =
      head.bytes ++ relayed headers rest final body := by
  rw [relayed, flatMap_cons, append_assoc, relayed]

variable {more : List Byte}

/-- A whole interim head is put up for serving. -/
theorem classify_interim {head : ResponseHead} (hplain : s.Plain headers)
    (hidle : s.complete = false ∧ s.injected = false ∧ s.rawHead = false) (hhead : head.Interim)
    (hsplit : interim = done ++ head :: rest) (hbuffer : s.buffer = head.bytes ++ more)
    (hstream : more ++ source.bytes = stream rest final body) (hsound : source.Sound)
    (hcap : 0 < cap) (howed : owed = relayed headers (head :: rest) final body) :
    exists s', s.classify head.bytes.length source = .found s' ∧
      PollRule (Inv headers interim final body) measure Ends (measure s source owed) owed
        (s'.serve source cap).polled := by
  rcases hhead.status_eq with ⟨c, hstatus, hlow, hhigh, hswitch⟩
  have hraw : servedRaw (some c) = true := by
    simp [servedRaw, hlow, hhigh, hswitch]
  refine ⟨s.serveRaw head.bytes.length false, ?_, ?_⟩
  · unfold classify
    rw [hbuffer, ResponseHead.blankStart_eq (lines_ne_nil hstatus),
      if_neg (unlines_length_ne_zero (lines_ne_nil hstatus))]
    rw [take_left, show headStatusCode head.bytes = some c from hstatus, if_pos hraw]
    rfl
  · have htake : (s.serveRaw head.bytes.length false).buffer = head.bytes := by
      show s.buffer.take head.bytes.length = head.bytes
      rw [hbuffer, take_left]
    have htail : (s.serveRaw head.bytes.length false).tail.getD [] = more := by
      show s.buffer.drop head.bytes.length = more
      rw [hbuffer, drop_left]
    have hplain' : (s.serveRaw head.bytes.length false).Plain headers :=
      ⟨hplain.headers_eq, rfl, hplain.deadlineSleep_eq, hplain.discard_eq, hplain.rawPass_eq⟩
    have hpos : 0 < head.bytes.length := by
      rw [ResponseHead.bytes, length_append, length_singleton]
      exact Nat.succ_pos _
    refine serve_interim hsound hplain' ⟨hidle.1, hidle.2.1, rfl⟩ hsplit htake ?_ ?_ hcap ?_
    · rw [htake]
      exact hpos
    · rw [htail]
      exact hstream
    · rw [howed, relayed_cons, htake]
      rfl

theorem inject_buffer {c : Nat} (hheaders : s.headers = headers) (hstatus : final.status = some c)
    (h204 : c ≠ 204) (h304 : c ≠ 304) (hbuffer : s.buffer = final.bytes ++ more) :
    s.inject final.bytes.length (some c) =
      { s with
        bufferOffset := 0
        headScanner := HeadEndScanner.new
        injected := true
        buffer := injectedHead headers final ++ more } := by
  have hsuppress : suppressedHeadersForStatus (some c) = [] := by
    unfold suppressedHeadersForStatus
    split
    · rename_i heq
      cases heq
      exact absurd rfl h304
    · rename_i heq
      cases heq
      exact absurd rfl h204
    · rfl
  have hbody : ¬ (some c = some 204 ∨ some c = some 304) := by
    rw [Option.some_inj, Option.some_inj]
    exact not_or.mpr ⟨h204, h304⟩
  have hblank : final.bytes = unlines lf final.lines ++ (final.blank ++ [lf]) := by
    rw [ResponseHead.bytes, append_assoc]
  have htake : s.buffer.take (unlines lf final.lines).length = unlines lf final.lines := by
    rw [hbuffer, hblank, append_assoc, take_left]
  have hdrop : s.buffer.drop (unlines lf final.lines).length = final.blank ++ [lf] ++ more := by
    rw [hbuffer, hblank, append_assoc, drop_left]
  unfold inject
  dsimp only
  rw [hbuffer, ResponseHead.blankStart_eq (lines_ne_nil hstatus), ← hbuffer, if_neg hbody]
  rw [hsuppress, htake, hdrop, hheaders, ResponseHead.splice_lines hstatus, emitHeaders_eq,
    ← configuredLines, ← append_assoc, injectedHead]

/-- The final head is put up for serving with the configured headers. -/
theorem classify_final (hplain : s.Plain headers)
    (hidle : s.complete = false ∧ s.injected = false ∧ s.rawHead = false) (hfinal : final.Final)
    (hbuffer : s.buffer = final.bytes ++ more) (hbody : more ++ source.bytes = body)
    (hsound : source.Sound) (hcap : 0 < cap) (howed : owed = relayed headers [] final body) :
    exists s', s.classify final.bytes.length source = .found s' ∧
      PollRule (Inv headers interim final body) measure Ends (measure s source owed) owed
        (s'.serve source cap).polled := by
  rcases hfinal.status_eq with ⟨c, hstatus, hclass, h204, h304⟩
  have hraw : servedRaw (some c) = false := by
    simp only [servedRaw, Bool.and_eq_false_iff, decide_eq_false_iff_not]
    omega
  have hinject := inject_buffer hplain.headers_eq hstatus h204 h304 hbuffer
  refine ⟨s.inject final.bytes.length (some c), ?_, ?_⟩
  · unfold classify
    rw [hbuffer, ResponseHead.blankStart_eq (lines_ne_nil hstatus),
      if_neg (unlines_length_ne_zero (lines_ne_nil hstatus))]
    rw [take_left, show headStatusCode final.bytes = some c from hstatus,
      if_neg (Bool.eq_false_iff.mp hraw)]
  · generalize s.inject final.bytes.length (some c) = s' at hinject
    have hbuffer' : s'.buffer = injectedHead headers final ++ more := by rw [hinject]
    have hoffset : s'.bufferOffset = 0 := by rw [hinject]
    have hplain' : s'.Plain headers := by
      rw [hinject]
      exact ⟨hplain.headers_eq, hplain.malformedRaw_eq, hplain.deadlineSleep_eq,
        hplain.discard_eq, hplain.rawPass_eq⟩
    have hopen : s'.complete = false ∧ s'.injected = true ∧ s'.rawHead = false := by
      rw [hinject]
      exact ⟨hidle.1, rfl, hidle.2.2⟩
    refine serve_final hsound hplain' hopen ?_ hbody.symm hcap ?_
    · rw [hoffset, hbuffer', injectedHead]
      simp
    · rw [howed, relayed, ← hbody, hoffset, hbuffer', flatMap_nil, nil_append,
        drop_zero, append_assoc]

/-- The next head is being gathered. -/
structure Gathers (headers : HeaderMap) (rest : List ResponseHead) (final : ResponseHead)
    (body : List Byte) (s : ResponseHeaderInjector) (source : Source) : Prop where
  sound : source.Sound
  plain : s.Plain headers
  idle : s.complete = false ∧ s.injected = false ∧ s.rawHead = false
  scan : s.headScanner.Resumes s.buffer
  stream_eq : s.buffer ++ source.bytes = stream rest final body

theorem Gathers.inv (h : Gathers headers rest final body s source) (hsplit : interim = done ++ rest) :
    Inv headers interim final body s source (relayed headers rest final body) :=
  ⟨h.sound, Phase.gathering h.plain h.idle hsplit h.scan h.stream_eq⟩

theorem next_head {done rest : List ResponseHead} (hsplit : interim = done ++ rest)
    (hinterim : forall head, head ∈ interim -> head.Interim) (hfinal : final.Final) :
    exists head : ResponseHead, head.bytes.length ≤ 61440 ∧
      exists later, stream rest final body = head.bytes ++ later := by
  cases rest with
  | nil => exact ⟨final, hfinal.short, body, rfl⟩
  | cons head rest =>
    have hmem : head ∈ interim := by
      rw [hsplit]
      exact mem_append_right _ mem_cons_self
    exact ⟨head, (hinterim head hmem).short, stream rest final body, stream_cons _ _ _ _⟩

/-- A turn without a whole head waits, or reads something that fits. -/
theorem gatherMore_rule (hsplit : interim = done ++ rest)
    (hinterim : forall head, head ∈ interim -> head.Interim) (hfinal : final.Final)
    (h : Gathers headers rest final body s source) (hnone : headEnd s.buffer = none)
    (howed : owed = relayed headers rest final body) :
    (exists s' source', s.gatherMore source = .finish .pending s' source' ∧
      Inv headers interim final body s' source' owed ∧
      measure s' source' owed < measure s source owed) ∨
    (exists s' source', s.gatherMore source = .again s' source' ∧
      Gathers headers rest final body s' source' ∧ source'.weight < source.weight) := by
  rcases @next_head interim final body done rest hsplit hinterim hfinal with
    ⟨head, hshort, later, hnext⟩
  have hplain := h.plain
  have hstream := h.stream_eq
  rw [hnext] at hstream
  have hlength := head.isHead.short hnone hstream
  have hsame : { s with deadlineSleep := s.deadlineSleep.map fun n => n - 1 } = s := by
    rw [hplain.deadlineSleep_eq, Option.map_none, ← hplain.deadlineSleep_eq]
  have hawake : ¬ s.deadlineSleep = some 0 := by
    rw [hplain.deadlineSleep_eq]
    intro hfired
    cases hfired
  unfold gatherMore
  rw [if_neg hawake, hsame]
  cases hread : source.pollRead 4096 with
  | mk o source' =>
    have hsound' : source'.Sound := by
      have hpoll := h.sound.pollRead 4096
      rw [hread] at hpoll
      exact hpoll
    cases o with
    | failed e => exact absurd hread fun hread => h.sound.not_failed hread
    | pending =>
      rcases Source.pollRead_pending hread with ⟨hbytes, hweight⟩
      have hstream' := h.stream_eq
      rw [← hbytes] at hstream'
      have hgathers : Gathers headers rest final body s source' :=
        ⟨hsound', hplain, h.idle, h.scan, hstream'⟩
      refine .inl ⟨s, source', rfl, howed ▸ hgathers.inv hsplit, ?_⟩
      exact Nat.add_lt_add_right hweight _
    | ready got =>
      rcases Source.pollRead_ready hread with ⟨hbytes, hgotLength⟩
      rcases h.sound.read (by decide) hread with ⟨_, hscript, _⟩ | ⟨hgot, hweight⟩
      · have hempty : source.bytes = [] := by
          rw [Source.bytes, hscript]
          rfl
        rw [hempty, append_nil] at hstream
        rw [hstream, length_append] at hlength
        omega
      · have hfits : ¬ s.buffer.length + got.length > 65536 := by omega
        have hstream' := h.stream_eq
        rw [hbytes, ← append_assoc] at hstream'
        dsimp only
        rw [if_neg hgot, if_neg hfits]
        refine .inr ⟨_, source', rfl, ⟨hsound', ?_, h.idle, h.scan.append got, hstream'⟩,
          hweight⟩
        exact ⟨hplain.headers_eq, hplain.malformedRaw_eq, hplain.deadlineSleep_eq,
          hplain.discard_eq, hplain.rawPass_eq⟩

theorem classify_rule {done rest : List ResponseHead} (hsplit : interim = done ++ rest)
    (hinterim : forall head, head ∈ interim -> head.Interim) (hfinal : final.Final)
    (hsound : source.Sound) (hplain : s.Plain headers)
    (hidle : s.complete = false ∧ s.injected = false ∧ s.rawHead = false)
    (hstream : s.buffer ++ source.bytes = stream rest final body) {n : Nat}
    (hend : headEnd s.buffer = some n) (hcap : 0 < cap)
    (howed : owed = relayed headers rest final body) :
    exists s', s.classify n source = .found s' ∧
      PollRule (Inv headers interim final body) measure Ends (measure s source owed) owed
        (s'.serve source cap).polled := by
  cases rest with
  | nil =>
    rcases final.isHead.found hend hstream with ⟨hn, more, hbuffer, hbody⟩
    rw [hn]
    exact classify_final hplain hidle hfinal hbuffer hbody.symm hsound hcap howed
  | cons head rest =>
    have hmem : head ∈ interim := by
      rw [hsplit]
      exact mem_append_right _ mem_cons_self
    rw [stream_cons] at hstream
    rcases head.isHead.found hend hstream with ⟨hn, more, hbuffer, hrest⟩
    rw [hn]
    exact classify_interim hplain hidle (hinterim head hmem) hsplit hbuffer hrest.symm hsound hcap
      howed

theorem gather_rule (hsplit : interim = done ++ rest)
    (hinterim : forall head, head ∈ interim -> head.Interim) (hfinal : final.Final)
    (h : Gathers headers rest final body s source) (hcap : 0 < cap) {fuel : Nat}
    (hfuel : source.weight < fuel) (howed : owed = relayed headers rest final body) :
    PollRule (Inv headers interim final body) measure Ends (measure s source owed) owed
      (gather cap fuel s source).polled := by
  induction fuel generalizing s source with
  | zero => exact absurd hfuel (Nat.not_lt_zero _)
  | succ fuel ih =>
    have hmore : forall s', Gathers headers rest final body s' source ->
        headEnd s'.buffer = none -> s.turn source = s'.gatherMore source ->
        PollRule (Inv headers interim final body) measure Ends (measure s source owed) owed
          (gather cap (fuel + 1) s source).polled := by
      intro s' h' hnone hturn
      rw [gather, hturn]
      rcases gatherMore_rule hsplit hinterim hfinal h' hnone howed with
        ⟨s'', source', hfinish, hinv, hless⟩ | ⟨s'', source', hagain, hnext, hweight⟩
      · rw [hfinish]
        exact PollRule.pending hinv hless
      · rw [hagain]
        refine (ih hnext (by omega)).mono ?_
        rw [measure, measure]
        omega
    by_cases hnil : s.buffer = []
    · apply hmore s h
      · rw [hnil]
        rfl
      · rw [turn, if_pos hnil]
    · have hfeed := HeadEndScanner.feed_eq h.scan
      have hresumes := HeadEndScanner.feed_resumes h.scan
      cases hscan : s.headScanner.feed s.buffer with
      | mk found scanner =>
        rw [hscan] at hfeed hresumes
        have hplain : Plain headers { s with headScanner := scanner } :=
          ⟨h.plain.headers_eq, h.plain.malformedRaw_eq, h.plain.deadlineSleep_eq,
            h.plain.discard_eq, h.plain.rawPass_eq⟩
        cases found with
        | none =>
          apply hmore { s with headScanner := scanner }
            ⟨h.sound, hplain, h.idle, hresumes hfeed.symm, h.stream_eq⟩ hfeed.symm
          rw [turn, if_neg hnil, hscan]
        | some n =>
          have hturn : s.turn source =
              classify { s with headScanner := scanner } n source := by
            rw [turn, if_neg hnil, hscan]
          rcases @classify_rule _ _ _ _ owed { s with headScanner := scanner } source cap _ _
            hsplit hinterim hfinal h.sound hplain h.idle h.stream_eq n hfeed.symm hcap howed
            with ⟨s', hfound, hrule⟩
          rw [gather, hturn, hfound]
          exact hrule

/-- Every poll delivers a part of what is owed, waits, or finds the end with nothing owed. -/
theorem injector_serves (hinterim : forall head, head ∈ interim -> head.Interim)
    (hfinal : final.Final) :
    injectorReader.Serves (Inv headers interim final body) measure Ends
      fun _ _ cap => 0 < cap := by
  intro s source owed cap hinv hcap
  rcases hinv with ⟨hsound, hphase⟩
  show PollRule _ _ _ _ _ (s.pollAnswer source cap).polled
  unfold pollAnswer
  cases hphase with
  | gathering hplain hidle hsplit hscan hstream =>
    have hquiet : s.emits = false := by
      rw [emits, hidle.2.1, hidle.2.2, hplain.rawPass_eq]
      rfl
    rw [if_neg (Bool.eq_false_iff.mp hidle.1), if_neg (Bool.eq_false_iff.mp hquiet),
      hplain.discard_eq]
    exact gather_rule hsplit hinterim hfinal ⟨hsound, hplain, hidle, hscan, hstream⟩ hcap
      (Nat.lt_succ_self _) rfl
  | interim hplain hopen hsplit hbuffer hoffset hstream =>
    have hemits : s.emits = true := by
      rw [emits, hopen.2.2, Bool.or_true, Bool.true_or, Bool.true_and]
      exact decide_eq_true hoffset
    rw [if_neg (Bool.eq_false_iff.mp hopen.1), if_pos hemits]
    exact serve_interim hsound hplain hopen hsplit hbuffer hoffset hstream hcap rfl
  | final hplain hopen hoffset hbody =>
    have hemits : s.emits = true := by
      rw [emits, hopen.2.1, Bool.true_or, Bool.true_or, Bool.true_and]
      exact decide_eq_true hoffset
    rw [if_neg (Bool.eq_false_iff.mp hopen.1), if_pos hemits]
    exact serve_final hsound hplain hopen hoffset hbody hcap rfl
  | passing hplain hcomplete hbody =>
    rw [if_pos hcomplete, if_neg (Bool.eq_false_iff.mp hplain.malformedRaw_eq)]
    exact pass_rule hsound hplain hcomplete hbody hcap rfl

/-!
## Polls of any injector
-/

theorem passThrough_pending (h : (s.passThrough source cap).poll = .pending) :
    (s.passThrough source cap).filled = [] := by
  unfold passThrough at h ⊢
  split
  · rfl
  · rename_i hread
    rw [hread] at h
    cases h
  · split
    · rfl
    · rfl

theorem gather_pending {fuel : Nat} (h : (gather cap fuel s source).poll = .pending) :
    (gather cap fuel s source).filled = [] := by
  induction fuel generalizing s source with
  | zero => rfl
  | succ fuel ih =>
    unfold gather at h ⊢
    split
    · rename_i hturn
      rw [hturn] at h
      exact ih h
    · rename_i hturn
      rw [hturn] at h
      cases h
    · rfl

theorem runDiscard_pending {d : Discard} (h : (s.runDiscard d source cap).poll = .pending) :
    (s.runDiscard d source cap).filled = [] := by
  unfold runDiscard at h ⊢
  dsimp only at h ⊢
  split
  · rename_i hserve
    rw [if_pos hserve] at h
    cases h
  · rename_i hserve
    rw [if_neg hserve] at h
    split
    · rfl
    · rename_i hraw
      rw [if_neg hraw] at h
      exact passThrough_pending h

theorem pollAnswer_pending (h : (s.pollAnswer source cap).poll = .pending) :
    (s.pollAnswer source cap).filled = [] := by
  unfold pollAnswer at h ⊢
  split
  · rename_i hcomplete
    rw [if_pos hcomplete] at h
    split
    · rfl
    · rename_i hraw
      rw [if_neg hraw] at h
      exact passThrough_pending h
  · rename_i hcomplete
    rw [if_neg hcomplete] at h
    split
    · rename_i hemits
      rw [if_pos hemits] at h
      cases h
    · rename_i hemits
      rw [if_neg hemits] at h
      split
      · rename_i hdiscard
        rw [hdiscard] at h
        exact runDiscard_pending h
      · rename_i hdiscard
        rw [hdiscard] at h
        exact gather_pending h

theorem passThrough_suffix (s : ResponseHeaderInjector) (source : Source) (cap : Nat) :
    (s.passThrough source cap).source.bytes <:+ source.bytes := by
  have hsuffix := source.pollRead_suffix cap
  unfold passThrough
  split
  · rename_i hread
    rw [hread] at hsuffix
    exact hsuffix
  · rename_i hread
    rw [hread] at hsuffix
    exact hsuffix
  · rename_i hread
    rw [hread] at hsuffix
    split
    · exact hsuffix
    · exact hsuffix

def Turn.left (source : Source) : Turn -> List Byte
  | .again _ source' => source'.bytes
  | .found _ => source.bytes
  | .finish _ _ source' => source'.bytes

theorem gatherMore_suffix (s : ResponseHeaderInjector) (source : Source) :
    (s.gatherMore source).left source <:+ source.bytes := by
  have hsuffix := source.pollRead_suffix 4096
  unfold gatherMore
  split
  · exact suffix_rfl
  · dsimp only
    split
    · rename_i hread
      rw [hread] at hsuffix
      exact hsuffix
    · rename_i hread
      rw [hread] at hsuffix
      exact hsuffix
    · rename_i hread
      rw [hread] at hsuffix
      split
      · exact hsuffix
      · split
        · exact hsuffix
        · exact hsuffix

theorem turn_suffix (s : ResponseHeaderInjector) (source : Source) :
    (s.turn source).left source <:+ source.bytes := by
  unfold turn
  split
  · exact gatherMore_suffix s source
  · split
    · unfold classify
      split
      · exact suffix_rfl
      · dsimp only
        split
        · exact suffix_rfl
        · exact suffix_rfl
    · exact gatherMore_suffix _ source

theorem gather_suffix (cap fuel : Nat) (s : ResponseHeaderInjector) (source : Source) :
    (gather cap fuel s source).source.bytes <:+ source.bytes := by
  induction fuel generalizing s source with
  | zero => exact suffix_rfl
  | succ fuel ih =>
    have hturn := s.turn_suffix source
    unfold gather
    split
    · rename_i s' source' heq
      rw [heq] at hturn
      exact (ih s' source').trans hturn
    · exact suffix_rfl
    · rename_i heq
      rw [heq] at hturn
      exact hturn

theorem pollAnswer_suffix (s : ResponseHeaderInjector) (source : Source) (cap : Nat) :
    (s.pollAnswer source cap).source.bytes <:+ source.bytes := by
  unfold pollAnswer
  split
  · split
    · exact suffix_rfl
    · exact passThrough_suffix s source cap
  · split
    · exact suffix_rfl
    · split
      · unfold runDiscard
        dsimp only
        split
        · exact suffix_rfl
        · split
          · exact suffix_rfl
          · exact passThrough_suffix _ source cap
      · exact gather_suffix cap _ s source

end Polls

/-!
## Runs
-/

/-- A head of which something was delivered has been read to its end. -/
def HeldBack (interim : List ResponseHead) (final : ResponseHead) (body : List Byte)
    (s : Reading ResponseHeaderInjector) : Prop :=
  forall before head after, interim ++ [final] = before ++ head :: after ->
    (before.flatMap ResponseHead.bytes).length < s.delivered.length ->
      exists later, stream interim final body =
        before.flatMap ResponseHead.bytes ++ head.bytes ++ later ++ s.source.bytes

section Runs

variable {headers : HeaderMap} {interim : List ResponseHead} {final : ResponseHead}
  {body owed : List Byte} {s : Reading ResponseHeaderInjector}

theorem heldBack_of_done {done more : List ResponseHead} {later : List Byte}
    (hheads : interim ++ [final] = done ++ more)
    (hstream : stream interim final body =
      done.flatMap ResponseHead.bytes ++ later ++ s.source.bytes)
    (hdelivered : s.delivered.length ≤ (done.flatMap ResponseHead.bytes).length ∨ more = []) :
    HeldBack interim final body s := by
  intro before head after hsame hlt
  have hread : exists mid, done = before ++ head :: mid := by
    rw [hheads] at hsame
    rcases append_eq_append_iff.mp hsame with ⟨extra, hbefore, hmore⟩ | ⟨extra, hdone, hrest⟩
    · rcases hdelivered with hle | hnil
      · rw [hbefore, flatMap_append, length_append] at hlt
        omega
      · rw [hnil] at hmore
        cases append_eq_nil_iff.mp hmore.symm with
        | intro _ hcons => cases hcons
    · cases extra with
      | nil =>
        rcases hdelivered with hle | hnil
        · rw [hdone, append_nil] at hle
          omega
        · rw [hnil] at hrest
          cases hrest
      | cons first mid =>
        cases hrest
        exact ⟨mid, hdone⟩
  rcases hread with ⟨mid, hdone⟩
  refine ⟨mid.flatMap ResponseHead.bytes ++ later, ?_⟩
  rw [hstream, hdone, flatMap_append, flatMap_cons]
  simp only [append_assoc]

theorem heldBack_of_inv (hinv : Inv headers interim final body s.state s.source owed)
    (howed : s.delivered ++ owed = relayed headers interim final body) :
    HeldBack interim final body s := by
  rcases hinv with ⟨_, hphase⟩
  cases hphase with
  | @gathering done rest _ _ hsplit _ hstream =>
    have hdelivered : s.delivered = done.flatMap ResponseHead.bytes := by
      rw [hsplit, relayed_append] at howed
      exact append_cancel_right howed
    apply @heldBack_of_done _ _ _ _ done (rest ++ [final]) s.state.buffer
    · rw [hsplit, append_assoc]
    · rw [hsplit, stream_append, ← hstream, ← append_assoc]
    · rw [hdelivered]
      exact .inl (Nat.le_refl _)
  | @interim done rest head _ _ hsplit hbuffer hoffset hstream =>
    have hdelivered : s.delivered ++ s.state.buffer.drop s.state.bufferOffset =
        (done ++ [head]).flatMap ResponseHead.bytes := by
      rw [hsplit, relayed_append, relayed_cons, ← append_assoc, ← append_assoc] at howed
      rw [append_cancel_right howed]
      simp
    apply @heldBack_of_done _ _ _ _ (done ++ [head]) (rest ++ [final]) (s.state.tail.getD [])
    · rw [hsplit]
      simp
    · rw [hsplit, stream_append, stream_cons, ← hstream]
      simp
    · left
      rw [← hdelivered, length_append]
      exact Nat.le_add_right _ _
  | @final arrived _ _ _ hbody =>
    apply @heldBack_of_done _ _ _ _ (interim ++ [final]) [] arrived
    · rw [append_nil]
    · rw [stream, hbody]
      simp
    · exact .inr rfl
  | @passing arrived _ _ hbody =>
    apply @heldBack_of_done _ _ _ _ (interim ++ [final]) [] arrived
    · rw [append_nil]
    · rw [stream, hbody]
      simp
    · exact .inr rfl

theorem step_heldBack (hinterim : forall head, head ∈ interim -> head.Interim)
    (hfinal : final.Final) {cap : Nat} (hcap : 0 < cap)
    (howes : s.Owes (Inv headers interim final body) Ends (relayed headers interim final body))
    (hheld : HeldBack interim final body s) :
    (injectorReader.step s cap).Owes (Inv headers interim final body) Ends
        (relayed headers interim final body) ∧
      HeldBack interim final body (injectorReader.step s cap) := by
  have hnext := (injector_serves hinterim hfinal).step s cap howes fun _ => hcap
  refine ⟨hnext, ?_⟩
  rcases hnext with ⟨_, owed, htotal, hinv⟩ | ⟨e, hend, _, _⟩
  · exact heldBack_of_inv hinv htotal
  · have hdelivered : (injectorReader.step s cap).delivered = s.delivered := by
      apply Reader.step_delivered
      rw [hend]
      rfl
    have hsource : (injectorReader.step s cap).source.bytes <:+ s.source.bytes := by
      rw [Reader.step_source]
      exact pollAnswer_suffix s.state s.source cap
    rcases hsource with ⟨got, hgot⟩
    intro before head after hheads hlt
    rw [hdelivered] at hlt
    rcases hheld before head after hheads hlt with ⟨later, hlater⟩
    refine ⟨later ++ got, ?_⟩
    rw [hlater, ← hgot]
    simp only [append_assoc]

end Runs

/-- Whatever the cuts of the stream and the buffers of the client: the client has got the beginning
of the interim heads, the injected head and the rest, and all of it once the stream has ended;
enough polls end it; a head is held back until it is complete; and no poll that waits has filled
anything. -/
theorem injector_delivers (headers : HeaderMap) (interim : List ResponseHead)
    (final : ResponseHead) (body : List Byte)
    (hinterim : forall head, head ∈ interim -> head.Interim) (hfinal : final.Final)
    (script : List ReadEvent) (hsound : Source.Sound ⟨script⟩)
    (hbytes : Source.bytes ⟨script⟩ = stream interim final body) (caps : List Nat)
    (hcaps : forall cap, cap ∈ caps -> 0 < cap) :
    let s := Run.run injectorReader.step (Reading.start (new headers none) script) caps
    (exists owed, s.delivered ++ owed = relayed headers interim final body ∧
      (s.ending = none ∨ s.ending = some .eof ∧ owed = [])) ∧
    (Source.weight ⟨script⟩ + (relayed headers interim final body).length < caps.length ->
      s.ending = some .eof) ∧
    HeldBack interim final body s ∧
    forall cap, (s.state.pollAnswer s.source cap).poll = .pending ->
      (s.state.pollAnswer s.source cap).filled = [] := by
  intro s
  have hstart : Inv headers interim final body (new headers none) ⟨script⟩
      (relayed headers interim final body) := by
    refine ⟨hsound, @Phase.gathering _ _ _ _ (new headers none) ⟨script⟩ [] interim
      ⟨rfl, rfl, rfl, rfl, rfl⟩ ⟨rfl, rfl, rfl⟩ rfl (HeadEndScanner.new_resumes _) ?_⟩
    rw [← hbytes]
    rfl
  have hpolls : Run.Along injectorReader.step (Reading.Polls fun _ _ cap => 0 < cap)
      (Reading.start (new headers none) script) caps :=
    Run.along_of_forall fun _ cap hmem _ => hcaps cap hmem
  have hpositive : Run.Along injectorReader.step (fun _ cap => 0 < cap)
      (Reading.start (new headers none) script) caps :=
    Run.along_of_forall fun _ cap hmem => hcaps cap hmem
  have hrun : s.Owes (Inv headers interim final body) Ends
      (relayed headers interim final body) ∧ HeldBack interim final body s := by
    apply @Run.run_invariant _ _ injectorReader.step (fun _ cap => 0 < cap)
      (fun s => s.Owes (Inv headers interim final body) Ends
        (relayed headers interim final body) ∧ HeldBack interim final body s)
    · intro s cap h hcap
      exact step_heldBack hinterim hfinal hcap h.1 h.2
    · constructor
      · exact .inl ⟨rfl, _, rfl, hstart⟩
      · intro before head after _ hlt
        exact absurd hlt (Nat.not_lt_zero _)
    · exact hpositive
  rcases hrun with ⟨howes, hheld⟩
  refine ⟨?_, ?_, hheld, fun cap hpending => pollAnswer_pending hpending⟩
  · rcases howes with ⟨hnone, owed, htotal, _⟩ | ⟨e, hend, hfinal, htotal⟩
    · exact ⟨owed, htotal, .inl hnone⟩
    · rw [show e = .eof from hfinal] at hend
      exact ⟨[], by rw [append_nil, htotal], .inr ⟨hend, rfl⟩⟩
  · intro hlong
    have hended := (injector_serves hinterim hfinal).ends hstart hpolls hlong
    rcases howes with ⟨hnone, _⟩ | ⟨e, hend, hfinal, _⟩
    · rw [show s.ending = none from hnone] at hended
      cases hended
    · rw [hend, show e = .eof from hfinal]

def sampleHeaders : HeaderMap :=
  AList.insert (utf8 "X-Frame") (utf8 "deny") ∅

def sampleInterim : ResponseHead where
  lines := [utf8 "HTTP/1.1 100 Continue\r"]
  blank := [cr]
  lines_filled := by
    unfold Filled
    decide +kernel
  blank_blank := by
    unfold Blank
    decide

def sampleFinal : ResponseHead where
  lines := [utf8 "HTTP/1.1 200 OK\r", utf8 "x-frame: allow\r", utf8 " old\r"]
  blank := [cr]
  lines_filled := by
    unfold Filled
    decide +kernel
  blank_blank := by
    unfold Blank
    decide

def sampleScript : List ReadEvent :=
  [.chunk (utf8 "HTTP/1.1 100 Continue\r\n\r\nHTTP/1.1 200 O"), .pending,
    .chunk (utf8 "K\r\nx-frame: allow\r\n old\r\n\r\nh"), .chunk (utf8 "i")]

theorem injector_delivers_sample :
    (Run.run injectorReader.step (Reading.start (new sampleHeaders none) sampleScript)
        (replicate 200 7)).delivered =
      utf8 "HTTP/1.1 100 Continue\r\n\r\nHTTP/1.1 200 OK\r\nX-Frame: deny\r\n\r\nhi" := by
  have hinterim : sampleInterim.Interim :=
    ⟨⟨100, by decide +kernel, by decide, by decide, by decide⟩, by decide +kernel⟩
  have hfinal : sampleFinal.Final :=
    ⟨⟨200, by decide +kernel, by decide, by decide, by decide⟩, by decide +kernel⟩
  have hdelivers := injector_delivers sampleHeaders [sampleInterim] sampleFinal (utf8 "hi")
    (by
      intro head hmem
      rw [mem_singleton.mp hmem]
      exact hinterim)
    hfinal sampleScript (by decide +kernel) (by decide +kernel) (replicate 200 7)
    (by
      intro cap hmem
      rw [eq_of_mem_replicate hmem]
      decide)
  have hended := hdelivers.2.1 (by decide +kernel)
  rcases hdelivers.1 with ⟨owed, htotal, hnone | ⟨_, hnil⟩⟩
  · rw [hended] at hnone
    cases hnone
  · rw [hnil, append_nil] at htotal
    exact htotal.trans (by decide +kernel)

end ResponseHeaderInjector

end Injector
end Http
end FrpRs
