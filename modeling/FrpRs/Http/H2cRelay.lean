import FrpRs.Http.H2cResponse

/-!
# What an HTTP/2 client gets of a response

A response that ends cleanly has the whole body, as the backend framed it, and as many bytes as
its head announces.  How the backend's answer was cut into pieces has no part in that.
-/

namespace FrpRs
namespace Http
namespace H2c

open List Bytes Lines Textproto

/-!
## Framing
-/

def chunkSize (line : List Byte) : Option Nat :=
  parseHex (trimOws (sizePart (trimOws (chomp line))))

def IsLine (line : List Byte) : Prop :=
  exists content, lf ∉ content ∧ line = content ++ [lf]

/-- What may be read as a line: a line, or a line with the bytes after it up to the first carriage
return and line feed, which one read can bring together with the end of the line. -/
def TakenLine (line : List Byte) : Prop :=
  line.length ≤ 65536 ∧ (IsLine line ∨ exists first more, lf ∉ first ∧
    line = first ++ lf :: more ∧ more.length < 8192 ∧
      BodyReader.findCrlf line = some (line.length - 2))

section Framing

variable (Line : List Byte -> Prop)

/-- Trailer fields up to a blank line, before anything else. -/
inductive Trailers : List Byte -> Prop
  | blank {line rest : List Byte} : Line line -> isBlankLine line = true ->
      Trailers (line ++ rest)
  | field {line rest : List Byte} : Line line -> isBlankLine line = false -> Trailers rest ->
      Trailers (line ++ rest)

/-- The bytes start with a chunked body of this data.  Blank lines before a chunk line are
passed over. -/
inductive ChunkedBody : List Byte -> List Byte -> Prop
  | blank {line rest data : List Byte} : Line line -> trimOws (chomp line) = [] ->
      ChunkedBody rest data -> ChunkedBody (line ++ rest) data
  | last {line rest : List Byte} : Line line -> trimOws (chomp line) ≠ [] ->
      chunkSize line = some 0 -> Trailers Line rest -> ChunkedBody (line ++ rest) []
  | chunk {line span rest data : List Byte} : Line line -> trimOws (chomp line) ≠ [] ->
      chunkSize line = some span.length -> span ≠ [] -> ChunkedBody rest data ->
      ChunkedBody (line ++ (span ++ crlf ++ rest)) (span ++ data)

end Framing

/-- The buffer is at most 1 MiB long before the read of at most 4 KiB that completes a head. -/
structure IsHeadOf (crate : HttpCrate) (head : List Byte) (p : ParsedHead) : Prop where
  parsed : parseResponseHead crate head = some p
  offset : p.bodyOffset = head.length
  short : head.length ≤ 1048576 + 4096

/-- Interim heads before the head that is answered with. -/
inductive Leads (crate : HttpCrate) : List Byte -> ParsedHead -> Prop
  | final {head : List Byte} {p : ParsedHead} : IsHeadOf crate head p ->
      ¬ (100 ≤ p.status ∧ p.status ≤ 199) -> Leads crate head p
  | interim {head heads : List Byte} {q p : ParsedHead} : IsHeadOf crate head q ->
      100 ≤ q.status ∧ q.status ≤ 199 -> q.status ≠ 101 -> Leads crate heads p ->
      Leads crate (head ++ heads) p

def Delivered (Line : List Byte -> Prop) (p : ParsedHead) (fails : Bool) (rest data : List Byte) :
    Prop :=
  if p.bodiless then data = []
  else if p.chunked then ChunkedBody Line rest data
  else match p.contentLength with
    | some n => n ≤ rest.length ∧ data = rest.take n
    | none => data = rest ∧ fails = false

def BodyKept (crate : HttpCrate) (source : Source) : Answer -> Prop
  | .page _ => True
  | .relay r => r.ending = .clean -> exists heads p rest, Leads crate heads p ∧
      source.bytes = heads ++ rest ∧ Delivered IsLine p source.fails rest r.frames.flatten

def LengthKept (r : Response) : Prop :=
  r.ending = .clean -> forall row, row ∈ r.headers -> isContentLength row = true ->
    parseDigits row.2 = some r.frames.flatten.length

def Framed (crate : HttpCrate) (source : Source) (a : Answer) : Prop :=
  BodyKept crate source a ∧ LengthKept a.response

/-!
## Reads
-/

theorem Source.read_end {limit : Nat} (hlimit : 0 < limit) {s s' : Source}
    (h : s.read limit = (some [], s')) : s.bytes = [] ∧ s.fails = false := by
  cases s with
  | mk pieces fails filled =>
    cases pieces with
    | nil =>
      cases fails with
      | false => exact ⟨rfl, rfl⟩
      | true => cases h
    | cons p ps =>
      have hp := filled p mem_cons_self
      unfold Source.read at h
      dsimp only at h
      split at h
      · cases h
        exact absurd rfl hp
      · rw [Prod.mk.injEq, Option.some_inj, take_eq_nil_iff] at h
        rcases h.1 with hzero | hnil
        · omega
        · exact absurd hnil hp

variable {bs : List Byte}

theorem Source.read_some {limit : Nat} {s s' : Source} (h : s.read limit = (some bs, s')) :
    s.bytes = bs ++ s'.bytes ∧ s'.fails = s.fails ∧ bs.length ≤ limit := by
  cases s with
  | mk pieces fails filled =>
    cases pieces with
    | nil =>
      cases fails with
      | false =>
        cases h
        exact ⟨rfl, rfl, Nat.zero_le _⟩
      | true => cases h
    | cons p ps =>
      unfold Source.read at h
      dsimp only at h
      split at h
      · rename_i hle
        cases h
        exact ⟨rfl, rfl, hle⟩
      · cases h
        refine ⟨?_, rfl, length_take_le _ _⟩
        unfold Source.bytes
        rw [flatten_cons, flatten_cons, ← append_assoc, take_append_drop]

namespace BodyReader

theorem readMore_end {r : BodyReader} (h : r.readMore = some none) :
    r.source.bytes = [] ∧ r.source.fails = false := by
  unfold readMore at h
  split at h
  · cases h
  · rename_i s' hread
    exact Source.read_end (by decide) hread
  · cases h

variable {r r' : BodyReader}

theorem readMore_some (h : r.readMore = some (some r')) :
    r'.bytes = r.bytes ∧ r'.source.fails = r.source.fails ∧
      exists more, r'.avail = r.avail ++ more ∧ more.length ≤ 8192 := by
  unfold readMore at h
  split at h
  · cases h
  · cases h
  · rename_i b bs s' hread
    cases h
    obtain ⟨hbytes, hfails, hlen⟩ := Source.read_some hread
    refine ⟨?_, hfails, b :: bs, rfl, hlen⟩
    unfold bytes
    rw [hbytes, append_assoc]

/-- A refill of the spans of a body starts from an empty buffer. -/
theorem fillExactFrom_spec {fuel n : Nat} (h : fillExactFrom fuel n r = some (bs, r')) :
    bs.length = n ∧ r.bytes = bs ++ r'.bytes ∧
      (r.avail.length ≤ 8192 -> r'.avail.length ≤ 8192) := by
  induction fuel generalizing n r bs with
  | zero =>
    cases h
  | succ fuel ih =>
    unfold fillExactFrom at h
    split at h
    · rename_i hn
      cases h
      exact ⟨hn.symm, rfl, id⟩
    · split at h
      · rename_i hempty
        obtain ⟨r1, hmore, hrest⟩ := Option.bind_eq_some_iff.mp h
        obtain ⟨hbytes, _, more, havail, hshort⟩ :=
          readMore_some (Option.join_eq_some_iff.mp hmore)
        obtain ⟨hlength, hsplit, hkept⟩ := ih hrest
        refine ⟨hlength, hbytes ▸ hsplit, fun _ => hkept ?_⟩
        rw [havail, isEmpty_iff.mp hempty]
        exact hshort
      · obtain ⟨⟨rest, r1⟩, hrest, heq⟩ := Option.map_eq_some_iff.mp h
        cases heq
        obtain ⟨hlength, hsplit, hkept⟩ := ih hrest
        refine ⟨?_, ?_, fun hshort => hkept ?_⟩
        · rw [length_append, length_take, hlength]
          omega
        · unfold bytes at hsplit ⊢
          rw [append_assoc, ← hsplit, ← append_assoc, take_append_drop]
        · rw [length_drop]
          omega

theorem fillExact_spec {n : Nat} (h : r.fillExact n = some (bs, r')) :
    bs.length = n ∧ r.bytes = bs ++ r'.bytes ∧
      (r.avail.length ≤ 8192 -> r'.avail.length ≤ 8192) :=
  fillExactFrom_spec h

theorem readSlices_spec {cap fuel remaining : Nat}
    (h : (readSlices cap fuel remaining r).2 = some r') :
    (readSlices cap fuel remaining r).1.flatten.length = remaining ∧
    r.bytes = (readSlices cap fuel remaining r).1.flatten ++ r'.bytes ∧
    (r.avail.length ≤ 8192 -> r'.avail.length ≤ 8192) := by
  induction fuel generalizing remaining r with
  | zero =>
    unfold readSlices at h ⊢
    split at h
    · rename_i hn
      cases h
      exact ⟨hn.symm, rfl, id⟩
    · cases h
  | succ fuel ih =>
    unfold readSlices at h ⊢
    split
    · rename_i hn
      rw [if_pos hn] at h
      cases h
      exact ⟨hn.symm, rfl, id⟩
    · rename_i hn
      rw [if_neg hn] at h
      dsimp only at h ⊢
      cases hfill : r.fillExact (min remaining cap) with
      | none =>
        rw [hfill] at h
        cases h
      | some filled =>
        rw [hfill] at h
        obtain ⟨hlength, hsplit, hshort⟩ := fillExact_spec hfill
        obtain ⟨hrest, hbytes, hkept⟩ := ih h
        rw [flatten_cons, length_append, hlength, hrest, hsplit, append_assoc,
          ← hbytes]
        refine ⟨?_, rfl, hkept ∘ hshort⟩
        omega

theorem findCrlf_none (h : lf ∉ bs) : findCrlf bs = none := by
  induction bs with
  | nil =>
    rfl
  | cons b bs ih =>
    have hnot : crlf.isPrefixOf (b :: bs) = false := by
      rw [Bool.eq_false_iff]
      intro hstart
      apply h
      apply ( isPrefixOf_iff_prefix.mp hstart).subset
      exact mem_cons_of_mem cr mem_cons_self
    rw [findCrlf, hnot, ih fun hmem => h (mem_cons_of_mem b hmem)]
    rfl

theorem findCrlf_some {n : Nat} (h : findCrlf bs = some n) :
    exists before after, bs = before ++ cr :: lf :: after ∧ before.length = n ∧
      findCrlf (before ++ crlf) = some n := by
  induction bs generalizing n with
  | nil =>
    cases h
  | cons b bs ih =>
    rw [findCrlf] at h
    split at h
    · rename_i hstart
      cases h
      obtain ⟨after, hafter⟩ := isPrefixOf_iff_prefix.mp hstart
      exact ⟨[], after, hafter.symm, rfl, rfl⟩
    · rename_i hstart
      obtain ⟨m, hm, hn⟩ := Option.map_eq_some_iff.mp h
      obtain ⟨before, after, hbs, hlength, hfound⟩ := ih hm
      refine ⟨b :: before, after, by rw [hbs, cons_append], by rw [length_cons, hlength, hn], ?_⟩
      have hnot : ¬ crlf.isPrefixOf (b :: (before ++ crlf)) = true := by
        intro hcrlf
        apply hstart
        rw [ isPrefixOf_iff_prefix] at hcrlf ⊢
        apply hcrlf.trans
        rw [hbs]
        exact ⟨after, by simp [crlf]⟩
      rw [cons_append, findCrlf, if_neg hnot, hfound, Option.map_some, hn]

/-- The bytes before a line feed reach beyond bytes that have none. -/
theorem before_lf {before after init last : List Byte}
    (h : before ++ lf :: after = init ++ last) (hinit : lf ∉ init) :
    exists more, before = init ++ more ∧ last = more ++ lf :: after := by
  rcases append_eq_append_iff.mp h with ⟨more, hmore, hlast⟩ | hlater
  · cases more with
    | nil =>
      rw [append_nil] at hmore
      exact ⟨[], by rw [hmore, append_nil], hlast.symm⟩
    | cons b more =>
      rw [cons_append, cons.injEq] at hlast
      rw [hmore, ← hlast.1] at hinit
      exact absurd (mem_append_right _ mem_cons_self) hinit
  · exact hlater

/-- What stands in the buffer beside the last read has no line feed. -/
theorem readLineFrom_taken {fuel : Nat} {r r' : BodyReader} {line init last : List Byte}
    (h : readLineFrom fuel r = some (line, r')) (havail : r.avail = init ++ last)
    (hinit : lf ∉ init) (hlast : last.length ≤ 8192) :
    TakenLine line ∧ r.bytes = line ++ r'.bytes ∧ r'.avail.length ≤ 8192 := by
  induction fuel generalizing r init last with
  | zero =>
    cases h
  | succ fuel ih =>
    unfold readLineFrom at h
    split at h
    · cases h
    · rename_i hcap
      cases hcut : cut lf r.avail with
      | none =>
        have hfree := cut_none_iff.mp hcut
        rw [findCrlf_none hfree, hcut] at h
        obtain ⟨r1, hmore, hrest⟩ := Option.bind_eq_some_iff.mp h
        obtain ⟨hbytes, _, more, hmore, hshort⟩ :=
          readMore_some (Option.join_eq_some_iff.mp hmore)
        rw [← hbytes]
        exact ih hrest hmore hfree hshort
      | some parts =>
        obtain ⟨first, rest⟩ := parts
        obtain ⟨hsplit, hfirst⟩ := cut_some hcut
        obtain ⟨more, _, hmore⟩ := before_lf (hsplit.symm.trans havail) hinit
        rw [hmore, length_append, length_cons] at hlast
        rw [hsplit, length_append, length_cons] at hcap
        cases hfound : findCrlf r.avail with
        | none =>
          rw [hfound, hcut] at h
          cases h
          dsimp only
          refine ⟨⟨?_, .inl ⟨first, hfirst, rfl⟩⟩, ?_, by omega⟩
          · rw [length_append, length_singleton]
            omega
          · rw [bytes, hsplit, append_assoc, append_assoc]
            rfl
        | some n =>
          obtain ⟨before, after, hbefore, hn, hagain⟩ := findCrlf_some hfound
          have hline : r.avail = (before ++ [cr] ++ [lf]) ++ after := by
            simp [hbefore]
          have hlength : (before ++ [cr] ++ [lf]).length = n + 2 := by
            simp [hn]
          rw [hfound] at h
          dsimp only at h
          rw [hline, ← hlength, take_left, drop_left] at h
          cases h
          -- The line feed of the pair is the first one, or stands after it.
          obtain ⟨joined, hjoined, hlater⟩ := @before_lf (before ++ [cr]) after first (lf :: rest)
            (by rw [append_assoc]; exact hbefore.symm.trans hsplit) hfirst
          have hlengths := congrArg length hlater
          rw [length_append, length_cons, length_cons] at hlengths
          rw [hjoined, length_append, length_append, length_singleton] at hlength
          rw [hjoined]
          refine ⟨⟨?_, ?_⟩, ?_, ?_⟩
          · rw [length_append, length_append, length_singleton]
            omega
          · cases joined with
            | nil =>
              rw [append_nil]
              exact .inl ⟨first, hfirst, rfl⟩
            | cons b joined =>
              rw [cons_append, cons.injEq] at hlater
              refine .inr ⟨first, joined ++ [lf], hfirst, ?_, ?_, ?_⟩
              · rw [← hlater.1, append_assoc, cons_append]
              · rw [length_append, length_singleton]
                rw [length_cons] at hlengths
                omega
              · rw [← hjoined, append_assoc]
                refine hagain.trans ?_
                rw [length_append, hn]
                rfl
          · rw [bytes, hline, hjoined, append_assoc]
            rfl
          · dsimp only
            omega

theorem readLine_taken {line : List Byte} (h : r.readLine = some (line, r'))
    (hshort : r.avail.length ≤ 8192) :
    TakenLine line ∧ r.bytes = line ++ r'.bytes ∧ r'.avail.length ≤ 8192 :=
  @readLineFrom_taken _ _ _ _ [] _ h rfl not_mem_nil hshort

end BodyReader

/-!
## Bodies
-/

variable {crate : HttpCrate} {r : BodyReader}

variable {fuel : Nat} {rows : Rows}

theorem readTrailers_taken (h : readTrailers crate fuel r = some rows)
    (hshort : r.avail.length ≤ 8192) : Trailers TakenLine r.bytes := by
  induction fuel generalizing r rows with
  | zero =>
    cases h
  | succ fuel ih =>
    obtain ⟨⟨line, r1⟩, hline, hrest⟩ := Option.bind_eq_some_iff.mp h
    obtain ⟨htaken, hbytes, hshort⟩ := BodyReader.readLine_taken hline hshort
    rw [hbytes]
    dsimp only at hrest
    split at hrest
    · rename_i hblank
      exact Trailers.blank htaken hblank
    · rename_i hblank
      obtain ⟨rest, hrest, _⟩ := Option.map_eq_some_iff.mp hrest
      exact Trailers.field htaken (Bool.eq_false_iff.mpr hblank) (ih hrest hshort)

theorem streamChunkedBody_taken (h : (streamChunkedBody crate fuel r).trailers.isSome = true)
    (hshort : r.avail.length ≤ 8192) :
    ChunkedBody TakenLine r.bytes (streamChunkedBody crate fuel r).frames.flatten := by
  induction fuel generalizing r with
  | zero =>
    cases h
  | succ fuel ih =>
    unfold streamChunkedBody at h ⊢
    cases hread : r.readLine with
    | none =>
      rw [hread] at h
      cases h
    | some read =>
      obtain ⟨line, r1⟩ := read
      rw [hread] at h
      dsimp only at h ⊢
      obtain ⟨htaken, hbytes, hshort⟩ := BodyReader.readLine_taken hread hshort
      rw [hbytes]
      split
      · rename_i hempty
        rw [if_pos hempty] at h
        exact ChunkedBody.blank htaken (isEmpty_iff.mp hempty) (ih h hshort)
      · rename_i hempty
        rw [if_neg hempty] at h
        rw [List.isEmpty_iff] at hempty
        cases hsize : parseHex (trimOws (sizePart (trimOws (chomp line)))) with
        | none =>
          rw [hsize] at h
          cases h
        | some size =>
          rw [hsize] at h
          dsimp only at h ⊢
          split
          · rename_i hzero
            rw [if_pos hzero] at h
            rw [hzero] at hsize
            obtain ⟨rows, hrows⟩ := Option.isSome_iff_exists.mp h
            exact ChunkedBody.last htaken hempty hsize (readTrailers_taken hrows hshort)
          · rename_i hzero
            rw [if_neg hzero] at h
            cases hspan : (r1.readSpan 65536 size).2.bind (BodyReader.fillExact 2) with
            | none =>
              rw [hspan] at h
              cases h
            | some filled =>
              obtain ⟨terminator, r3⟩ := filled
              rw [hspan] at h
              dsimp only at h ⊢
              obtain ⟨r2, hslices, hfill⟩ := Option.bind_eq_some_iff.mp hspan
              obtain ⟨hlength, hsplit, hkept⟩ := BodyReader.readSlices_spec hslices
              obtain ⟨_, hend, hlater⟩ := BodyReader.fillExact_spec hfill
              split
              · rename_i hcrlf
                rw [if_pos hcrlf] at h
                have hframes : (r1.readSpan 65536 size).1.flatten.length = size := hlength
                have hrest : r1.bytes = (r1.readSpan 65536 size).1.flatten ++ crlf ++
                    r3.bytes := by
                  rw [append_assoc, ← hcrlf, ← hend]
                  exact hsplit
                rw [← hframes] at hsize
                have hspan : (r1.readSpan 65536 size).1.flatten ≠ [] := by
                  intro hnil
                  rw [hnil] at hframes
                  exact hzero hframes.symm
                rw [Body.after, flatten_append, hrest]
                exact ChunkedBody.chunk htaken hempty hsize hspan (ih h (hlater (hkept hshort)))
              · rename_i hcrlf
                rw [if_neg hcrlf] at h
                cases h

theorem streamToEnd_clean (h : (streamToEnd fuel r).trailers.isSome = true) :
    (streamToEnd fuel r).frames.flatten = r.bytes ∧ r.source.fails = false := by
  induction fuel generalizing r with
  | zero =>
    cases h
  | succ fuel ih =>
    unfold streamToEnd at h ⊢
    by_cases hempty : r.avail.isEmpty = true
    · have havail := isEmpty_iff.mp hempty
      rw [if_pos hempty] at h ⊢
      cases hmore : r.readMore with
      | none =>
        rw [hmore] at h
        cases h
      | some read =>
        cases read with
        | none =>
          obtain ⟨hend, hfails⟩ := BodyReader.readMore_end hmore
          refine ⟨?_, hfails⟩
          rw [BodyReader.bytes, havail, hend]
          rfl
        | some r1 =>
          rw [hmore] at h
          obtain ⟨hbytes, hfails, _⟩ := BodyReader.readMore_some hmore
          obtain ⟨hrest, hclean⟩ := ih h
          refine ⟨?_, hfails ▸ hclean⟩
          dsimp only [Body.after]
          rw [flatten_append, hrest, ← hbytes]
          simp [BodyReader.bytes]
    · rw [if_neg hempty] at h ⊢
      obtain ⟨hrest, hclean⟩ := ih h
      refine ⟨?_, hclean⟩
      dsimp only [Body.after]
      rw [flatten_append, hrest]
      simp [BodyReader.bytes]

theorem streamLength_clean {n : Nat} (h : (streamLength n r).trailers.isSome = true) :
    n ≤ r.bytes.length ∧ (streamLength n r).frames.flatten = r.bytes.take n := by
  unfold streamLength at h ⊢
  dsimp only at h ⊢
  cases hspan : (r.readSpan 32768 n).2 with
  | none =>
    rw [hspan] at h
    cases h
  | some r1 =>
    obtain ⟨hlength, hsplit, _⟩ := BodyReader.readSlices_spec hspan
    have hframes : (r.readSpan 32768 n).1.flatten.length = n := hlength
    have hbytes : r.bytes = (r.readSpan 32768 n).1.flatten ++ r1.bytes := hsplit
    constructor
    · rw [hbytes, length_append, hframes]
      exact Nat.le_add_right _ _
    · rw [hbytes, take_left' hframes]

variable {p : ParsedHead}

theorem streamBody_delivered (hbody : p.bodiless = false)
    (h : (streamBody crate p r).trailers.isSome = true) (hshort : r.avail.length ≤ 8192) :
    Delivered TakenLine p r.source.fails r.bytes (streamBody crate p r).frames.flatten := by
  unfold Delivered
  rw [hbody, if_neg Bool.false_ne_true]
  unfold streamBody at h ⊢
  by_cases hchunked : p.chunked = true
  · rw [if_pos hchunked] at h
    rw [if_pos hchunked, if_pos hchunked]
    exact streamChunkedBody_taken h hshort
  · rw [if_neg hchunked] at h
    rw [if_neg hchunked, if_neg hchunked]
    cases hlength : p.contentLength with
    | none =>
      rw [hlength] at h
      exact streamToEnd_clean h
    | some n =>
      rw [hlength] at h
      exact streamLength_clean h

/-!
## Heads
-/

def HeadRead.bytes (h : HeadRead) : List Byte :=
  h.buf ++ h.source.bytes

/-- What a read brings beside a head is at most the length of the read. -/
structure HeadRead.Bounded (h : HeadRead) : Prop where
  short : h.buf.length ≤ 1048576 + 4096
  beside : forall n, headEnd h.buf = some n -> h.buf.length ≤ n + 4096

theorem bounded_of_short {h : HeadRead} (hshort : h.buf.length ≤ 4096) : h.Bounded :=
  ⟨by omega, fun _ _ => by omega⟩

variable {source : Source}

theorem bounded_append {buf piece : List Byte} {left : Option Nat} (hnone : headEnd buf = none)
    (hcap : ¬ 1048576 < buf.length) (hpiece : piece.length ≤ 4096) :
    HeadRead.Bounded ⟨buf ++ piece, source, left⟩ := by
  constructor
  · dsimp only
    rw [length_append]
    omega
  · intro n hend
    dsimp only at hend ⊢
    rw [length_append]
    by_contra hlong
    obtain ⟨lines, blank, hhead, _⟩ := headEnd_some hend
    rw [take_append_of_le_length (by omega)] at hhead
    have hfound := hhead.headEnd (buf.drop n)
    rw [take_append_drop, hnone] at hfound
    cases hfound

variable {h h' : HeadRead}

theorem readUntilHeadFrom_ok {scanner : HeadEndScanner}
    (hread : readUntilHeadFrom fuel scanner h = .ok h') (hscan : scanner.Resumes h.buf)
    (hbound : h.Bounded) :
    h'.bytes = h.bytes ∧ h'.source.fails = h.source.fails ∧ h'.Bounded := by
  induction fuel generalizing scanner h with
  | zero =>
    cases hread
  | succ fuel ih =>
    unfold readUntilHeadFrom at hread
    dsimp only at hread
    rw [HeadEndScanner.feed_eq hscan] at hread
    split at hread
    · cases hread
      exact ⟨rfl, rfl, hbound⟩
    · rename_i hnone
      rw [Bool.not_eq_true, Option.isSome_eq_false_iff, Option.isNone_iff_eq_none] at hnone
      split at hread
      · cases hread
      · rename_i hcap
        split at hread
        · cases hread
        · split at hread
          · cases hread
          · cases hread
          · rename_i b bs source hpiece
            obtain ⟨hbytes, hfails, hlength⟩ := Source.read_some hpiece
            obtain ⟨hkept, hsame, hbound⟩ := ih hread
              ((HeadEndScanner.feed_resumes hscan hnone).append _)
              (bounded_append hnone hcap hlength)
            refine ⟨?_, hsame.trans hfails, hbound⟩
            rw [hkept]
            dsimp only [HeadRead.bytes]
            rw [hbytes, append_assoc]

theorem readBackendHead_ok (hread : readBackendHead h = .ok h') (hshort : h.buf.length ≤ 4096) :
    h'.bytes = h.bytes ∧ h'.source.fails = h.source.fails ∧ h'.Bounded :=
  readUntilHeadFrom_ok hread (HeadEndScanner.new_resumes _) (bounded_of_short hshort)

theorem parseResponseHead_some {buf : List Byte} (h : parseResponseHead crate buf = some p) :
    headEnd buf = some p.bodyOffset ∧ exists before rows valid,
      dedupeLength none before = some rows ∧ validLength crate rows = some valid ∧
        p.headers = valid.1 ∧ p.contentLength = valid.2 := by
  obtain ⟨n, hend, h⟩ := Option.bind_eq_some_iff.mp h
  obtain ⟨_, _, h⟩ := Option.bind_eq_some_iff.mp h
  obtain ⟨_, _, h⟩ := Option.bind_eq_some_iff.mp h
  obtain ⟨before, _, h⟩ := Option.bind_eq_some_iff.mp h
  obtain ⟨rows, hdedupe, h⟩ := Option.bind_eq_some_iff.mp h
  obtain ⟨valid, hvalid, h⟩ := Option.map_eq_some_iff.mp h
  rw [← h]
  exact ⟨hend, before, rows, valid, hdedupe, hvalid, rfl, rfl⟩

theorem isHeadOf_take (hparse : parseResponseHead crate h.buf = some p) (hbound : h.Bounded) :
    IsHeadOf crate (h.buf.take p.bodyOffset) p := by
  have hend := (parseResponseHead_some hparse).1
  obtain ⟨lines, blank, hhead, hle⟩ := headEnd_some hend
  have hlength : (h.buf.take p.bodyOffset).length = p.bodyOffset := by
    rw [length_take, Nat.min_eq_left hle]
  have hsame := hhead.headEnd []
  rw [append_nil, hlength] at hsame
  refine ⟨?_, hlength.symm, ?_⟩
  · unfold parseResponseHead at hparse ⊢
    rw [hend] at hparse
    rw [hsame, Option.bind_some, take_of_length_le (Nat.le_of_eq hlength)]
    exact hparse
  · rw [hlength]
    exact hle.trans hbound.short

theorem length_drop_head (hparse : parseResponseHead crate h.buf = some p) (hbound : h.Bounded) :
    (h.buf.drop p.bodyOffset).length ≤ 4096 := by
  have hbeside := hbound.beside _ ((parseResponseHead_some hparse)).1
  rw [length_drop]
  omega

theorem finalHead_ok (hfinal : finalHead crate fuel h = .ok (p, h')) (hbound : h.Bounded) :
    (exists heads, Leads crate heads p ∧
      h.bytes = heads ++ (h'.buf.drop p.bodyOffset ++ h'.source.bytes)) ∧
    h'.source.fails = h.source.fails ∧ (h'.buf.drop p.bodyOffset).length ≤ 4096 := by
  induction fuel generalizing h with
  | zero =>
    cases hfinal
  | succ fuel ih =>
    unfold finalHead at hfinal
    cases hparse : parseResponseHead crate h.buf with
    | none =>
      rw [hparse] at hfinal
      cases hfinal
    | some q =>
      have hhead := isHeadOf_take hparse hbound
      rw [hparse] at hfinal
      dsimp only at hfinal
      split at hfinal
      · rename_i hinterim
        split at hfinal
        · cases hfinal
        · rename_i hswitch
          cases hread : readBackendHead { h with buf := h.buf.drop q.bodyOffset } with
          | error e =>
            rw [hread] at hfinal
            cases hfinal
          | ok h1 =>
            rw [hread] at hfinal
            obtain ⟨hbytes, hsame, hbound⟩ :=
              readBackendHead_ok hread (length_drop_head hparse hbound)
            obtain ⟨⟨heads, hleads, hsplit⟩, hfails, hshort⟩ := ih hfinal hbound
            refine ⟨⟨_, Leads.interim hhead hinterim hswitch hleads, ?_⟩,
              hfails.trans hsame, hshort⟩
            rw [append_assoc, ← hsplit, hbytes]
            dsimp only [HeadRead.bytes]
            rw [← append_assoc, take_append_drop]
      · rename_i hfinished
        cases hfinal
        refine ⟨⟨_, Leads.final hhead hfinished, ?_⟩, rfl, length_drop_head hparse hbound⟩
        rw [HeadRead.bytes, ← append_assoc, take_append_drop]

/-!
## Announced lengths
-/

variable {value : List Byte}

theorem dedupeLength_rest {rows rows' : Rows} (h : dedupeLength (some value) rows = some rows') :
    forall row, row ∈ rows' -> isContentLength row = false := by
  induction rows generalizing rows' with
  | nil =>
    cases h
    intro row hrow
    cases hrow
  | cons first rows ih =>
    unfold dedupeLength at h
    split at h
    · dsimp only at h
      split at h
      · cases h
      · exact ih h
    · rename_i hfirst
      obtain ⟨rest, hrest, heq⟩ := Option.map_eq_some_iff.mp h
      rw [← heq]
      intro row hrow
      rcases mem_cons.mp hrow with hrow | hrow
      · rw [hrow]
        exact Bool.eq_false_iff.mpr hfirst
      · exact ih hrest row hrow

theorem dedupeLength_pairwise {rows rows' : Rows} (h : dedupeLength none rows = some rows') :
    rows'.Pairwise fun a b => isContentLength a = true -> isContentLength b = false := by
  induction rows generalizing rows' with
  | nil =>
    cases h
    exact List.Pairwise.nil
  | cons first rows ih =>
    unfold dedupeLength at h
    split at h
    · obtain ⟨rest, hrest, heq⟩ := Option.map_eq_some_iff.mp h
      have hother := dedupeLength_rest hrest
      rw [← heq, pairwise_cons]
      constructor
      · intro row hrow _
        exact hother row hrow
      · rw [pairwise_iff_forall_sublist]
        intro a b hab _
        exact hother b (hab.subset (mem_cons_of_mem a mem_cons_self))
    · rename_i hfirst
      obtain ⟨rest, hrest, heq⟩ := Option.map_eq_some_iff.mp h
      rw [← heq, pairwise_cons]
      exact ⟨fun row _ hlength => absurd hlength hfirst, ih hrest⟩

variable {row : List Byte × List Byte}

theorem setLength_value
    (hrows : rows.Pairwise fun a b => isContentLength a = true -> isContentLength b = false)
    (hrow : row ∈ setLength value rows) (hlength : isContentLength row = true) : row.2 = value := by
  induction rows with
  | nil =>
    cases hrow
  | cons first rows ih =>
    obtain ⟨hfirst, hrest⟩ := pairwise_cons.mp hrows
    unfold setLength at hrow
    split at hrow
    · rename_i hlengthFirst
      rcases mem_cons.mp hrow with heq | hrow
      · rw [heq]
      · rw [hfirst row hrow hlengthFirst] at hlength
        cases hlength
    · rename_i hlengthFirst
      rcases mem_cons.mp hrow with heq | hrow
      · rw [heq] at hlength
        exact absurd hlength hlengthFirst
      · exact ih hrest hrow

theorem parseResponseHead_length (hvalue : forall v w, crate.headerValue v = some w -> w = v)
    {buf : List Byte} (h : parseResponseHead crate buf = some p) (hrow : row ∈ p.headers)
    (hlength : isContentLength row = true) :
    exists n, p.contentLength = some n ∧ parseDigits row.2 = some n := by
  obtain ⟨_, _, rows, valid, hdedupe, hvalid, hheaders, hn⟩ := parseResponseHead_some h
  rw [hheaders] at hrow
  rw [hn]
  unfold validLength at hvalid
  split at hvalid
  · rename_i hnone
    cases hvalid
    exact absurd hlength (find?_eq_none.mp hnone row hrow)
  · rename_i first hfirst
    obtain ⟨n, hparse, hset⟩ := Option.bind_eq_some_iff.mp hvalid
    obtain ⟨w, hw, heq⟩ := Option.map_eq_some_iff.mp hset
    rw [← heq] at hrow ⊢
    refine ⟨n, rfl, ?_⟩
    rw [setLength_value (dedupeLength_pairwise hdedupe) hrow hlength, hvalue _ _ hw]
    exact (Option.filter_eq_some_iff.mp hparse).1

variable {heads : List Byte}

theorem Leads.length (hvalue : forall v w, crate.headerValue v = some w -> w = v)
    (h : Leads crate heads p) (hrow : row ∈ p.headers) (hlength : isContentLength row = true) :
    exists n, p.contentLength = some n ∧ parseDigits row.2 = some n := by
  induction h with
  | final hhead hfinal => exact parseResponseHead_length hvalue hhead.parsed hrow hlength
  | interim hhead hinterim hswitch hleads ih => exact ih hrow

/-!
## Every reading happens
-/

/-- Pieces that a source can have. -/
structure CutInto (bs : List Byte) (pieces : List (List Byte)) : Prop where
  flatten : pieces.flatten = bs
  filled : forall piece, piece ∈ pieces -> piece ≠ []

theorem CutInto.append {as bs : List Byte} {ps qs : List (List Byte)} (hp : CutInto as ps)
    (hq : CutInto bs qs) : CutInto (as ++ bs) (ps ++ qs) := by
  refine ⟨by rw [flatten_append, hp.flatten, hq.flatten], ?_⟩
  intro piece hpiece
  exact (mem_append.mp hpiece).elim (hp.filled piece) (hq.filled piece)

/-- Every byte comes alone. -/
def apart (bs : List Byte) : List (List Byte) :=
  bs.map fun b => [b]

theorem cutInto_apart (bs : List Byte) : CutInto bs (apart bs) := by
  refine ⟨flatMap_singleton' bs, ?_⟩
  intro piece hpiece
  obtain ⟨b, _, rfl⟩ := mem_map.mp hpiece
  exact cons_ne_nil b []

theorem cutInto_ending (first : List Byte) {last : List Byte} (h : last ≠ []) :
    CutInto (first ++ last) (apart first ++ [last]) := by
  refine (cutInto_apart first).append ⟨by simp, ?_⟩
  intro piece hpiece
  rwa [mem_singleton.mp hpiece]

variable {more : List (List Byte)}

theorem Source.read_piece {limit : Nat} {s : Source} {piece : List Byte}
    (h : s.pieces = piece :: more) (hlimit : piece.length ≤ limit) :
    exists s', s'.pieces = more ∧ s.read limit = (some piece, s') := by
  cases s with
  | mk pieces fails filled =>
    dsimp only at h
    subst h
    unfold Source.read
    dsimp only
    rw [dif_pos hlimit]
    exact ⟨_, rfl, rfl⟩

theorem Source.bytes_append {s : Source} {ps more : List (List Byte)} (h : s.pieces = ps ++ more)
    (hcut : CutInto bs ps) : s.bytes = bs ++ more.flatten := by
  rw [Source.bytes, h, flatten_append, hcut.flatten]

theorem TakenLine.rest_lt {line rest : List Byte} (h : TakenLine line)
    (hfuel : (line ++ rest).length < fuel + 1) : rest.length < fuel := by
  have hne : line ≠ [] := by
    rcases h.2 with ⟨_, _, hline⟩ | ⟨_, _, _, hline, _⟩ <;> simp [hline]
  have hpos := length_pos_of_ne_nil hne
  rw [length_append] at hfuel
  omega

namespace BodyReader

theorem readMore_piece {r : BodyReader} {piece : List Byte} {more : List (List Byte)}
    (h : r.source.pieces = piece :: more) (hlimit : piece.length ≤ 8192) :
    exists s, s.pieces = more ∧ r.readMore = some (some ⟨r.avail ++ piece, s⟩) := by
  obtain ⟨s, hs, hread⟩ := Source.read_piece h hlimit
  have hne := r.source.filled piece (h ▸ mem_cons_self)
  refine ⟨s, hs, ?_⟩
  cases piece with
  | nil => exact absurd rfl hne
  | cons b bs => rw [readMore, hread]

theorem readLineFrom_piece {fuel : Nat} {r : BodyReader} {piece : List Byte}
    {more : List (List Byte)} (hfree : lf ∉ r.avail) (hcap : r.avail.length ≤ 65536)
    (h : r.source.pieces = piece :: more) (hlimit : piece.length ≤ 8192) :
    exists s, s.pieces = more ∧
      readLineFrom (fuel + 1) r = readLineFrom fuel ⟨r.avail ++ piece, s⟩ := by
  obtain ⟨s, hs, hread⟩ := readMore_piece h hlimit
  refine ⟨s, hs, ?_⟩
  rw [readLineFrom, if_neg (by omega), findCrlf_none hfree, cut_none_iff.mpr hfree]
  dsimp only
  rw [hread]
  rfl

theorem readLineFrom_apart {fuel : Nat} {first last : List Byte} {r : BodyReader}
    {more : List (List Byte)} (hfree : lf ∉ r.avail ++ first)
    (hcap : (r.avail ++ first).length ≤ 65536)
    (h : r.source.pieces = apart first ++ last :: more) (hlimit : last.length ≤ 8192) :
    exists s, s.pieces = more ∧
      readLineFrom (fuel + first.length + 1) r =
        readLineFrom fuel ⟨r.avail ++ (first ++ last), s⟩ := by
  induction first generalizing r with
  | nil =>
    rw [append_nil] at hfree hcap
    exact readLineFrom_piece hfree hcap h hlimit
  | cons b first ih =>
    obtain ⟨s, hs, hread⟩ := @readLineFrom_piece (fuel + first.length + 1) r [b] _
      (fun hmem => hfree (mem_append_left _ hmem)) (by rw [length_append] at hcap; omega) h
      (by rw [length_singleton]; omega)
    rw [append_cons] at hfree hcap
    obtain ⟨s', hs', hrest⟩ := ih (r := ⟨r.avail ++ [b], s⟩) hfree hcap hs
    refine ⟨s', hs', ?_⟩
    rw [length_cons, ← Nat.add_assoc, hread, hrest]
    dsimp only
    rw [append_assoc]
    rfl

/-- What may be read as a line is read as one when it is the whole buffer. -/
theorem readLineFrom_whole {fuel : Nat} {r : BodyReader} (h : TakenLine r.avail) :
    readLineFrom (fuel + 1) r = some (r.avail, ⟨[], r.source⟩) := by
  rw [readLineFrom, if_neg (by have := h.1; omega)]
  cases hfound : findCrlf r.avail with
  | some n =>
    obtain ⟨before, after, hbefore, hn, _⟩ := findCrlf_some hfound
    have hlength : r.avail.length = n + 2 := by
      rcases h.2 with ⟨content, hfree, hline⟩ | ⟨_, _, _, _, _, hlast⟩
      · obtain ⟨more, _, hmore⟩ := @before_lf (before ++ [cr]) after content [lf]
          (by rw [append_assoc, ← hline]; exact hbefore.symm) hfree
        have hlengths := congrArg length hmore
        rw [length_append, length_cons, length_cons, length_nil] at hlengths
        rw [hbefore, length_append, length_cons, length_cons, hn]
        omega
      · rw [hfound, Option.some_inj] at hlast
        have hlengths := congrArg length hbefore
        rw [length_append, length_cons, length_cons] at hlengths
        omega
    dsimp only
    rw [take_of_length_le (by omega), drop_of_length_le (by omega)]
  | none =>
    rcases h.2 with ⟨content, hfree, hline⟩ | ⟨_, _, _, _, _, hlast⟩
    · rw [hline, cut_append lf hfree]
    · rw [hfound] at hlast
      cases hlast

theorem readLine_pieces {line : List Byte} (h : TakenLine line) :
    exists ps, CutInto line ps ∧ forall source more, source.pieces = ps ++ more ->
      exists s, s.pieces = more ∧ readLine ⟨[], source⟩ = some (line, ⟨[], s⟩) := by
  obtain ⟨first, last, hline, hfree, hne, hlimit⟩ : exists first last, line = first ++ last ∧
      lf ∉ first ∧ last ≠ [] ∧ last.length ≤ 8192 := by
    rcases h.2 with ⟨content, hfree, hline⟩ | ⟨first, more, hfree, hline, hmore, _⟩
    · exact ⟨content, [lf], hline, hfree, by decide, by decide⟩
    · exact ⟨first, lf :: more, hline, hfree, cons_ne_nil _ _, hmore⟩
  refine ⟨apart first ++ [last], hline ▸ cutInto_ending first hne, ?_⟩
  intro source more hpieces
  have hbytes := Source.bytes_append hpieces (cutInto_ending first hne)
  have hpos := length_pos_of_ne_nil hne
  obtain ⟨k, hk⟩ : exists k, source.bytes.length + 1 = k + 1 + first.length + 1 := by
    refine ⟨source.bytes.length - first.length - 1, ?_⟩
    rw [hbytes, length_append, length_append]
    omega
  have hcap := h.1
  rw [hline, length_append] at hcap
  rw [append_assoc] at hpieces
  obtain ⟨s, hs, hread⟩ := @readLineFrom_apart (k + 1) first last ⟨[], source⟩ more hfree
    (by rw [nil_append]; omega) hpieces hlimit
  refine ⟨s, hs, ?_⟩
  rw [nil_append, ← hline] at hread
  rw [readLine, hk, hread]
  exact @readLineFrom_whole k ⟨line, s⟩ h

variable {span : List Byte}

/-- Two turns of the loop for each byte. -/
theorem fillExactFrom_apart (h : source.pieces = apart span ++ more) :
    exists s, s.pieces = more ∧
      fillExactFrom (fuel + 2 * span.length + 1) span.length ⟨[], source⟩ =
        some (span, ⟨[], s⟩) := by
  induction span generalizing source with
  | nil => exact ⟨source, h, rfl⟩
  | cons b span ih =>
    obtain ⟨s, hs, hread⟩ := @readMore_piece ⟨[], source⟩ [b] _ h (by rw [length_singleton]; omega)
    obtain ⟨s', hs', hrest⟩ := ih hs
    refine ⟨s', hs', ?_⟩
    rw [length_cons, fillExactFrom, if_neg (Nat.succ_ne_zero _), if_pos isEmpty_nil, hread]
    change fillExactFrom (fuel + 2 * span.length + 1 + 1) (span.length + 1) ⟨[b], s⟩ = _
    rw [fillExactFrom, if_neg (Nat.succ_ne_zero _), if_neg (by simp)]
    dsimp only
    rw [length_singleton, Nat.min_eq_right (by omega), Nat.add_sub_cancel, drop_one, tail_cons,
      hrest]
    rfl

theorem fillExact_apart (h : source.pieces = apart span ++ more) :
    exists s, s.pieces = more ∧ fillExact span.length ⟨[], source⟩ = some (span, ⟨[], s⟩) := by
  obtain ⟨k, hk⟩ : exists k,
      2 * (BodyReader.bytes ⟨[], source⟩).length + 2 = k + 2 * span.length + 1 := by
    refine ⟨2 * source.bytes.length + 1 - 2 * span.length, ?_⟩
    rw [bytes, Source.bytes_append h (cutInto_apart span), nil_append, length_append]
    omega
  rw [fillExact, hk]
  exact fillExactFrom_apart h

theorem readSlices_apart {cap fuel : Nat} {span : List Byte} {source : Source}
    {more : List (List Byte)} (h : source.pieces = apart span ++ more)
    (hfuel : span.length ≤ fuel * cap) :
    exists s, s.pieces = more ∧ (readSlices cap fuel span.length ⟨[], source⟩).2 = some ⟨[], s⟩ := by
  induction fuel generalizing span source with
  | zero =>
    rw [Nat.zero_mul, Nat.le_zero_eq, length_eq_zero_iff] at hfuel
    rw [hfuel] at h ⊢
    exact ⟨source, h, rfl⟩
  | succ fuel ih =>
    rw [readSlices]
    split
    · rename_i hzero
      rw [length_eq_zero_iff.mp hzero] at h
      exact ⟨source, h, rfl⟩
    · have hsplit : apart span = apart (span.take cap) ++ apart (span.drop cap) := by
        unfold apart
        rw [← map_append, take_append_drop]
      rw [hsplit, append_assoc] at h
      obtain ⟨s, hs, hfill⟩ := fillExact_apart h
      rw [length_take, Nat.min_comm] at hfill
      have hrest : (span.drop cap).length = span.length - min span.length cap := by
        rw [length_drop]
        omega
      obtain ⟨s', hs', hslices⟩ := ih hs (by
        rw [Nat.succ_mul] at hfuel
        rw [length_drop]
        omega)
      dsimp only
      rw [hfill, ← hrest]
      exact ⟨s', hs', hslices⟩

/-- A chunk and its terminator. -/
theorem readSpan_apart (h : source.pieces = apart span ++ (apart crlf ++ more)) :
    (readSpan 65536 span.length ⟨[], source⟩).1.flatten = span ∧ exists s, s.pieces = more ∧
      (readSpan 65536 span.length ⟨[], source⟩).2.bind (fillExact 2) = some (crlf, ⟨[], s⟩) := by
  obtain ⟨s, hs, hslices⟩ := @readSlices_apart 65536 (span.length / 65536 + 1) _ _ _ h (by omega)
  obtain ⟨hlength, hbytes, _⟩ := readSlices_spec hslices
  rw [bytes, Source.bytes_append h (cutInto_apart span), nil_append] at hbytes
  obtain ⟨s', hs', hfill⟩ := fillExact_apart hs
  refine ⟨(append_inj hbytes hlength.symm).1.symm, s', hs', ?_⟩
  rw [readSpan, hslices]
  exact hfill

end BodyReader

theorem readTrailers_pieces {bs : List Byte} (h : Trailers TakenLine bs) :
    exists ps, CutInto bs ps ∧ forall source fuel, source.pieces = ps -> bs.length < fuel ->
      (readTrailers crate fuel ⟨[], source⟩).isSome = true := by
  induction h with
  | @blank line rest htaken hblank =>
    obtain ⟨ps, hcut, hread⟩ := BodyReader.readLine_pieces htaken
    refine ⟨ps ++ apart rest, hcut.append (cutInto_apart rest), ?_⟩
    intro source fuel hpieces hfuel
    obtain ⟨s, _, hline⟩ := hread source _ hpieces
    cases fuel with
    | zero => cases hfuel
    | succ fuel =>
      rw [readTrailers, hline, Option.bind_some, if_pos hblank]
      rfl
  | @field line rest htaken hblank _ ih =>
    obtain ⟨ps, hcut, hread⟩ := BodyReader.readLine_pieces htaken
    obtain ⟨qs, hqs, hrest⟩ := ih
    refine ⟨ps ++ qs, hcut.append hqs, ?_⟩
    intro source fuel hpieces hfuel
    obtain ⟨s, hs, hline⟩ := hread source _ hpieces
    cases fuel with
    | zero => cases hfuel
    | succ fuel =>
      rw [readTrailers, hline, Option.bind_some, if_neg (Bool.eq_false_iff.mp hblank),
        Option.isSome_map]
      exact hrest s fuel hs (htaken.rest_lt hfuel)

theorem streamChunkedBody_pieces {bs data : List Byte} (h : ChunkedBody TakenLine bs data) :
    exists ps, CutInto bs ps ∧ forall source fuel, source.pieces = ps -> bs.length < fuel ->
      (streamChunkedBody crate fuel ⟨[], source⟩).trailers.isSome = true ∧
        (streamChunkedBody crate fuel ⟨[], source⟩).frames.flatten = data := by
  induction h with
  | @blank line rest data htaken hempty _ ih =>
    obtain ⟨ps, hcut, hread⟩ := BodyReader.readLine_pieces htaken
    obtain ⟨qs, hqs, hrest⟩ := ih
    refine ⟨ps ++ qs, hcut.append hqs, ?_⟩
    intro source fuel hpieces hfuel
    obtain ⟨s, hs, hline⟩ := hread source _ hpieces
    cases fuel with
    | zero => cases hfuel
    | succ fuel =>
      rw [streamChunkedBody, hline]
      dsimp only
      rw [if_pos (List.isEmpty_iff.mpr hempty)]
      exact hrest s fuel hs (htaken.rest_lt hfuel)
  | @last line rest htaken hsome hsize htrailers =>
    obtain ⟨ps, hcut, hread⟩ := BodyReader.readLine_pieces htaken
    obtain ⟨qs, hqs, hrest⟩ := @readTrailers_pieces crate _ htrailers
    refine ⟨ps ++ qs, hcut.append hqs, ?_⟩
    intro source fuel hpieces hfuel
    obtain ⟨s, hs, hline⟩ := hread source _ hpieces
    cases fuel with
    | zero => cases hfuel
    | succ fuel =>
      rw [streamChunkedBody, hline]
      dsimp only
      rw [if_neg (mt List.isEmpty_iff.mp hsome), show parseHex _ = some 0 from hsize]
      dsimp only
      rw [if_pos rfl]
      refine ⟨hrest s _ hs ?_, rfl⟩
      rw [BodyReader.bytes, Source.bytes, hs, hqs.flatten]
      exact Nat.lt_succ_self _
  | @chunk line span rest data htaken hsome hsize hspan _ ih =>
    obtain ⟨ps, hcut, hread⟩ := BodyReader.readLine_pieces htaken
    obtain ⟨qs, hqs, hrest⟩ := ih
    refine ⟨ps ++ (apart span ++ (apart crlf ++ qs)), ?_, ?_⟩
    · rw [append_assoc span]
      exact hcut.append ((cutInto_apart span).append ((cutInto_apart crlf).append hqs))
    · intro source fuel hpieces hfuel
      obtain ⟨s, hs, hline⟩ := hread source _ hpieces
      obtain ⟨hflatten, s', hs', hterminator⟩ := BodyReader.readSpan_apart hs
      cases fuel with
      | zero => cases hfuel
      | succ fuel =>
        rw [streamChunkedBody, hline]
        dsimp only
        rw [if_neg (mt List.isEmpty_iff.mp hsome), show parseHex _ = some span.length from hsize]
        dsimp only
        rw [if_neg (mt length_eq_zero_iff.mp hspan), hterminator]
        dsimp only
        rw [if_pos rfl]
        have hfewer := htaken.rest_lt hfuel
        rw [length_append] at hfewer
        obtain ⟨hclean, hdata⟩ := hrest s' fuel hs' (by omega)
        refine ⟨hclean, ?_⟩
        rw [Body.after, flatten_append, hflatten, hdata]

theorem readUntilHeadFrom_piece {fuel : Nat} {scanner : HeadEndScanner} {buf piece : List Byte}
    {source : Source} {more : List (List Byte)} (hscan : scanner.Resumes buf)
    (hnone : headEnd buf = none) (hcap : buf.length ≤ 1048576)
    (h : source.pieces = piece :: more) (hlimit : piece.length ≤ 4096) :
    exists s scanner', s.pieces = more ∧ scanner'.Resumes (buf ++ piece) ∧
      readUntilHeadFrom (fuel + 1) scanner ⟨buf, source, none⟩ =
        readUntilHeadFrom fuel scanner' ⟨buf ++ piece, s, none⟩ := by
  obtain ⟨s, hs, hread⟩ := Source.read_piece h hlimit
  have hne := source.filled piece (h ▸ mem_cons_self)
  refine ⟨s, _, hs, (HeadEndScanner.feed_resumes hscan hnone).append piece, ?_⟩
  rw [readUntilHeadFrom, HeadEndScanner.feed_eq hscan, hnone]
  dsimp only
  rw [if_neg (by simp), if_neg (by omega), if_neg (by simp), hread]
  cases piece with
  | nil => exact absurd rfl hne
  | cons b bs => rfl

theorem readUntilHeadFrom_apart {fuel : Nat} {scanner : HeadEndScanner} {buf first last : List Byte}
    {source : Source} {more : List (List Byte)} (hscan : scanner.Resumes buf)
    (hnone : headEnd (buf ++ first) = none) (hcap : (buf ++ first).length ≤ 1048576)
    (h : source.pieces = apart first ++ last :: more) (hlimit : last.length ≤ 4096) :
    exists s scanner', s.pieces = more ∧ scanner'.Resumes (buf ++ (first ++ last)) ∧
      readUntilHeadFrom (fuel + first.length + 1) scanner ⟨buf, source, none⟩ =
        readUntilHeadFrom fuel scanner' ⟨buf ++ (first ++ last), s, none⟩ := by
  induction first generalizing buf source scanner with
  | nil =>
    rw [append_nil] at hnone hcap
    exact readUntilHeadFrom_piece hscan hnone hcap h hlimit
  | cons b first ih =>
    have hbuf : headEnd buf = none := by
      cases hend : headEnd buf with
      | none => rfl
      | some n =>
        rw [headEnd_append hend] at hnone
        cases hnone
    obtain ⟨s, scanner', hs, hscan', hread⟩ := @readUntilHeadFrom_piece (fuel + first.length + 1)
      _ buf [b] _ _ hscan hbuf (by rw [length_append] at hcap; omega) h
      (by rw [length_singleton]; omega)
    rw [append_cons] at hnone hcap
    obtain ⟨s', scanner'', hs', hscan'', hrest⟩ := ih hscan' hnone hcap hs
    rw [append_assoc] at hscan'' hrest
    refine ⟨s', scanner'', hs', hscan'', ?_⟩
    rw [length_cons, ← Nat.add_assoc, hread, hrest]
    rfl

theorem IsHeadOf.length_pos {head : List Byte} (h : IsHeadOf crate head p) : 0 < head.length := by
  have hend := (parseResponseHead_some h.parsed).1
  apply length_pos_of_ne_nil
  intro hnil
  rw [hnil] at hend
  cases hend

theorem readBackendHead_pieces {head : List Byte} (h : IsHeadOf crate head p) :
    exists ps, CutInto head ps ∧ forall source more, source.pieces = ps ++ more ->
      exists s, s.pieces = more ∧ readBackendHead ⟨[], source, none⟩ = .ok ⟨head, s, none⟩ := by
  have hend := (parseResponseHead_some h.parsed).1
  have hpos := h.length_pos
  obtain ⟨first, last, hhead, hne, hcap, hlimit⟩ : exists first last, head = first ++ last ∧
      last ≠ [] ∧ first.length ≤ 1048576 ∧ last.length ≤ 4096 := by
    have hshort := h.short
    refine ⟨head.take (min 1048576 (head.length - 1)), head.drop (min 1048576 (head.length - 1)),
      (take_append_drop _ _).symm, ?_, ?_, ?_⟩
    · rw [← length_pos_iff, length_drop]
      omega
    · rw [length_take]
      omega
    · rw [length_drop]
      omega
  have hnone : headEnd first = none := by
    cases hearly : headEnd first with
    | none => rfl
    | some n =>
      obtain ⟨_, _, _, hle⟩ := headEnd_some hearly
      have hlater := headEnd_append hearly last
      have hlength := length_pos_of_ne_nil hne
      rw [← hhead, hend, Option.some_inj, h.offset, hhead, length_append] at hlater
      omega
  refine ⟨apart first ++ [last], hhead ▸ cutInto_ending first hne, ?_⟩
  intro source more hpieces
  obtain ⟨k, hk⟩ : exists k, source.bytes.length + 1 = k + 1 + first.length + 1 := by
    have hlength := length_pos_of_ne_nil hne
    refine ⟨source.bytes.length - first.length - 1, ?_⟩
    rw [Source.bytes_append hpieces (cutInto_ending first hne), length_append, length_append]
    omega
  rw [append_assoc] at hpieces
  obtain ⟨s, scanner, hs, hscan, hread⟩ := @readUntilHeadFrom_apart (k + 1) _ [] first last _ _
    (HeadEndScanner.new_resumes _) hnone hcap hpieces hlimit
  rw [nil_append, ← hhead] at hread hscan
  refine ⟨s, hs, ?_⟩
  rw [readBackendHead, hk, hread, readUntilHeadFrom, HeadEndScanner.feed_eq hscan, hend]
  rfl

theorem finalHead_pieces (h : Leads crate heads p) :
    exists ps, CutInto heads ps ∧ forall source more, source.pieces = ps ++ more ->
      exists start head s, readBackendHead ⟨[], source, none⟩ = .ok start ∧
        head.length = p.bodyOffset ∧ s.pieces = more ∧ forall fuel, heads.length < fuel ->
          finalHead crate fuel start = .ok (p, ⟨head, s, none⟩) := by
  induction h with
  | @final head p hhead hfinal =>
    obtain ⟨ps, hcut, hread⟩ := readBackendHead_pieces hhead
    refine ⟨ps, hcut, ?_⟩
    intro source more hpieces
    obtain ⟨s, hs, hstart⟩ := hread source more hpieces
    refine ⟨_, head, s, hstart, hhead.offset.symm, hs, ?_⟩
    intro fuel hfuel
    cases fuel with
    | zero => cases hfuel
    | succ fuel =>
      rw [finalHead, hhead.parsed]
      dsimp only
      rw [if_neg hfinal]
  | @interim head heads q p hhead hinterim hswitch _ ih =>
    obtain ⟨ps, hcut, hread⟩ := readBackendHead_pieces hhead
    obtain ⟨qs, hqs, hrest⟩ := ih
    refine ⟨ps ++ qs, hcut.append hqs, ?_⟩
    intro source more hpieces
    rw [append_assoc] at hpieces
    obtain ⟨s, hs, hstart⟩ := hread source _ hpieces
    obtain ⟨start, last, s', hnext, hlength, hs', hfinal⟩ := hrest s more hs
    refine ⟨_, last, s', hstart, hlength, hs', ?_⟩
    intro fuel hfuel
    cases fuel with
    | zero => cases hfuel
    | succ fuel =>
      have hempty : head.drop q.bodyOffset = [] := drop_of_length_le (Nat.le_of_eq hhead.offset.symm)
      have hpos := hhead.length_pos
      rw [finalHead, hhead.parsed]
      dsimp only
      rw [if_pos hinterim, if_neg hswitch, hempty, hnext]
      rw [length_append] at hfuel
      exact hfinal fuel (by omega)

/-!
## The whole relay
-/

theorem framed_page (crate : HttpCrate) (source : Source) (status : Nat) (page : List Byte) :
    Framed crate source (.page (sendH2Error status page)) := by
  refine ⟨trivial, ?_⟩
  intro _ row hrow hlength
  unfold Answer.response sendH2Error at hrow
  dsimp only at hrow
  split at hrow
  · cases hrow
  · rw [mem_singleton.mp hrow] at hlength
    exact absurd hlength (by decide +kernel)

/-- Every reading of the lines of a chunked body that is relayed gives the data of the body, with
as many bytes as a length beside the chunks announces. -/
def ClearFraming (crate : HttpCrate) (bytes : List Byte) : Prop :=
  forall heads p rest data, Leads crate heads p -> bytes = heads ++ rest ->
    crate.statusOk p.status = true -> p.bodiless = false -> p.chunked = true ->
    ChunkedBody TakenLine rest data ->
    ChunkedBody IsLine rest data ∧ forall n, p.contentLength = some n -> data.length = n

theorem Delivered.clear {fails : Bool} {heads rest data : List Byte}
    (h : Delivered TakenLine p fails rest data) (hclear : ClearFraming crate (heads ++ rest))
    (hleads : Leads crate heads p) (hok : crate.statusOk p.status = true)
    (hbody : p.bodiless = false) :
    Delivered IsLine p fails rest data ∧ forall n, p.contentLength = some n -> data.length = n := by
  unfold Delivered at h ⊢
  rw [hbody, if_neg Bool.false_ne_true] at h ⊢
  by_cases hchunked : p.chunked = true
  · rw [if_pos hchunked] at h ⊢
    exact hclear heads p rest data hleads rfl hok hbody hchunked h
  · rw [if_neg hchunked] at h ⊢
    refine ⟨h, ?_⟩
    intro n hlength
    rw [hlength] at h
    rw [h.2, length_take, Nat.min_eq_left h.1]

theorem framed_relayHead {heads rest : List Byte} (hleads : Leads crate heads p)
    (hbytes : source.bytes = heads ++ rest) (hbody : p.bodiless = true) :
    Framed crate source (.relay (relayHead p)) := by
  constructor
  · intro _
    refine ⟨heads, p, rest, hleads, hbytes, ?_⟩
    rw [Delivered, if_pos hbody]
    rfl
  · intro _ row hrow hlength
    unfold Answer.response relayHead at hrow
    rw [if_pos hbody, mem_filter, hlength] at hrow
    cases hrow.2

theorem framed_relayBody (hvalue : forall v w, crate.headerValue v = some w -> w = v)
    (hclear : ClearFraming crate source.bytes) (hleads : Leads crate heads p)
    (hbytes : source.bytes = heads ++ r.bytes) (hfails : r.source.fails = source.fails)
    (hok : crate.statusOk p.status = true) (hbody : p.bodiless = false)
    (hshort : r.avail.length ≤ 8192) :
    Framed crate source (.relay (relayBody crate p r)) := by
  have hclean : (relayBody crate p r).ending = .clean ->
      Delivered IsLine p source.fails r.bytes (relayBody crate p r).frames.flatten ∧
        forall n, p.contentLength = some n ->
          (relayBody crate p r).frames.flatten.length = n := by
    intro hending
    have hdone : (streamBody crate p r).trailers.isSome = true := by
      unfold relayBody at hending
      dsimp only at hending
      split at hending
      · assumption
      · cases hending
    rw [← hfails]
    exact (streamBody_delivered hbody hdone hshort).clear (hbytes ▸ hclear) hleads hok hbody
  constructor
  · intro hending
    exact ⟨heads, p, r.bytes, hleads, hbytes, (hclean hending).1⟩
  · intro hending row hrow hlength
    obtain ⟨n, hn, hdigits⟩ := hleads.length hvalue (mem_of_mem_filter hrow) hlength
    rw [hdigits, ← (hclean hending).2 n hn]
    rfl

theorem framed_of_clear (hvalue : forall v w, crate.headerValue v = some w -> w = v)
    (hclear : ClearFraming crate source.bytes) (deadline : Option Nat) (notFoundPage : List Byte) :
    Framed crate source (streamH2Response crate deadline false notFoundPage source) := by
  unfold streamH2Response
  cases hread : readBackendHead ⟨[], source, deadline⟩ with
  | error e =>
    cases e with
    | closed => exact framed_page crate source 404 notFoundPage
    | timedOut => exact framed_page crate source 504 []
  | ok h =>
    obtain ⟨hbytes, hfails, hbound⟩ := readBackendHead_ok hread (Nat.zero_le _)
    dsimp only
    split
    · rename_i e hfinal
      cases e with
      | read e =>
        cases e with
        | closed => exact framed_page crate source 404 notFoundPage
        | timedOut => exact framed_page crate source 504 []
      | malformed => exact framed_page crate source 404 notFoundPage
      | switchingProtocols => exact framed_page crate source 404 notFoundPage
    · rename_i p h' hfinal
      obtain ⟨⟨heads, hleads, hsplit⟩, hsame, hshort⟩ := finalHead_ok hfinal hbound
      have hsource : source.bytes = heads ++ (h'.buf.drop p.bodyOffset ++ h'.source.bytes) :=
        hbytes.symm.trans hsplit
      split
      · exact framed_page crate source 404 notFoundPage
      · rename_i hok
        split
        · rename_i hbody
          exact framed_relayHead hleads hsource hbody
        · rename_i hbody
          rw [Bool.not_eq_true, Bool.not_eq_false'] at hok
          exact framed_relayBody hvalue hclear hleads hsource (hsame.trans hfails) hok
            (Bool.eq_false_iff.mpr hbody) (hshort.trans (by decide))

theorem IsHeadOf.append {head : List Byte} (h : IsHeadOf crate head p) (rest : List Byte) :
    parseResponseHead crate (head ++ rest) = some p := by
  have hend := (parseResponseHead_some h.parsed).1
  have hparsed := h.parsed
  unfold parseResponseHead at hparsed ⊢
  rw [hend] at hparsed
  rw [headEnd_append hend rest, Option.bind_some, take_append_of_le_length (Nat.le_of_eq h.offset)]
  exact hparsed

theorem IsHeadOf.unique {head head' rest rest' : List Byte} {p p' : ParsedHead}
    (h : IsHeadOf crate head p) (h' : IsHeadOf crate head' p')
    (heq : head ++ rest = head' ++ rest') : p = p' ∧ rest = rest' := by
  have hsame : p = p' := by
    rw [← Option.some_inj, ← h.append rest, heq, h'.append rest']
  refine ⟨hsame, (append_inj heq ?_).2⟩
  rw [← h.offset, ← h'.offset, hsame]

/-- The bytes determine the head that is answered with. -/
theorem Leads.unique {heads heads' rest rest' : List Byte} {p p' : ParsedHead}
    (h : Leads crate heads p) (h' : Leads crate heads' p')
    (heq : heads ++ rest = heads' ++ rest') : p = p' ∧ rest = rest' := by
  induction h generalizing heads' with
  | final hhead hfinal =>
    cases h' with
    | final hhead' _ => exact hhead.unique hhead' heq
    | interim hhead' hinterim' _ _ =>
      rw [append_assoc] at heq
      rw [(hhead.unique hhead' heq).1] at hfinal
      exact absurd hinterim' hfinal
  | interim hhead hinterim _ _ ih =>
    rw [append_assoc] at heq
    cases h' with
    | final hhead' hfinal' =>
      rw [(hhead.unique hhead' heq).1] at hinterim
      exact absurd hinterim hfinal'
    | interim hhead' _ _ hleads' =>
      rw [append_assoc] at heq
      exact ih hleads' (hhead.unique hhead' heq).2

/-!
## Every clean reading is framed
-/

theorem mem_setLength (h : rows.find? isContentLength = some row) :
    (row.1, value) ∈ setLength value rows := by
  induction rows with
  | nil =>
    cases h
  | cons first rows ih =>
    rw [find?_cons] at h
    rw [setLength]
    cases hfirst : isContentLength first with
    | true =>
      rw [hfirst] at h
      cases h
      exact mem_cons_self
    | false =>
      rw [hfirst] at h
      exact mem_cons_of_mem first (ih h)

theorem Leads.lengthRow (h : Leads crate heads p) {n : Nat} (hn : p.contentLength = some n) :
    exists row, row ∈ p.headers ∧ isContentLength row = true := by
  induction h with
  | final hhead _ =>
    obtain ⟨_, _, rows, valid, _, hvalid, hheaders, hlen⟩ := parseResponseHead_some hhead.parsed
    rw [hlen] at hn
    rw [hheaders]
    unfold validLength at hvalid
    split at hvalid
    · cases hvalid
      cases hn
    · rename_i row hrow
      obtain ⟨_, _, hset⟩ := Option.bind_eq_some_iff.mp hvalid
      obtain ⟨value, _, heq⟩ := Option.map_eq_some_iff.mp hset
      rw [← heq]
      have hlength : isContentLength row = true := find?_some hrow
      exact ⟨_, mem_setLength hrow, hlength⟩
  | interim _ _ _ _ ih => exact ih hn

theorem mem_forwarded (h : row ∈ rows) (hlength : isContentLength row = true) :
    row ∈ forwarded rows := by
  refine mem_filter.mpr ⟨h, ?_⟩
  have hname : lowered row.1 = lowered (utf8 "content-length") := of_decide_eq_true hlength
  have hkept : isHopByHop row.1 = false := by
    unfold isHopByHop eqIgnoreAsciiCase
    rw [hname]
    decide +kernel
  rw [hkept]
  rfl

/-- A clean response has the whole body and the announced length, however it comes, exactly if the
framing is clear. -/
theorem relay_framed_iff {crate : HttpCrate}
    (hvalue : forall v w, crate.headerValue v = some w -> w = v) (bytes : List Byte)
    (fails : Bool) :
    (forall source deadline notFoundPage, source.bytes = bytes -> source.fails = fails ->
      Framed crate source (streamH2Response crate deadline false notFoundPage source)) ↔
      ClearFraming crate bytes := by
  constructor
  · intro hframed heads p rest data hleads hbytes hok hbody hchunked hdata
    obtain ⟨ps, hps, hheads⟩ := finalHead_pieces hleads
    obtain ⟨qs, hqs, hstream⟩ := @streamChunkedBody_pieces crate _ _ hdata
    have hcut := hps.append hqs
    obtain ⟨start, head, s, hstart, hhead, hs, hfinal⟩ :=
      hheads ⟨ps ++ qs, fails, hcut.filled⟩ qs rfl
    obtain ⟨hclean, hflatten⟩ := hstream s (s.bytes.length + 1) hs (by
      rw [Source.bytes, hs, hqs.flatten]
      exact Nat.lt_succ_self _)
    have hrelay : streamH2Response crate none false [] ⟨ps ++ qs, fails, hcut.filled⟩ =
        .relay (relayBody crate p ⟨[], s⟩) := by
      have hfuel : heads.length < start.buf.length + start.source.bytes.length + 1 := by
        have hlength := congrArg length (readBackendHead_ok hstart (Nat.zero_le _)).1
        unfold HeadRead.bytes Source.bytes at hlength
        rw [hcut.flatten, length_append, length_append, length_append] at hlength
        unfold Source.bytes
        omega
      rw [streamH2Response, hstart]
      dsimp only
      rw [hfinal _ hfuel]
      dsimp only
      rw [hok, hbody, drop_of_length_le (Nat.le_of_eq hhead)]
      rfl
    have hbody' : streamBody crate p ⟨[], s⟩ =
        streamChunkedBody crate (s.bytes.length + 1) ⟨[], s⟩ := by
      rw [streamBody, if_pos hchunked]
      rfl
    have hkept := hframed ⟨ps ++ qs, fails, hcut.filled⟩ none [] (hcut.flatten.trans hbytes.symm) rfl
    rw [hrelay] at hkept
    have hending : (relayBody crate p ⟨[], s⟩).ending = .clean := by
      rw [relayBody, hbody', if_pos hclean]
    have hframes : (relayBody crate p ⟨[], s⟩).frames.flatten = data := by
      rw [relayBody, hbody', hflatten]
    constructor
    · obtain ⟨heads', p', rest', hleads', hbytes', hdelivered⟩ := hkept.1 hending
      obtain ⟨rfl, rfl⟩ := hleads.unique hleads' (hcut.flatten.symm.trans hbytes')
      rw [Delivered, hbody, if_neg Bool.false_ne_true, if_pos hchunked, hframes] at hdelivered
      exact hdelivered
    · intro n hn
      obtain ⟨row, hrow, hlength⟩ := hleads.lengthRow hn
      obtain ⟨m, hm, hdigits⟩ := hleads.length hvalue hrow hlength
      have hdata := hkept.2 hending row (mem_forwarded hrow hlength) hlength
      rw [hdigits, Option.some_inj] at hdata
      rw [hn, Option.some_inj] at hm
      rw [hm, hdata]
      exact (congrArg length hframes).symm
  · intro hclear source deadline notFoundPage hbytes _
    exact framed_of_clear hvalue (hbytes ▸ hclear) deadline notFoundPage

def sampleCrate : HttpCrate where
  headerName n := if isToken n then some (lowered n) else none
  headerValue v := if valueBytesHaveCtl v then none else some v
  statusOk n := 100 ≤ n && n < 1000

theorem sampleCrate_value (v w : List Byte) (h : sampleCrate.headerValue v = some w) : w = v := by
  unfold sampleCrate at h
  dsimp only at h
  split at h
  · cases h
  · cases h
    rfl

def sourceOf (pieces : List (List Byte)) : Source where
  pieces := pieces.filter fun p => !p.isEmpty
  fails := false
  filled := by
    intro p hp hnil
    rw [hnil, mem_filter] at hp
    cases hp.2

def sampleSource : Source :=
  sourceOf [utf8 "HTTP/1.1 200 OK\r\nContent-Len", utf8 "gth: 2\r\n\r\nhi"]

theorem clear_sampleSource : ClearFraming sampleCrate sampleSource.bytes := by
  intro heads p rest data hleads hbytes _ _ hchunked
  have hparse : parseResponseHead sampleCrate (utf8 "HTTP/1.1 200 OK\r\nContent-Length: 2\r\n\r\n") =
      some ⟨200, [(utf8 "content-length", utf8 "2")], some 2, 38⟩ := by decide +kernel
  have hsample := Leads.final ⟨hparse, by decide, by decide⟩ (by decide)
  rw [← (hsample.unique hleads (show _ ++ utf8 "hi" = _ from hbytes)).1] at hchunked
  exact absurd hchunked (by decide +kernel)

theorem relay_framed_iff_sample :
    Framed sampleCrate sampleSource (streamH2Response sampleCrate none false [] sampleSource) ∧
    (streamH2Response sampleCrate none false [] sampleSource).response.frames.flatten =
      utf8 "hi" :=
  ⟨(relay_framed_iff sampleCrate_value _ _).mpr clear_sampleSource _ none [] rfl rfl,
    by decide +kernel⟩

def twiceFramed : Source :=
  sourceOf [utf8 "HTTP/1.1 200 OK\r\nTransfer-Encoding: chunked\r\nContent-Length: 5\r\n\r\n",
    utf8 "0\r\n\r\n"]

def bareLine : List Byte :=
  utf8 "HTTP/1.1 200 OK\r\nTransfer-Encoding: chunked\r\n\r\n5;x\n"

def afterBareLine : List Byte :=
  utf8 "abcde\r\n0\r\n\r\n\r\n0\r\n\r\n"

/-- Five bytes are announced and none are sent; and what is sent of a body with such a line
depends on the pieces it comes in. -/
theorem framing_broken :
    ¬ Framed sampleCrate twiceFramed (streamH2Response sampleCrate none false [] twiceFramed) ∧
    (sourceOf [bareLine ++ afterBareLine]).bytes = (sourceOf [bareLine, afterBareLine]).bytes ∧
    (streamH2Response sampleCrate none false [] (sourceOf [bareLine ++ afterBareLine])).response =
      ⟨200, [], [utf8 "0\r\n\r\n"], [], .clean⟩ ∧
    (streamH2Response sampleCrate none false [] (sourceOf [bareLine, afterBareLine])).response =
      ⟨200, [], [utf8 "abcde"], [], .clean⟩ := by
  refine ⟨?_, ?_, ?_, ?_⟩
  · intro h
    have hresponse : (streamH2Response sampleCrate none false [] twiceFramed).response =
        ⟨200, [(utf8 "content-length", utf8 "5")], [], [], .clean⟩ := by decide +kernel
    have hlength := h.2
    have hdigits := hlength rfl _ mem_cons_self (by decide +kernel)
    exact absurd hdigits (by decide +kernel)
  · decide +kernel
  · decide +kernel
  · decide +kernel

end H2c
end Http
end FrpRs
