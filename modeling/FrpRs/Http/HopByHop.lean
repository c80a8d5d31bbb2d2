import FrpRs.Http.VhostHead

/-!
# Hop-by-hop headers

`strip_vhost_hop_by_hop_headers` of `frp-server/src/vhost/forward.rs`.

The head of a request loses the headers that are meant for the proxy only.  The code walks
over the lines once; what a `Connection` line names is dropped from the lines after it, and a
continuation line is never dropped.
-/

namespace FrpRs
namespace Http
namespace Vhost

open List Bytes Lines Blocks Textproto

/-- The names in a `Connection` value. -/
def tokensOf (value : List Byte) : List (List Byte) :=
  ((value.splitOn comma).map trimOws).filter fun tok => tok ≠ []

/-- What the walk over the lines has gathered. -/
structure Stripping where
  out : List (List Byte)
  connNamed : List (List Byte)
  upgradeValue : Option (List Byte)
  connectionUpgrade : Bool
  teTrailers : Bool
  teChunked : Bool
deriving DecidableEq, Repr

namespace Stripping

def start (requestLine : List (List Byte)) : Stripping where
  out := requestLine
  connNamed := []
  upgradeValue := none
  connectionUpgrade := false
  teTrailers := false
  teChunked := false

def push (s : Stripping) (line : List Byte) : Stripping :=
  { s with out := s.out ++ [line] }

def token (s : Stripping) (tok : List Byte) : Stripping :=
  { s with
    connectionUpgrade := s.connectionUpgrade || eqIgnoreAsciiCase tok (utf8 "upgrade")
    connNamed := if s.connNamed.contains tok then s.connNamed else s.connNamed ++ [tok] }

def header (s : Stripping) (line name value : List Byte) : Stripping :=
  if eqIgnoreAsciiCase name (utf8 "connection") then (tokensOf value).foldl token s
  else if eqIgnoreAsciiCase name (utf8 "te") then
    { s with
      teTrailers := ((value.splitOn comma).map trimOws).any fun tok =>
        eqIgnoreAsciiCase tok (utf8 "trailers") }
  else if eqIgnoreAsciiCase name (utf8 "upgrade") then
    { s with upgradeValue := s.upgradeValue.or (some value) }
  else if eqIgnoreAsciiCase name (utf8 "transfer-encoding") then
    if eqIgnoreAsciiCase value (utf8 "chunked") then { s with teChunked := true }
    else s.push line
  else if eqIgnoreAsciiCase name (utf8 "trailer") then s.push line
  else if eqIgnoreAsciiCase name (utf8 "proxy-connection") ||
      eqIgnoreAsciiCase name (utf8 "keep-alive") ||
      eqIgnoreAsciiCase name (utf8 "proxy-authenticate") ||
      eqIgnoreAsciiCase name (utf8 "proxy-authorization") then s
  else if s.connNamed.any fun tok => eqIgnoreAsciiCase name tok then s
  else s.push line

def line (s : Stripping) (line : List Byte) : Stripping :=
  if lineContent line = [] then s
  else match cut colon (lineContent line) with
    | none => s.push line
    | some (name, value) => s.header line name (trimOws value)

def upgrade (s : Stripping) : Option (List Byte) :=
  if s.connectionUpgrade then s.upgradeValue else none

def upgradeLines (s : Stripping) : List (List Byte) :=
  match s.upgrade with
  | none => []
  | some value => [utf8 "Connection: Upgrade", utf8 "Upgrade: " ++ value]

def readded (s : Stripping) : List (List Byte) :=
  (if s.teTrailers then [utf8 "Te: trailers"] else []) ++
    (if s.teChunked then [utf8 "Transfer-Encoding: chunked"] else []) ++ s.upgradeLines

end Stripping

def strippingOf (head : List Byte) : Stripping :=
  let lines := splitInclusive lf head
  (lines.drop 1).foldl Stripping.line (Stripping.start (lines.take 1))

def headOf (data : List Byte) : List Byte :=
  data.take ((headEnd data).getD data.length)

def tailOf (data : List Byte) : List Byte :=
  data.drop ((headEnd data).getD data.length)

def stripVhostHopByHopHeaders (data : List Byte) : List Byte × Option (List Byte) :=
  let s := strippingOf (headOf data)
  (s.out.flatten ++ text s.readded ++ crlf ++ tailOf data, s.upgrade)

/-!
## What is to be removed
-/

def nameOf (line : List Byte) : List Byte :=
  ((cut colon line).map Prod.fst).getD []

def valueOf (line : List Byte) : List Byte :=
  ((cut colon line).map Prod.snd).getD []

def headerName (b : Block (List Byte)) : List Byte :=
  lowered (nameOf b.first)

def headerValue (b : Block (List Byte)) : List Byte :=
  trimOws (HeadScan.merged (valueOf b.first) b.rest)

def hopNames : List (List Byte) :=
  [utf8 "connection", utf8 "proxy-connection", utf8 "keep-alive", utf8 "proxy-authenticate",
    utf8 "proxy-authorization", utf8 "te", utf8 "upgrade"]

def framingNames : List (List Byte) :=
  [utf8 "host", utf8 "content-length", utf8 "transfer-encoding", utf8 "trailer"]

/-- The names in the value of a `Connection` header. -/
def connectionTokens (b : Block (List Byte)) : List (List Byte) :=
  if headerName b = utf8 "connection" then tokensOf (headerValue b) else []

def NamedBy (bs : List (Block (List Byte))) (b : Block (List Byte)) : Prop :=
  exists c, c ∈ bs ∧ exists tok, tok ∈ connectionTokens c ∧
    eqIgnoreAsciiCase (nameOf b.first) tok = true

instance (bs : List (Block (List Byte))) (b : Block (List Byte)) : Decidable (NamedBy bs b) :=
  inferInstanceAs (Decidable (exists c, c ∈ bs ∧ exists tok, tok ∈ connectionTokens c ∧
    eqIgnoreAsciiCase (nameOf b.first) tok = true))

def isChunked (b : Block (List Byte)) : Bool :=
  headerName b = utf8 "transfer-encoding" && eqIgnoreAsciiCase (headerValue b) (utf8 "chunked")

def isRemoved (headers : List (Block (List Byte))) (b : Block (List Byte)) : Bool :=
  hopNames.contains (headerName b) || isChunked b ||
    (!framingNames.contains (headerName b) && NamedBy headers b)

def forwardedLines (d : Head) (tail : List Byte) : List (List Byte) :=
  ((strippingOf (headOf (d.bytes ++ tail))).out.drop 1).map lineContent

def StripsHopByHop (d : Head) (tail : List Byte) : Prop :=
  blocks continues (forwardedLines d tail) = ([], remaining (isRemoved d.headers) d.headers)

/-!
## One line
-/

/-- A line that the walk drops, after `Connection` lines with the given names. -/
def dropsLine (named : List (List Byte)) (line : List Byte) : Bool :=
  hopNames.contains (lowered (nameOf line)) ||
    (lowered (nameOf line) = utf8 "transfer-encoding" &&
      eqIgnoreAsciiCase (trimOws (valueOf line)) (utf8 "chunked")) ||
    (lowered (nameOf line) ≠ utf8 "transfer-encoding" && lowered (nameOf line) ≠ utf8 "trailer" &&
      named.any fun tok => eqIgnoreAsciiCase (nameOf line) tok)

def lineTokens (line : List Byte) : List (List Byte) :=
  if lowered (nameOf line) = utf8 "connection" then tokensOf (trimOws (valueOf line)) else []

theorem eqIgnoreAsciiCase_lower {c : List Byte} (hc : lowered c = c) (name : List Byte) :
    eqIgnoreAsciiCase name c = decide (lowered name = c) := by
  rw [eqIgnoreAsciiCase, hc]

theorem isOws_toAsciiLower (b : Byte) : isOws (toAsciiLower b) = isOws b := by
  unfold toAsciiLower
  split
  · rename_i hupper
    have h9 : (9 : UInt8).toNat = 9 := rfl
    have h32 : (32 : UInt8).toNat = 32 := rfl
    have h65 : (65 : UInt8).toNat = 65 := rfl
    have h90 : (90 : UInt8).toNat = 90 := rfl
    simp only [isAsciiUpper, Bool.and_eq_true, decide_eq_true_eq, UInt8.le_iff_toNat_le, h65,
      h90] at hupper
    simp only [isOws, space, htab, ← UInt8.toNat_inj, UInt8.toNat_add, h9, h32]
    rw [decide_eq_false (by omega), decide_eq_false (by omega), decide_eq_false (by omega),
      decide_eq_false (by omega)]
  · rfl

theorem continues_of_eqIgnoreAsciiCase {a b : List Byte} (h : eqIgnoreAsciiCase a b = true) :
    continues a = continues b := by
  have hlower : forall bs : List Byte, continues (lowered bs) = continues bs := by
    intro bs
    cases bs with
    | nil => rfl
    | cons b bs => exact isOws_toAsciiLower b
  rw [← hlower a, ← hlower b, of_decide_eq_true h]

theorem continues_trimOws (bs : List Byte) : continues (trimOws bs) = false := by
  cases htrim : trimOws bs with
  | nil => rfl
  | cons b rest =>
    obtain ⟨ending, hending⟩ := rdropWhile_prefix isOws (l := bs.dropWhile isOws)
    have hnot := head?_dropWhile_not isOws bs
    rw [← hending, ← trimOws, htrim] at hnot
    simpa [continues] using hnot

theorem trimOws_trimOws (bs : List Byte) : trimOws (trimOws bs) = trimOws bs := by
  have hhead : (trimOws bs).dropWhile isOws = trimOws bs := by
    have hcont := continues_trimOws bs
    cases htrim : trimOws bs with
    | nil => rfl
    | cons b rest =>
      rw [htrim] at hcont
      exact dropWhile_cons_of_neg (by simpa [continues] using hcont)
  rw [trimOws, hhead, trimOws, rdropWhile_idempotent]

theorem continues_of_mem_tokensOf {value tok : List Byte} (htok : tok ∈ tokensOf value) :
    continues tok = false := by
  obtain ⟨piece, _, heq⟩ := mem_map.mp (mem_of_mem_filter htok)
  exact heq ▸ continues_trimOws piece

theorem continues_of_mem_lineTokens {line tok : List Byte} (htok : tok ∈ lineTokens line) :
    continues tok = false := by
  rw [lineTokens] at htok
  split at htok
  · exact continues_of_mem_tokensOf htok
  · cases htok

theorem headerValue_of_unfolded {b : Block (List Byte)} (h : b.rest = []) :
    headerValue b = trimOws (valueOf b.first) := by
  rw [headerValue, HeadScan.merged, h, flatMap_nil, append_nil, trimOws_trimOws]

theorem connectionTokens_of_unfolded {b : Block (List Byte)} (h : b.rest = []) :
    connectionTokens b = lineTokens b.first := by
  rw [connectionTokens, lineTokens, headerName, headerValue_of_unfolded h]

namespace Stripping

theorem foldl_token_out (toks : List (List Byte)) (s : Stripping) :
    (toks.foldl token s).out = s.out := by
  induction toks generalizing s with
  | nil =>
    rfl
  | cons tok toks ih =>
    rw [foldl_cons, ih]
    rfl

theorem mem_foldl_token {tok : List Byte} (toks : List (List Byte)) (s : Stripping) :
    tok ∈ (toks.foldl token s).connNamed ↔ tok ∈ s.connNamed ∨ tok ∈ toks := by
  induction toks generalizing s with
  | nil =>
    simp
  | cons tok' toks ih =>
    rw [foldl_cons, ih, mem_cons, ← or_assoc]
    apply or_congr_left
    rw [token]
    dsimp only
    rw [contains_eq_mem]
    split
    · rename_i hmem
      exact ⟨.inl, fun h => h.elim id fun heq => heq ▸ of_decide_eq_true hmem⟩
    · rw [mem_append, mem_singleton]

variable {content : List Byte} {named : List (List Byte)}

theorem dropsLine_of_hop (h : lowered (nameOf content) ∈ hopNames) :
    dropsLine named content = true := by
  rw [dropsLine, contains_eq_mem, decide_eq_true h, Bool.true_or, Bool.true_or]

theorem dropsLine_of_encoding (h : lowered (nameOf content) = utf8 "transfer-encoding") :
    dropsLine named content = eqIgnoreAsciiCase (trimOws (valueOf content)) (utf8 "chunked") := by
  have hhop : utf8 "transfer-encoding" ∉ hopNames := by decide
  simp [dropsLine, h, hhop]

theorem dropsLine_of_trailer (h : lowered (nameOf content) = utf8 "trailer") :
    dropsLine named content = false := by
  have hhop : utf8 "trailer" ∉ hopNames := by decide
  have hne : utf8 "trailer" ≠ utf8 "transfer-encoding" := by decide
  simp [dropsLine, h, hhop, hne]

theorem dropsLine_of_other (hhop : lowered (nameOf content) ∉ hopNames)
    (hencoding : lowered (nameOf content) ≠ utf8 "transfer-encoding")
    (htrailer : lowered (nameOf content) ≠ utf8 "trailer") :
    dropsLine named content = named.any fun tok => eqIgnoreAsciiCase (nameOf content) tok := by
  simp [dropsLine, hhop, hencoding, htrailer]

variable (s : Stripping)

/-- What the walk does with a header line. -/
theorem header_spec (line : List Byte) {content name value : List Byte}
    (hcut : cut colon content = some (name, value)) :
    (s.header line name (trimOws value)).out =
        s.out ++ (if dropsLine s.connNamed content then [] else [line]) ∧
      forall tok, tok ∈ (s.header line name (trimOws value)).connNamed ↔
        tok ∈ s.connNamed ∨ tok ∈ lineTokens content := by
  have hname : nameOf content = name := by rw [nameOf, hcut]; rfl
  have hvalue : valueOf content = value := by rw [valueOf, hcut]; rfl
  have hlower : forall c, c ∈ hopNames ++ framingNames -> lowered c = c := by decide
  have his : forall c, c ∈ hopNames ++ framingNames ->
      eqIgnoreAsciiCase name c = decide (lowered name = c) := fun c hc =>
    eqIgnoreAsciiCase_lower (hlower c hc) name
  have hkept : forall s' : Stripping, s'.out = s.out -> s'.connNamed = s.connNamed ->
      lowered name ∈ hopNames -> lineTokens content = [] ->
      s'.out = s.out ++ (if dropsLine s.connNamed content then [] else [line]) ∧
        forall tok, tok ∈ s'.connNamed ↔ tok ∈ s.connNamed ∨ tok ∈ lineTokens content := by
    intro s' hout hnamed hhop htoks
    rw [dropsLine_of_hop (hname.symm ▸ hhop), if_pos rfl, append_nil, hnamed, htoks]
    exact ⟨hout, fun tok => by simp⟩
  rw [header, his (utf8 "connection") (by decide), his (utf8 "te") (by decide),
    his (utf8 "upgrade") (by decide), his (utf8 "transfer-encoding") (by decide),
    his (utf8 "trailer") (by decide), his (utf8 "proxy-connection") (by decide),
    his (utf8 "keep-alive") (by decide), his (utf8 "proxy-authenticate") (by decide),
    his (utf8 "proxy-authorization") (by decide)]
  by_cases hconn : lowered name = utf8 "connection"
  · rw [if_pos (decide_eq_true hconn), foldl_token_out,
      dropsLine_of_hop (by rw [hname, hconn]; decide), if_pos rfl, append_nil, lineTokens,
      hname, hvalue, if_pos hconn]
    exact ⟨rfl, fun tok => mem_foldl_token _ s⟩
  have htoks : lineTokens content = [] := by rw [lineTokens, hname, if_neg hconn]
  rw [if_neg (by simpa using hconn)]
  by_cases hte : lowered name = utf8 "te"
  · rw [if_pos (decide_eq_true hte)]
    exact hkept _ rfl rfl (by rw [hte]; decide) htoks
  rw [if_neg (by simpa using hte)]
  by_cases hupgrade : lowered name = utf8 "upgrade"
  · rw [if_pos (decide_eq_true hupgrade)]
    exact hkept _ rfl rfl (by rw [hupgrade]; decide) htoks
  rw [if_neg (by simpa using hupgrade)]
  by_cases hencoding : lowered name = utf8 "transfer-encoding"
  · rw [if_pos (decide_eq_true hencoding), dropsLine_of_encoding (hname.symm ▸ hencoding), hvalue]
    split
    · exact ⟨(append_nil _).symm, fun tok => by simp [htoks]⟩
    · exact ⟨rfl, fun tok => by simp [push, htoks]⟩
  rw [if_neg (by simpa using hencoding)]
  by_cases htrailer : lowered name = utf8 "trailer"
  · rw [if_pos (decide_eq_true htrailer), dropsLine_of_trailer (hname.symm ▸ htrailer)]
    exact ⟨rfl, fun tok => by simp [push, htoks]⟩
  rw [if_neg (by simpa using htrailer)]
  by_cases hhop : lowered name ∈ hopNames
  · rw [if_pos]
    · exact hkept s rfl rfl hhop htoks
    · simpa [hopNames, hconn, hte, hupgrade, or_assoc] using hhop
  · rw [if_neg]
    · rw [dropsLine_of_other (hname.symm ▸ hhop) (hname.symm ▸ hencoding)
        (hname.symm ▸ htrailer), hname]
      split
      · exact ⟨(append_nil _).symm, fun tok => by simp [htoks]⟩
      · exact ⟨rfl, fun tok => by simp [push, htoks]⟩
    · simpa [hopNames, hconn, hte, hupgrade, or_assoc] using hhop

theorem line_header {content name value : List Byte} (hcut : cut colon content = some (name, value)) :
    s.line (content ++ crlf) = s.header (content ++ crlf) name (trimOws value) := by
  have hne : content ≠ [] := by
    intro hnil
    rw [hnil] at hcut
    cases hcut
  rw [line, lineContent_crlf, if_neg hne, hcut]

theorem line_blank : s.line crlf = s := by
  have hblank : lineContent crlf = [] := lineContent_crlf []
  rw [line, hblank, if_pos rfl]

theorem continues_name {content name value : List Byte} (hcont : continues content = true)
    (hcut : cut colon content = some (name, value)) : continues name = true := by
  obtain ⟨hcontent, _⟩ := cut_some hcut
  cases name with
  | nil =>
    rw [hcontent] at hcont
    cases hcont
  | cons b name =>
    rw [hcontent] at hcont
    exact hcont

/-- A continuation line is left. -/
theorem line_continuation {s : Stripping}
    (hnamed : forall tok, tok ∈ s.connNamed -> continues tok = false)
    (hcont : continues content = true) : s.line (content ++ crlf) = s.push (content ++ crlf) := by
  have hne : content ≠ [] := by
    intro hnil
    rw [hnil] at hcont
    cases hcont
  cases hcut : cut colon content with
  | none => rw [line, lineContent_crlf, if_neg hne, hcut]
  | some parts =>
    have hname := continues_name hcont hcut
    have hother : forall c, continues c = false -> eqIgnoreAsciiCase parts.1 c = false := by
      intro c hc
      rw [Bool.eq_false_iff]
      intro heq
      rw [continues_of_eqIgnoreAsciiCase heq, hc] at hname
      cases hname
    have hfixed : forall c, c ∈ hopNames ++ framingNames ->
        eqIgnoreAsciiCase parts.1 c = false := by
      intro c hc
      apply hother
      revert c
      decide
    have htoks : (s.connNamed.any fun tok => eqIgnoreAsciiCase parts.1 tok) = false := by
      rw [any_eq_false]
      intro tok htok
      rw [hother tok (hnamed tok htok)]
      exact Bool.false_ne_true
    rw [line_header s hcut, header, hfixed (utf8 "connection") (by decide),
      hfixed (utf8 "te") (by decide), hfixed (utf8 "upgrade") (by decide),
      hfixed (utf8 "transfer-encoding") (by decide), hfixed (utf8 "trailer") (by decide),
      hfixed (utf8 "proxy-connection") (by decide), hfixed (utf8 "keep-alive") (by decide),
      hfixed (utf8 "proxy-authenticate") (by decide),
      hfixed (utf8 "proxy-authorization") (by decide), htoks]
    rfl

def pushAll (s : Stripping) (lines : List (List Byte)) : Stripping :=
  { s with out := s.out ++ lines }

theorem line_continues {s : Stripping}
    (hcut : exists name value, cut colon content = some (name, value))
    (hcont : forall tok, tok ∈ s.connNamed -> continues tok = false) :
    forall tok, tok ∈ (s.line (content ++ crlf)).connNamed -> continues tok = false := by
  obtain ⟨name, value, hcut⟩ := hcut
  intro tok htok
  rw [s.line_header hcut] at htok
  rcases ((s.header_spec (content ++ crlf) hcut).2 tok).mp htok with hold | hnew
  · exact hcont tok hold
  · exact continues_of_mem_lineTokens hnew

theorem pushAll_out (lines : List (List Byte)) :
    (s.pushAll lines).out = s.out ++ lines :=
  rfl

theorem foldl_continuations {folds : List (List Byte)}
    (hfolds : forall fold, fold ∈ folds -> continues fold = true) {s : Stripping}
    (hnamed : forall tok, tok ∈ s.connNamed -> continues tok = false) :
    (folds.map fun fold => fold ++ crlf).foldl line s =
      s.pushAll (folds.map fun fold => fold ++ crlf) := by
  induction folds generalizing s with
  | nil =>
    simp [pushAll]
  | cons fold folds ih =>
    rw [map_cons, foldl_cons,
      line_continuation hnamed (hfolds fold mem_cons_self)]
    rw [ih (fun fold' hmem => hfolds fold' (mem_cons_of_mem fold hmem)) (s := s.push _)
      hnamed]
    simp [push, pushAll]

end Stripping

theorem dropsLine_congr {named named' : List (List Byte)}
    (h : forall tok, tok ∈ named ↔ tok ∈ named') (line : List Byte) :
    dropsLine named line = dropsLine named' line := by
  have hany : (named.any fun tok => eqIgnoreAsciiCase (nameOf line) tok) =
      named'.any fun tok => eqIgnoreAsciiCase (nameOf line) tok := by
    rw [Bool.eq_iff_iff, any_eq_true, any_eq_true]
    exact exists_congr fun tok => and_congr_left fun _ => h tok
  rw [dropsLine, dropsLine, hany]

/-!
## All lines
-/

def marks : List (List Byte) -> List (Block (List Byte)) -> List (Block (List Byte) × Bool)
  | _, [] => []
  | named, b :: bs => (b, dropsLine named b.first) :: marks (named ++ lineTokens b.first) bs

theorem marks_map_fst (named : List (List Byte)) (bs : List (Block (List Byte))) :
    (marks named bs).map Prod.fst = bs := by
  induction bs generalizing named with
  | nil =>
    rfl
  | cons b bs ih =>
    rw [marks, map_cons, ih]

theorem mem_marks {named : List (List Byte)} {bs : List (Block (List Byte))}
    {m : Block (List Byte) × Bool} :
    m ∈ marks named bs ↔ exists before after, bs = before ++ m.1 :: after ∧
      m.2 = dropsLine (named ++ before.flatMap fun b => lineTokens b.first) m.1.first := by
  induction bs generalizing named with
  | nil =>
    constructor
    · intro hm
      cases hm
    · intro hm
      obtain ⟨before, after, heq, _⟩ := hm
      cases before with
      | nil => cases heq
      | cons b before => cases heq
  | cons b bs ih =>
    rw [marks, mem_cons, ih]
    constructor
    · intro hm
      rcases hm with heq | ⟨before, after, hbs, hdrop⟩
      · refine ⟨[], bs, ?_, ?_⟩
        · rw [heq, nil_append]
        · rw [heq, flatMap_nil, append_nil]
      · refine ⟨b :: before, after, ?_, ?_⟩
        · rw [hbs, cons_append]
        · rw [hdrop, flatMap_cons, append_assoc]
    · intro hm
      obtain ⟨before, after, hbs, hdrop⟩ := hm
      cases before with
      | nil =>
        rw [nil_append, cons.injEq] at hbs
        rw [flatMap_nil, append_nil, ← hbs.1] at hdrop
        exact .inl (Prod.ext hbs.1.symm hdrop)
      | cons b' before =>
        rw [cons_append, cons.injEq] at hbs
        refine .inr ⟨before, after, hbs.2, ?_⟩
        rw [hdrop, hbs.1, flatMap_cons, append_assoc]

/-- The walk drops first lines only. -/
theorem foldl_headers {bs : List (Block (List Byte))}
    (hbs : forall b, b ∈ bs -> b.WellFormed continues ∧ exists name value,
      cut colon b.first = some (name, value))
    {s : Stripping} (hcont : forall tok, tok ∈ s.connNamed -> continues tok = false)
    {named : List (List Byte)} (hnamed : forall tok, tok ∈ s.connNamed ↔ tok ∈ named) :
    (((bs.flatMap Block.items).map fun line => line ++ crlf).foldl Stripping.line s).out =
      s.out ++ (thinned (marks named bs)).map fun line => line ++ crlf := by
  induction bs generalizing s named with
  | nil =>
    simp [marks, thinned]
  | cons b bs ih =>
    obtain ⟨⟨_, hrest⟩, name, value, hcut⟩ := hbs b mem_cons_self
    obtain ⟨hout, hmem⟩ := s.header_spec (b.first ++ crlf) hcut
    rw [← s.line_header hcut] at hout hmem
    have hnext := Stripping.line_continues ⟨name, value, hcut⟩ hcont
    have hnames : forall tok, tok ∈ (s.line (b.first ++ crlf)).connNamed ↔
        tok ∈ named ++ lineTokens b.first := by
      intro tok
      rw [hmem, mem_append, hnamed]
    rw [flatMap_cons, map_append, foldl_append, Block.items, map_cons,
      foldl_cons, Stripping.foldl_continuations hrest hnext]
    rw [ih (fun b' hb' => hbs b' (mem_cons_of_mem b hb')) (s := Stripping.pushAll _ _)
      hnext hnames]
    rw [Stripping.pushAll_out, hout, marks, thinned_cons, thin, map_append,
      map_append, dropsLine_congr hnamed, append_assoc, append_assoc]
    congr 1
    split
    · simp
    · simp

theorem headOf_bytes (d : Head) (tail : List Byte) : headOf (d.bytes ++ tail) = d.bytes := by
  rw [headOf, Head.bytes, headEnd_text d.all_filled, Option.getD_some, take_left]

variable {d : Head}

theorem strippingOf_bytes (h : d.Readable) :
    strippingOf d.bytes = ((d.headers.flatMap Block.items).map fun line => line ++ crlf).foldl
      Stripping.line (Stripping.start [d.requestLine ++ crlf]) := by
  rw [strippingOf, Head.bytes, splitInclusive_head d.all_filled]
  change ((d.lines.map fun line => line ++ crlf) ++ [crlf]).foldl Stripping.line
    (Stripping.start [d.requestLine ++ crlf]) = _
  rw [foldl_append, foldl_cons, foldl_nil, Stripping.line_blank, h.lines]

theorem strippingOf_out (h : d.Readable) :
    (strippingOf d.bytes).out =
      ((d.requestLine :: thinned (marks [] d.headers)).map fun line => line ++ crlf) := by
  rw [strippingOf_bytes h, foldl_headers (fun b hb => ⟨d.headers_wellFormed b hb, h.named b hb⟩)
    (fun tok htok => absurd htok not_mem_nil) (fun tok => Iff.rfl)]
  rfl

theorem forwardedLines_eq (h : d.Readable) (tail : List Byte) :
    forwardedLines d tail = thinned (marks [] d.headers) := by
  rw [forwardedLines, headOf_bytes, strippingOf_out h, map_cons, drop_succ_cons,
    drop_zero, map_map]
  conv_rhs => rw [← map_id (thinned (marks [] d.headers))]
  apply map_congr_left
  intro line _
  exact lineContent_crlf line

theorem tailOf_bytes (d : Head) (tail : List Byte) : tailOf (d.bytes ++ tail) = tail := by
  rw [tailOf, Head.bytes, headEnd_text d.all_filled, Option.getD_some, drop_left]

/-- The forwarded lines are those that leave, between the request line and the headers that the
function adds again. -/
theorem stripVhostHopByHopHeaders_bytes (h : d.Readable) (tail : List Byte) :
    stripVhostHopByHopHeaders (d.bytes ++ tail) =
      (text (d.requestLine :: (forwardedLines d tail ++ (strippingOf d.bytes).readded)) ++ crlf ++
        tail, (strippingOf d.bytes).upgrade) := by
  have hout : (strippingOf d.bytes).out.flatten = text (d.requestLine :: forwardedLines d tail) := by
    rw [strippingOf_out h, forwardedLines_eq h, text, flatMap_def]
  rw [stripVhostHopByHopHeaders, headOf_bytes, tailOf_bytes, hout, ← cons_append, text, text,
    text, flatMap_append]

/-!
## When the walk is right
-/

/-- No header that is to be removed is folded, no `Connection` header names a later `Host` or
`Content-Length`, what `Connection` headers name stands after one that names it, and no
`Transfer-Encoding` line is chunked only without its continuations. -/
structure SuitsWalk (headers : List (Block (List Byte))) : Prop where
  unfolded : Unfolded (isRemoved headers) headers
  spared : forall before b after, headers = before ++ b :: after ->
    headerName b = utf8 "host" ∨ headerName b = utf8 "content-length" -> ¬ NamedBy before b
  named : forall before b after, headers = before ++ b :: after -> headerName b ∉ hopNames ->
    headerName b ∉ framingNames -> NamedBy headers b -> NamedBy before b
  encoding : forall b, b ∈ headers -> headerName b = utf8 "transfer-encoding" ->
    eqIgnoreAsciiCase (trimOws (valueOf b.first)) (utf8 "chunked") = true -> b.rest = []

section Removal

variable {headers : List (Block (List Byte))}

variable {b : Block (List Byte)}

theorem isRemoved_of_hop (h : headerName b ∈ hopNames) :
    isRemoved headers b = true := by
  rw [isRemoved, contains_eq_mem, decide_eq_true h, Bool.true_or, Bool.true_or]

theorem isRemoved_of_encoding (h : headerName b = utf8 "transfer-encoding") :
    isRemoved headers b = eqIgnoreAsciiCase (headerValue b) (utf8 "chunked") := by
  have hhop : utf8 "transfer-encoding" ∉ hopNames := by decide
  have hframing : utf8 "transfer-encoding" ∈ framingNames := by decide
  simp [isRemoved, isChunked, h, hhop, hframing]

theorem isRemoved_of_framing (hframing : headerName b ∈ framingNames)
    (hencoding : headerName b ≠ utf8 "transfer-encoding") : isRemoved headers b = false := by
  have hdisjoint : forall c, c ∈ framingNames -> c ∉ hopNames := by decide
  simp [isRemoved, isChunked, hframing, hencoding, hdisjoint _ hframing]

theorem isRemoved_of_other (hhop : headerName b ∉ hopNames) (hframing : headerName b ∉ framingNames) :
    isRemoved headers b = decide (NamedBy headers b) := by
  have hencoding : headerName b ≠ utf8 "transfer-encoding" := by
    intro heq
    rw [heq] at hframing
    exact hframing (by decide)
  simp [isRemoved, isChunked, hhop, hframing, hencoding]

theorem any_lineTokens_iff {before : List (Block (List Byte))}
    (hbefore : forall c, c ∈ before -> headerName c = utf8 "connection" -> c.rest = [])
    (b : Block (List Byte)) :
    (((before.flatMap fun c => lineTokens c.first).any fun tok =>
      eqIgnoreAsciiCase (nameOf b.first) tok) = true) ↔ NamedBy before b := by
  have htokens : forall c, c ∈ before -> connectionTokens c = lineTokens c.first := by
    intro c hc
    by_cases hname : headerName c = utf8 "connection"
    · exact connectionTokens_of_unfolded (hbefore c hc hname)
    · rw [connectionTokens, lineTokens, ← headerName, if_neg hname, if_neg hname]
  rw [any_eq_true]
  constructor
  · intro h
    obtain ⟨tok, htok, heq⟩ := h
    obtain ⟨c, hc, htok⟩ := mem_flatMap.mp htok
    exact ⟨c, hc, tok, htokens c hc ▸ htok, heq⟩
  · intro h
    obtain ⟨c, hc, tok, htok, heq⟩ := h
    exact ⟨tok, mem_flatMap.mpr ⟨c, hc, htokens c hc ▸ htok⟩, heq⟩

variable {before after : List (Block (List Byte))}

theorem marks_iff (h : Unfolded (isRemoved headers) headers)
    (hheaders : headers = before ++ b :: after) :
    (dropsLine (before.flatMap fun c => lineTokens c.first) b.first = true ↔
      headerName b ∈ hopNames ∨
      (headerName b = utf8 "transfer-encoding" ∧
        eqIgnoreAsciiCase (trimOws (valueOf b.first)) (utf8 "chunked") = true) ∨
      (headerName b ≠ utf8 "transfer-encoding" ∧ headerName b ≠ utf8 "trailer" ∧
        NamedBy before b)) := by
  have hbefore : forall c, c ∈ before -> headerName c = utf8 "connection" -> c.rest = [] := by
    intro c hc hname
    apply h c
    · rw [hheaders]
      exact mem_append_left _ hc
    · apply isRemoved_of_hop
      rw [hname]
      decide
  rw [← any_lineTokens_iff hbefore b, dropsLine, ← headerName, contains_eq_mem]
  simp only [Bool.or_eq_true, Bool.and_eq_true, decide_eq_true_eq, or_assoc, and_assoc]

theorem NamedBy.mono {bs bs' : List (Block (List Byte))} (h : NamedBy bs b)
    (hbs : forall c, c ∈ bs -> c ∈ bs') : NamedBy bs' b := by
  obtain ⟨c, hc, htok⟩ := h
  exact ⟨c, hbs c hc, htok⟩

theorem isRemoved_of_drops (h : Unfolded (isRemoved headers) headers)
    (hheaders : headers = before ++ b :: after) (hhost : headerName b ≠ utf8 "host")
    (hlength : headerName b ≠ utf8 "content-length")
    (hencoding : headerName b ≠ utf8 "transfer-encoding")
    (hdrop : dropsLine (before.flatMap fun c => lineTokens c.first) b.first = true) :
    isRemoved headers b = true := by
  by_cases hhop : headerName b ∈ hopNames
  · exact isRemoved_of_hop hhop
  rcases (marks_iff h hheaders).mp hdrop with hmem | ⟨hname, _⟩ | ⟨_, htrailer, hnamed⟩
  · exact absurd hmem hhop
  · exact absurd hname hencoding
  · have hframing : headerName b ∉ framingNames := by
      simp [framingNames, hhost, hlength, hencoding, htrailer]
    rw [isRemoved_of_other hhop hframing, decide_eq_true_eq]
    apply hnamed.mono
    intro c hc
    rw [hheaders]
    exact mem_append_left _ hc

theorem drops_of_isRemoved (h : Unfolded (isRemoved headers) headers)
    (hheaders : headers = before ++ b :: after)
    (hencoding : headerName b = utf8 "transfer-encoding") (hremoved : isRemoved headers b = true) :
    dropsLine (before.flatMap fun c => lineTokens c.first) b.first = true := by
  have hmem : b ∈ headers := by
    rw [hheaders]
    exact mem_append_right before mem_cons_self
  have hrest := h b hmem hremoved
  rw [isRemoved_of_encoding hencoding, headerValue_of_unfolded hrest] at hremoved
  exact (marks_iff h hheaders).mpr (.inr (.inl ⟨hencoding, hremoved⟩))

/-- The walk drops the first lines of the headers that are to be removed exactly where the
headers suit it. -/
theorem suitsWalk_iff :
    (Unfolded (isRemoved headers) headers ∧
      forall before b after, headers = before ++ b :: after ->
        dropsLine (before.flatMap fun c => lineTokens c.first) b.first = isRemoved headers b) ↔
      SuitsWalk headers := by
  constructor
  · intro h
    obtain ⟨hunfolded, hsame⟩ := h
    refine ⟨hunfolded, ?_, ?_, ?_⟩
    · intro before b after hheaders hname hnamed
      have hencoding : headerName b ≠ utf8 "transfer-encoding" := by
        rcases hname with hname | hname
        · rw [hname]; decide
        · rw [hname]; decide
      have htrailer : headerName b ≠ utf8 "trailer" := by
        rcases hname with hname | hname
        · rw [hname]; decide
        · rw [hname]; decide
      have hframing : headerName b ∈ framingNames := by
        rcases hname with hname | hname
        · rw [hname]; decide
        · rw [hname]; decide
      have hdrop := (marks_iff hunfolded hheaders).mpr
        (.inr (.inr ⟨hencoding, htrailer, hnamed⟩))
      rw [hsame before b after hheaders, isRemoved_of_framing hframing hencoding] at hdrop
      cases hdrop
    · intro before b after hheaders hhop hframing hnamed
      have hdrop := hsame before b after hheaders
      rw [isRemoved_of_other hhop hframing, decide_eq_true hnamed] at hdrop
      rcases (marks_iff hunfolded hheaders).mp hdrop with hmem | ⟨hname, _⟩ | ⟨_, _, hbefore⟩
      · exact absurd hmem hhop
      · rw [hname] at hframing
        exact absurd (by decide) hframing
      · exact hbefore
    · intro b hb hencoding hchunked
      obtain ⟨before, after, hheaders⟩ := append_of_mem hb
      apply hunfolded b hb
      rw [← hsame before b after hheaders]
      exact (marks_iff hunfolded hheaders).mpr (.inr (.inl ⟨hencoding, hchunked⟩))
  · intro h
    refine ⟨h.unfolded, ?_⟩
    intro before b after hheaders
    have hmem : b ∈ headers := by
      rw [hheaders]
      exact mem_append_right before mem_cons_self
    rw [Bool.eq_iff_iff]
    by_cases hencoding : headerName b = utf8 "transfer-encoding"
    · refine ⟨?_, drops_of_isRemoved h.unfolded hheaders hencoding⟩
      intro hdrop
      rcases (marks_iff h.unfolded hheaders).mp hdrop with hhop | ⟨_, hchunked⟩ | ⟨hne, _⟩
      · exact isRemoved_of_hop hhop
      · rw [isRemoved_of_encoding hencoding,
          headerValue_of_unfolded (h.encoding b hmem hencoding hchunked)]
        exact hchunked
      · exact absurd hencoding hne
    by_cases hheld : headerName b = utf8 "host" ∨ headerName b = utf8 "content-length"
    · have hframing : headerName b ∈ framingNames := by
        rcases hheld with hname | hname
        · rw [hname]; decide
        · rw [hname]; decide
      have hdisjoint : forall c, c ∈ framingNames -> c ∉ hopNames := by decide
      rw [isRemoved_of_framing hframing hencoding]
      refine ⟨?_, fun hfalse => absurd hfalse Bool.false_ne_true⟩
      intro hdrop
      rcases (marks_iff h.unfolded hheaders).mp hdrop with hhop | ⟨hname, _⟩ | ⟨_, _, hnamed⟩
      · exact absurd hhop (hdisjoint _ hframing)
      · exact absurd hname hencoding
      · exact absurd hnamed (h.spared before b after hheaders hheld)
    · obtain ⟨hhost, hlength⟩ := not_or.mp hheld
      refine ⟨isRemoved_of_drops h.unfolded hheaders hhost hlength hencoding, ?_⟩
      intro hremoved
      apply (marks_iff h.unfolded hheaders).mpr
      by_cases hhop : headerName b ∈ hopNames
      · exact .inl hhop
      · by_cases htrailer : headerName b = utf8 "trailer"
        · have hframing : headerName b ∈ framingNames := by rw [htrailer]; decide
          rw [isRemoved_of_framing hframing hencoding] at hremoved
          cases hremoved
        · have hframing : headerName b ∉ framingNames := by
            simp [framingNames, hhost, hlength, hencoding, htrailer]
          rw [isRemoved_of_other hhop hframing, decide_eq_true_eq] at hremoved
          exact .inr (.inr ⟨hencoding, htrailer,
            h.named before b after hheaders hhop hframing hremoved⟩)

end Removal

/-- A continuation line of a removed header stays, a `Connection` header does not reach the
lines before it, and it does reach `Host` and `Content-Length`; the headers that leave are the
right ones exactly where none of this happens.  Then no line of a `Proxy-Authorization` header
leaves. -/
theorem stripsHopByHop_iff (d : Head) (tail : List Byte)
    (h : validateVhostHeadLines d.bytes = .ok) :
    (StripsHopByHop d tail ↔ SuitsWalk d.headers) ∧
      (SuitsWalk d.headers -> forall line, line ∈ forwardedLines d tail -> exists b,
        b ∈ d.headers ∧ headerName b ≠ utf8 "proxy-authorization" ∧ line ∈ b.items) := by
  have hiff : StripsHopByHop d tail ↔ SuitsWalk d.headers := by
    have hwf : forall m, m ∈ marks [] d.headers -> m.1.WellFormed continues := by
      intro m hm
      apply d.headers_wellFormed
      rw [← marks_map_fst [] d.headers]
      exact mem_map_of_mem hm
    have hsplit : forall m, m ∈ marks [] d.headers -> exists before after,
        d.headers = before ++ m.1 :: after ∧
          m.2 = dropsLine (before.flatMap fun b => lineTokens b.first) m.1.first :=
      fun m hm => mem_marks.mp hm
    have hthin := blocks_thinned_iff hwf (isRemoved d.headers)
      (fun line => lowered (nameOf line) ∉
        [utf8 "host", utf8 "content-length", utf8 "transfer-encoding"]) ?_ ?_
    · rw [marks_map_fst] at hthin
      rw [StripsHopByHop, forwardedLines_eq (readable_of_ok h), hthin, ← suitsWalk_iff]
      apply and_congr_right
      intro _
      constructor
      · intro hsame before b after hheaders
        exact hsame (b, _) (mem_marks.mpr ⟨before, after, hheaders, rfl⟩)
      · intro hsame m hm
        obtain ⟨before, after, hheaders, hdrop⟩ := hsplit m hm
        rw [hdrop]
        exact hsame before m.1 after hheaders
    · rw [marks_map_fst]
      intro hunfolded m hm hkind hdrop
      obtain ⟨before, after, hheaders, heq⟩ := hsplit m hm
      simp only [mem_cons, not_mem_nil, or_false, not_or, decide_eq_true_eq] at hkind
      exact isRemoved_of_drops hunfolded hheaders hkind.1 hkind.2.1 hkind.2.2 (heq ▸ hdrop)
    · rw [marks_map_fst]
      intro hunfolded m hm hkind hremoved
      obtain ⟨before, after, hheaders, heq⟩ := hsplit m hm
      rw [decide_eq_false_iff_not, not_not, ← headerName] at hkind
      rw [heq]
      apply drops_of_isRemoved hunfolded hheaders ?_ hremoved
      by_contra hencoding
      have hframing : headerName m.1 ∈ framingNames := by
        simp only [mem_cons, not_mem_nil, or_false, framingNames] at hkind ⊢
        rcases hkind with hname | hname | hname
        · exact .inl hname
        · exact .inr (.inl hname)
        · exact absurd hname hencoding
      rw [isRemoved_of_framing hframing hencoding] at hremoved
      cases hremoved
  refine ⟨hiff, ?_⟩
  intro hsuits line hline
  have hitems := blocks_items continues (forwardedLines d tail)
  rw [hiff.mpr hsuits, nil_append] at hitems
  rw [← hitems] at hline
  obtain ⟨b, hb, hline⟩ := mem_flatMap.mp hline
  obtain ⟨hmem, hkept⟩ := mem_filter.mp hb
  refine ⟨b, hmem, ?_, hline⟩
  intro hname
  rw [isRemoved_of_hop (by rw [hname]; decide)] at hkept
  cases hkept

def sampleHead : Head where
  requestLine := utf8 "POST / HTTP/1.1"
  lines := [utf8 "Host: a.example", utf8 "Connection: x-hop, close", utf8 "X-Hop: 1",
    utf8 "Accept: text/html,", utf8 "  text/plain", utf8 "Content-Length: 2"]
  requestLine_filled := by decide
  lines_filled := by decide

theorem stripsHopByHop_iff_sample :
    StripsHopByHop sampleHead (utf8 "ab") ∧ SuitsWalk sampleHead.headers :=
  have hstrips : StripsHopByHop sampleHead (utf8 "ab") := by
    unfold StripsHopByHop
    decide +kernel
  ⟨hstrips, (stripsHopByHop_iff sampleHead (utf8 "ab") (by decide +kernel)).1.mp hstrips⟩

def foldedHead : Head where
  requestLine := utf8 "GET http://a.example/ HTTP/1.1"
  lines := [utf8 "Host: a.example", utf8 "Proxy-Authorization: Basic", utf8 " dXNlcjpwYXNz"]
  requestLine_filled := by decide
  lines_filled := by decide

/-- A folded credential leaves on its continuation line. -/
theorem folded_credential_forwarded :
    validateVhostHeadLines foldedHead.bytes = .ok ∧ ¬ StripsHopByHop foldedHead [] ∧
      utf8 " dXNlcjpwYXNz" ∈ forwardedLines foldedHead [] := by
  refine ⟨by decide +kernel, ?_, by decide +kernel⟩
  unfold StripsHopByHop
  decide +kernel

end Vhost
end Http
end FrpRs
