import FrpRs.Data.Bytes
import FrpRs.Data.Lines

/-!
# Paths of static files

How a request path becomes the components of a file name in
`frp-client/src/plugin/static_file.rs`, and the percent escapes of `plugin/mod.rs`.  Paths are byte
strings.
-/

namespace FrpRs
namespace Client
namespace StaticPaths

open List
open Bytes

def slash : Byte := 0x2F

def dot : List Byte := [0x2E]

def dotDot : List Byte := [0x2E, 0x2E]

/-!
## Cleaning
-/

/-- One part of the path: empty and "." vanish, ".." pops and clamps at the root. -/
def cleanPart (components : List (List Byte)) (part : List Byte) : List (List Byte) :=
  if part = [] ∨ part = dot then components
  else if part = dotDot then components.dropLast
  else components ++ [part]

/-- The loop of both cleaners. -/
def cleanParts (path : List Byte) : List (List Byte) :=
  (path.splitOn slash).foldl cleanPart []

/-- The prefix is not at a path boundary of the decoded path. -/
structure PrefixError where
  boundary : List Byte
  decoded : List Byte
deriving DecidableEq

def resolveStaticParts (decoded : List Byte) (stripPrefix : Option (List Byte)) :
    Except PrefixError (List (List Byte) × List Byte) :=
  match stripPrefix with
  | none => .ok (cleanParts decoded, decoded)
  | some text =>
    let boundary := slash :: (text ++ [slash])
    if boundary <+: decoded then
      let stripped := decoded.drop boundary.length
      .ok (cleanParts stripped, stripped)
    else .error ⟨boundary, decoded⟩

def joinClean (components : List (List Byte)) : List Byte :=
  components.foldl (fun out c => (if 1 < out.length then out ++ [slash] else out) ++ c) [slash]

def cleanPathCanonical (p : List Byte) : List Byte :=
  if p = [] ∨ p = [slash] then [slash]
  else
    let trailing := p.getLast? = some slash
    let out := joinClean (cleanParts p)
    if trailing ∧ 1 < out.length then out ++ [slash] else out

def joinComponents (base : List Byte) (components : List (List Byte)) : List Byte :=
  components.foldl (fun joined c => joined ++ slash :: c) base

/-!
## Escapes
-/

def hexVal (b : Byte) : Option Byte :=
  if 0x30 ≤ b ∧ b ≤ 0x39 then some (b - 0x30)
  else if 0x41 ≤ b ∧ b ≤ 0x46 then some (b - 0x41 + 10)
  else if 0x61 ≤ b ∧ b ≤ 0x66 then some (b - 0x61 + 10)
  else none

def percent : Byte := 0x25

def urlencodingDecode : List Byte -> List Byte
  | [] => []
  | b :: hi :: lo :: rest =>
    if b = percent then
      match hexVal hi, hexVal lo with
      | some hi, some lo => (hi <<< 4 ||| lo) :: urlencodingDecode rest
      | _, _ => percent :: urlencodingDecode (hi :: lo :: rest)
    else b :: urlencodingDecode (hi :: lo :: rest)
  | b :: rest => b :: urlencodingDecode rest

/-- The bytes that stay as they are: letters, digits and `-_.~$&+,/:;=@`. -/
def isLiteral (b : Byte) : Bool :=
  (0x41 ≤ b && b ≤ 0x5A) || (0x61 ≤ b && b ≤ 0x7A) || (0x30 ≤ b && b ≤ 0x39) ||
    [0x2D, 0x5F, 0x2E, 0x7E, 0x24, 0x26, 0x2B, 0x2C, 0x2F, 0x3A, 0x3B, 0x3D, 0x40].contains b

/-- `0123456789ABCDEF`. -/
def hexUpper (n : Byte) : Byte :=
  [0x30, 0x31, 0x32, 0x33, 0x34, 0x35, 0x36, 0x37, 0x38, 0x39, 0x41, 0x42, 0x43, 0x44, 0x45,
    0x46].getD n.toNat 0

def escapeByte (b : Byte) : List Byte :=
  if isLiteral b then [b] else [percent, hexUpper (b >>> 4), hexUpper (b &&& 0x0F)]

def urlEscapeBytes (s : List Byte) : List Byte :=
  s.flatMap escapeByte

theorem urlencodingDecode_literal {b : Byte} (h : b ≠ percent) (rest : List Byte) :
    urlencodingDecode (b :: rest) = b :: urlencodingDecode rest := by
  cases rest with
  | nil => rfl
  | cons hi rest =>
    cases rest with
    | nil => rfl
    | cons lo rest => rw [urlencodingDecode, if_neg h]

theorem urlencodingDecode_escapeByte (b : Byte) (rest : List Byte) :
    urlencodingDecode (escapeByte b ++ rest) = b :: urlencodingDecode rest := by
  have hall : forall n : Fin 256, (isLiteral (UInt8.ofNat n.val) = true ->
      UInt8.ofNat n.val ≠ percent) ∧
      (hexVal (hexUpper (UInt8.ofNat n.val >>> 4))).bind (fun hi =>
        (hexVal (hexUpper (UInt8.ofNat n.val &&& 0x0F))).map fun lo => hi <<< 4 ||| lo) =
          some (UInt8.ofNat n.val) := by decide +kernel
  obtain ⟨hliteral, hhex⟩ := hall ⟨b.toNat, b.toNat_lt⟩
  rw [UInt8.ofNat_toNat] at hliteral hhex
  rw [escapeByte]
  split_ifs with h
  · exact urlencodingDecode_literal (hliteral h) rest
  · obtain ⟨hi, hhi, hrest⟩ := Option.bind_eq_some_iff.mp hhex
    obtain ⟨lo, hlo, heq⟩ := Option.map_eq_some_iff.mp hrest
    rw [cons_append, cons_append, cons_append, nil_append, urlencodingDecode, if_pos rfl, hhi, hlo]
    exact congrArg (· :: urlencodingDecode rest) heq

theorem urlencodingDecode_urlEscapeBytes (b : List Byte) :
    urlencodingDecode (urlEscapeBytes b) = b := by
  induction b with
  | nil => rfl
  | cons b bs ih =>
    rw [urlEscapeBytes, flatMap_cons, urlencodingDecode_escapeByte]
    exact congrArg (b :: ·) ih

/-!
## Components
-/

/-- A part of a path that a clean keeps. -/
structure Normal (part : List Byte) : Prop where
  ne_nil : part ≠ []
  ne_dot : part ≠ dot
  ne_dotDot : part ≠ dotDot
  slash_free : slash ∉ part

theorem slash_not_mem_of_mem_splitOn {path part : List Byte} (h : part ∈ path.splitOn slash) :
    slash ∉ part := by
  induction path generalizing part with
  | nil =>
    rw [splitOn_nil, mem_singleton] at h
    rw [h]
    exact not_mem_nil
  | cons b path ih =>
    rw [splitOn_cons_eq_if_modifyHead] at h
    split_ifs at h with hb
    · rcases mem_cons.mp h with rfl | h
      · exact not_mem_nil
      · exact ih h
    · cases hsplit : path.splitOn slash with
      | nil => exact absurd hsplit (splitOn_ne_nil slash path)
      | cons first parts =>
        rw [hsplit] at h ih
        rcases mem_cons.mp h with rfl | h
        · rw [mem_cons, not_or]
          exact ⟨fun heq => hb (by rw [heq]; exact beq_self_eq_true b), ih mem_cons_self⟩
        · exact ih (mem_cons_of_mem first h)

variable {components : List (List Byte)}

theorem normal_cleanPart {part : List Byte} (hcomponents : forall c, c ∈ components -> Normal c)
    (hpart : slash ∉ part) :
    forall c, c ∈ cleanPart components part -> Normal c := by
  intro c hc
  rw [cleanPart] at hc
  split_ifs at hc with hempty hdots
  · exact hcomponents c hc
  · exact hcomponents c (dropLast_subset components hc)
  · rw [not_or] at hempty
    rcases mem_append.mp hc with hc | hc
    · exact hcomponents c hc
    · rw [mem_singleton.mp hc]
      exact ⟨hempty.1, hempty.2, hdots, hpart⟩

theorem normal_cleanParts (path : List Byte) : forall c, c ∈ cleanParts path -> Normal c := by
  have hfold (parts components : List (List Byte)) (hparts : forall part, part ∈ parts -> slash ∉ part)
      (hcomponents : forall c, c ∈ components -> Normal c) :
      forall c, c ∈ parts.foldl cleanPart components -> Normal c := by
    induction parts generalizing components with
    | nil => exact hcomponents
    | cons part parts ih =>
      rw [forall_mem_cons] at hparts
      exact ih _ hparts.2 (normal_cleanPart hcomponents hparts.1)
  exact hfold _ [] (fun part => slash_not_mem_of_mem_splitOn) (by simp)

theorem foldl_cleanPart (h : forall c, c ∈ components -> Normal c) (before : List (List Byte)) :
    components.foldl cleanPart before = before ++ components := by
  induction components generalizing before with
  | nil => simp
  | cons c components ih =>
    rw [forall_mem_cons] at h
    have hc : ¬ (c = [] ∨ c = dot) := by simp [h.1.ne_nil, h.1.ne_dot]
    rw [foldl_cons, cleanPart, if_neg hc, if_neg h.1.ne_dotDot, ih h.2, append_assoc]
    rfl

/-- Components that are joined with slashes are the parts of what comes out. -/
theorem splitOn_joined (h : forall c, c ∈ components -> slash ∉ c) :
    (components.flatMap (slash :: ·)).splitOn slash = [] :: components := by
  induction components with
  | nil => rfl
  | cons c components ih =>
    rw [forall_mem_cons] at h
    have hfree : forall b, b ∈ c -> (b == slash) = false := by
      intro b hb
      rw [beq_eq_false_iff_ne]
      rintro rfl
      exact h.1 hb
    have hsplit : (c ++ components.flatMap (slash :: ·)).splitOn slash = c :: components := by
      cases components with
      | nil => rw [flatMap_nil, append_nil, splitOn_eq_singleton h.1]
      | cons c' components =>
        have hrest := ih h.2
        rw [flatMap_cons, cons_append, splitOn_cons_eq_if_modifyHead, if_pos (beq_self_eq_true slash),
          cons.injEq] at hrest
        rw [flatMap_cons, cons_append, splitOn_eq_splitOnP,
          splitOnP_append_cons_of_forall_mem hfree _ (by decide), ← splitOn_eq_splitOnP, hrest.2]
    rw [flatMap_cons, cons_append, splitOn_cons_eq_if_modifyHead, if_pos (beq_self_eq_true slash),
      hsplit]

/-!
## Canonical paths
-/

theorem joinClean_eq (h : forall c, c ∈ components -> Normal c) (hne : components ≠ []) :
    joinClean components = components.flatMap (slash :: ·) := by
  have hlong (out : List Byte) (components : List (List Byte)) (hout : 1 < out.length) :
      components.foldl (fun out c => (if 1 < out.length then out ++ [slash] else out) ++ c) out =
        out ++ components.flatMap (slash :: ·) := by
    induction components generalizing out with
    | nil => simp
    | cons c components ih =>
      rw [foldl_cons, if_pos hout, ih _ (by simp; omega), flatMap_cons]
      simp
  cases components with
  | nil => exact absurd rfl hne
  | cons c components =>
    rw [forall_mem_cons] at h
    have hlen : 0 < c.length := length_pos_iff.mpr h.1.ne_nil
    rw [joinClean, foldl_cons, if_neg (by simp), hlong _ _ (by simpa using hlen)]
    rfl

/-- The canonical form of a path, by its components. -/
theorem cleanPathCanonical_eq (p : List Byte) :
    cleanPathCanonical p = if cleanParts p = [] then [slash]
      else (cleanParts p).flatMap (slash :: ·) ++
        (if p.getLast? = some slash then [slash] else []) := by
  have hnormal := normal_cleanParts p
  rw [cleanPathCanonical]
  by_cases hroot : p = [] ∨ p = [slash]
  · have hempty : cleanParts p = [] := by
      rcases hroot with rfl | rfl <;> decide
    rw [if_pos hroot, if_pos hempty]
  · rw [if_neg hroot]
    by_cases hempty : cleanParts p = []
    · rw [if_pos hempty, hempty]
      simp [joinClean]
    · have hlen : 1 < ((cleanParts p).flatMap (slash :: ·)).length := by
        obtain ⟨c, components, hc⟩ := exists_cons_of_ne_nil hempty
        have hpos := length_pos_iff.mpr (hnormal c (hc ▸ mem_cons_self)).ne_nil
        rw [hc, flatMap_cons, length_append, length_cons]
        omega
      rw [if_neg hempty, joinClean_eq hnormal hempty]
      simp only [hlen, and_true]
      split_ifs <;> simp

theorem splitOn_append_slash (path : List Byte) :
    (path ++ [slash]).splitOn slash = path.splitOn slash ++ [[]] := by
  rw [splitOn_eq_splitOnP, splitOnP_append_cons _ _ (by decide)]
  rfl

theorem cleanParts_cleanPathCanonical (p : List Byte) :
    cleanParts (cleanPathCanonical p) = cleanParts p := by
  have hnormal := normal_cleanParts p
  have hsplit := splitOn_joined fun c hc => (hnormal c hc).slash_free
  have hfold : ([] :: cleanParts p).foldl cleanPart [] = cleanParts p := by
    rw [foldl_cons, foldl_cleanPart hnormal]
    rfl
  rw [cleanPathCanonical_eq]
  split_ifs with hempty htrailing
  · rw [hempty]
    decide
  · rw [cleanParts, splitOn_append_slash, hsplit, foldl_append, hfold]
    rfl
  · rw [append_nil, cleanParts, hsplit, hfold]

theorem getLast?_joined_ne (h : forall c, c ∈ components -> Normal c) :
    (components.flatMap (slash :: ·)).getLast? ≠ some slash := by
  rcases eq_nil_or_concat components with rfl | ⟨init, c, rfl⟩
  · simp
  · have hc : Normal c := h c (by simp)
    intro hlast
    have hmem : slash ∈ c := by
      apply mem_of_getLast?
      rw [concat_eq_append, flatMap_append, flatMap_singleton, getLast?_append, getLast?_cons] at hlast
      cases hlastc : c.getLast? with
      | none => exact absurd (getLast?_eq_none_iff.mp hlastc) hc.ne_nil
      | some b =>
        rw [hlastc] at hlast
        exact hlast
    exact hc.slash_free hmem

theorem cleanPathCanonical_idempotent (p : List Byte) :
    cleanPathCanonical (cleanPathCanonical p) = cleanPathCanonical p := by
  rw [cleanPathCanonical_eq (cleanPathCanonical p), cleanParts_cleanPathCanonical,
    cleanPathCanonical_eq p]
  by_cases hempty : cleanParts p = []
  · rw [if_pos hempty, if_pos hempty]
  · rw [if_neg hempty, if_neg hempty]
    by_cases htrailing : p.getLast? = some slash
    · rw [if_pos htrailing, if_pos getLast?_concat]
    · rw [if_neg htrailing, append_nil, if_neg (getLast?_joined_ne (normal_cleanParts p))]
      simp

/-!
## Below the base directory
-/

/-- The path goes on from the base directory, through parts that neither stay nor go up. -/
def LexicallyBelow (base path : List Byte) : Prop :=
  exists suffix, path = base ++ suffix ∧
    exists parts, suffix.splitOn slash = [] :: parts ∧ forall part, part ∈ parts -> Normal part

theorem joinComponents_eq (base : List Byte) (components : List (List Byte)) :
    joinComponents base components = base ++ components.flatMap (slash :: ·) := by
  induction components generalizing base with
  | nil => simp [joinComponents]
  | cons c components ih =>
    have hrest := ih (base ++ slash :: c)
    rw [joinComponents] at hrest ⊢
    rw [foldl_cons, hrest, flatMap_cons]
    simp

theorem lexicallyBelow_joinComponents (base : List Byte) (h : forall c, c ∈ components -> Normal c) :
    LexicallyBelow base (joinComponents base components) :=
  ⟨_, joinComponents_eq base components, components,
    splitOn_joined fun c hc => (h c hc).slash_free, h⟩

theorem normal_resolveStaticParts {decoded stripped : List Byte} {stripPrefix : Option (List Byte)}
    (h : resolveStaticParts decoded stripPrefix = .ok (components, stripped)) :
    forall c, c ∈ components -> Normal c := by
  cases stripPrefix with
  | none =>
    cases h
    exact normal_cleanParts decoded
  | some text =>
    rw [resolveStaticParts] at h
    simp only at h
    split_ifs at h
    cases h
    exact normal_cleanParts _

theorem static_paths :
    (forall decoded stripPrefix components stripped,
      resolveStaticParts decoded stripPrefix = .ok (components, stripped) ->
      (forall c, c ∈ components -> c ≠ [] ∧ c ≠ dot ∧ c ≠ dotDot ∧ slash ∉ c) ∧
        forall base, LexicallyBelow base (joinComponents base components)) ∧
    (forall p, cleanPathCanonical (cleanPathCanonical p) = cleanPathCanonical p) ∧
    (forall p, (resolveStaticParts (cleanPathCanonical p) none).map Prod.fst =
      (resolveStaticParts p none).map Prod.fst) ∧
    forall b, urlencodingDecode (urlEscapeBytes b) = b := by
  refine ⟨?_, cleanPathCanonical_idempotent, ?_, urlencodingDecode_urlEscapeBytes⟩
  · intro decoded stripPrefix components stripped h
    have hnormal := normal_resolveStaticParts h
    refine ⟨?_, fun base => lexicallyBelow_joinComponents base hnormal⟩
    intro c hc
    exact ⟨(hnormal c hc).ne_nil, (hnormal c hc).ne_dot, (hnormal c hc).ne_dotDot,
      (hnormal c hc).slash_free⟩
  · intro p
    exact congrArg Except.ok (cleanParts_cleanPathCanonical p)

/-- The path `/a/../../b`. -/
theorem static_paths_clamped :
    resolveStaticParts [0x2F, 0x61, 0x2F, 0x2E, 0x2E, 0x2F, 0x2E, 0x2E, 0x2F, 0x62] none =
        .ok ([[0x62]], [0x2F, 0x61, 0x2F, 0x2E, 0x2E, 0x2F, 0x2E, 0x2E, 0x2F, 0x62]) ∧
      LexicallyBelow [0x2F, 0x77] (joinComponents [0x2F, 0x77] [[0x62]]) := by
  have hresolve : resolveStaticParts [0x2F, 0x61, 0x2F, 0x2E, 0x2E, 0x2F, 0x2E, 0x2E, 0x2F, 0x62]
      none = .ok ([[0x62]], [0x2F, 0x61, 0x2F, 0x2E, 0x2E, 0x2F, 0x2E, 0x2E, 0x2F, 0x62]) := by
    decide
  exact ⟨hresolve, (static_paths.1 _ none _ _ hresolve).2 [0x2F, 0x77]⟩

end StaticPaths
end Client
end FrpRs
