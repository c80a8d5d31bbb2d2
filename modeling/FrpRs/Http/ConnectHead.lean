import FrpRs.Http.VhostHead

/-!
# Heads of CONNECT requests

`validate_connect_head_shape` of `frp-server/src/tcpmux.rs`.  It stops at the first bad header,
while the validation of virtual hosts reads all of them; both refuse the same heads.
-/

namespace FrpRs
namespace Http
namespace Connect

open List Bytes Lines Textproto
open Vhost (continues linesOf HeadScan HeadLineVerdict validateVhostHeadLines)

def isTokenByte (b : Byte) : Bool :=
  Textproto.isTokenByte b

def isBadValueByte (b : Byte) : Bool :=
  (b < space && b ≠ htab) || b = 127

def takeFolds : Bool -> List (List Byte) -> Bool × List (List Byte)
  | valueHasCtl, [] => (!valueHasCtl, [])
  | valueHasCtl, fold :: lines =>
    if continues fold then takeFolds (valueHasCtl || (trimOws fold).any isBadValueByte) lines
    else (!valueHasCtl, fold :: lines)

/-- One header with its continuations; the answer comes with the lines after it. -/
def validConnectHeaderGroup (first : List Byte) (lines : List (List Byte)) :
    Bool × List (List Byte) :=
  match cut colon first with
  | none => (false, lines)
  | some (name, value) =>
    if name.isEmpty || name.any fun b => !isTokenByte b && b ≠ space then (false, lines)
    else takeFolds ((value.rdropWhile isOws).any isBadValueByte) lines

def validGroups : Nat -> List (List Byte) -> Bool
  | 0, _ => true
  | _ + 1, [] => true
  | fuel + 1, first :: lines =>
    if first = [] then true
    else
      let group := validConnectHeaderGroup first lines
      if group.1 then validGroups fuel group.2 else false

def validateConnectHeadShape (request : List Byte) : Bool :=
  match (linesOf request).drop 1 with
  | [] => true
  | firstHeader :: lines =>
    if firstHeader = [] then true
    else if continues firstHeader then false
    else
      let group := validConnectHeaderGroup firstHeader lines
      if group.1 then validGroups lines.length group.2 else false

/-!
## One header
-/

theorem takeFolds_eq (valueHasCtl : Bool) (lines : List (List Byte)) :
    takeFolds valueHasCtl lines =
      (!(valueHasCtl || (lines.takeWhile continues).any fun fold =>
        (trimOws fold).any isBadValueByte), lines.dropWhile continues) := by
  induction lines generalizing valueHasCtl with
  | nil =>
    simp [takeFolds]
  | cons fold lines ih =>
    rw [takeFolds]
    split
    · rename_i hfold
      rw [ih, takeWhile_cons_of_pos hfold, dropWhile_cons_of_pos hfold, any_cons,
        Bool.or_assoc]
    · rename_i hfold
      rw [takeWhile_cons_of_neg hfold, dropWhile_cons_of_neg hfold, any_nil,
        Bool.or_false]

theorem validConnectHeaderGroup_none {first : List Byte} (h : cut colon first = none)
    (lines : List (List Byte)) : (validConnectHeaderGroup first lines).1 = false := by
  rw [validConnectHeaderGroup, h]

theorem validConnectHeaderGroup_some {first name value : List Byte}
    (h : cut colon first = some (name, value)) (lines : List (List Byte)) :
    (validConnectHeaderGroup first lines).1 =
        !(HeadScan.badName name || HeadScan.hasCtl value (lines.takeWhile continues)) ∧
      ((validConnectHeaderGroup first lines).1 = true ->
        (validConnectHeaderGroup first lines).2 = lines.dropWhile continues) := by
  have hgroup : validConnectHeaderGroup first lines =
      if HeadScan.badName name = true then (false, lines)
      else takeFolds ((value.rdropWhile isOws).any isBadValueByte) lines := by
    rw [validConnectHeaderGroup, h]
    rfl
  rw [hgroup]
  split
  · rename_i hbad
    rw [hbad]
    exact ⟨rfl, fun habs => absurd habs Bool.false_ne_true⟩
  · rename_i hbad
    rw [takeFolds_eq, Bool.eq_false_of_not_eq_true hbad, Bool.false_or]
    exact ⟨rfl, fun _ => rfl⟩

/-!
## All headers
-/

theorem verdict_malformed_iff (s : HeadScan) :
    s.verdict = .malformed ↔ s.malformed = true := by
  rw [HeadScan.verdict]
  cases hs : s.malformed with
  | true => exact ⟨fun _ => rfl, fun _ => rfl⟩
  | false =>
    rw [if_neg Bool.false_ne_true]
    constructor
    · intro h
      split at h
      · cases h
      · split at h
        · cases h
        · cases h
    · intro h
      cases h

/-- From a line that continues nothing on, the scan finds a bad header iff the loop does. -/
theorem scan_eq_validGroups (fuel : Nat) {lines : List (List Byte)}
    (hfirst : forall line, line ∈ lines.head? -> continues line = false) (s : HeadScan) :
    (HeadScan.scan fuel lines s).malformed = (s.malformed || !validGroups fuel lines) := by
  induction fuel generalizing lines s with
  | zero =>
    rw [HeadScan.scan, validGroups, Bool.not_true, Bool.or_false]
  | succ fuel ih =>
    cases lines with
    | nil => rw [HeadScan.scan, validGroups, Bool.not_true, Bool.or_false]
    | cons first lines =>
      have hcontinues := hfirst first rfl
      have hnext : forall line, line ∈ (lines.dropWhile continues).head? ->
          continues line = false := by
        intro line hmem
        have hnot := head?_dropWhile_not continues lines
        rw [hmem] at hnot
        simpa using hnot
      rw [HeadScan.scan, validGroups]
      by_cases hempty : first = []
      · rw [if_pos hempty, if_pos hempty, Bool.not_true, Bool.or_false]
      · rw [if_neg hempty, if_neg hempty, hcontinues, if_neg Bool.false_ne_true]
        cases hcut : cut colon first with
        | none =>
          dsimp only
          rw [HeadScan.scan_malformed rfl, validConnectHeaderGroup_none hcut,
            if_neg Bool.false_ne_true, Bool.not_false, Bool.or_true]
        | some parts =>
          rcases validConnectHeaderGroup_some hcut lines with ⟨hvalid, hrest⟩
          dsimp only
          rw [ih hnext, HeadScan.group]
          cases hgroup : (validConnectHeaderGroup first lines).1 with
          | true =>
            rw [hgroup, eq_comm, Bool.not_eq_true'] at hvalid
            rw [if_pos rfl, hrest hgroup, Bool.or_assoc s.malformed, hvalid, Bool.or_false]
          | false =>
            rw [hgroup, eq_comm, Bool.not_eq_false'] at hvalid
            rw [if_neg Bool.false_ne_true, Bool.or_assoc s.malformed, hvalid, Bool.or_true,
              Bool.true_or, Bool.not_false, Bool.or_true]

/-- Both validations refuse the same texts. -/
theorem validateConnectHeadShape_iff (request : List Byte) :
    validateConnectHeadShape request = true ↔
      validateVhostHeadLines request ≠ HeadLineVerdict.malformed := by
  rw [validateVhostHeadLines, ne_eq, verdict_malformed_iff, validateConnectHeadShape]
  cases hlines : (linesOf request).drop 1 with
  | nil => exact ⟨fun _ habs => absurd habs Bool.false_ne_true, fun _ => rfl⟩
  | cons first lines =>
    cases hcontinues : continues first with
    | true =>
      have hfirst : first ≠ [] := by
        intro hnil
        rw [hnil] at hcontinues
        cases hcontinues
      have hscan : (HeadScan.scan (first :: lines).length (first :: lines)
          HeadScan.start).malformed = true := by
        rw [length_cons, HeadScan.scan, if_neg hfirst, hcontinues, if_pos rfl]
        exact HeadScan.scan_malformed rfl
      dsimp only
      rw [if_neg hfirst, if_pos hcontinues, hscan]
      exact ⟨fun habs => absurd habs Bool.false_ne_true, fun habs => absurd rfl habs⟩
    | false =>
      have hhead : forall line, line ∈ (first :: lines).head? -> continues line = false := by
        intro line hmem
        cases hmem
        exact hcontinues
      have hgroups := scan_eq_validGroups (first :: lines).length hhead HeadScan.start
      have hvalid : validGroups (first :: lines).length (first :: lines) =
          if first = [] then true
          else if (validConnectHeaderGroup first lines).1 then
            validGroups lines.length (validConnectHeaderGroup first lines).2
          else false := by
        rw [length_cons, validGroups]
      have hstart : HeadScan.start.malformed = false := rfl
      dsimp only
      rw [hcontinues, if_neg Bool.false_ne_true, hgroups, hvalid, hstart, Bool.false_or,
        Bool.not_eq_true, Bool.not_eq_false']

end Connect
end Http
end FrpRs
