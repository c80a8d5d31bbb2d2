import Mathlib.Algebra.Order.Ring.Nat
import Mathlib.Data.List.Basic
import Mathlib.Data.List.GetD

/-!
# The text of IP addresses

Dotted IPv4 octets and colon separated IPv6 groups, written as the standard
library's formatter writes them and read by its parser.  An IPv6 address hides its
longest run of at least two zero groups behind `::`, and the parser also accepts
an embedded IPv4 address for the last two groups.

A reader takes the characters ahead and returns its value with the characters it
left, or fails and takes nothing.
-/

namespace FrpRs
namespace IpText

open List

/-!
## Numbers
-/

/-- `char::to_digit`. -/
def toDigit (radix : Nat) (c : Char) : Option Nat :=
  let value :=
    if '0' ≤ c ∧ c ≤ '9' then some (c.toNat - 48)
    else if 'a' ≤ c ∧ c ≤ 'z' then some (c.toNat - 87)
    else if 'A' ≤ c ∧ c ≤ 'Z' then some (c.toNat - 55)
    else none
  value.filter (fun d => d < radix)

def digitRun (radix : Nat) : List Char -> List Nat × List Char
  | [] => ([], [])
  | c :: cs =>
    match toDigit radix c with
    | some d => (d :: (digitRun radix cs).1, (digitRun radix cs).2)
    | none => ([], c :: cs)

def evalDigits (radix : Nat) (ds : List Nat) : Nat :=
  ds.foldl (fun acc d => acc * radix + d) 0

/-- A number of at most `maxDigits` digits below `limit`; without `allowZero` a
number of several digits may not start with a zero. -/
def readNumber (radix maxDigits : Nat) (allowZero : Bool) (limit : Nat)
    (s : List Char) : Option (Nat × List Char) :=
  let run := digitRun radix s
  if run.1.length > maxDigits then none
  else if run.1.length = 0 then none
  else if allowZero = false ∧ s.head? = some '0' ∧ run.1.length > 1 then none
  else if evalDigits radix run.1 < limit then some (evalDigits radix run.1, run.2)
  else none

def readSeparator {α : Type} (sep : Char) (index : Nat)
    (inner : List Char -> Option (α × List Char)) (s : List Char) :
    Option (α × List Char) :=
  if index = 0 then inner s
  else
    match s with
    | c :: rest => if c = sep then inner rest else none
    | [] => none

theorem toDigit_digitChar {radix d : Nat} (hd : d < radix) (hradix : radix ≤ 16) :
    toDigit radix d.digitChar = some d := by
  have hsixteen : forall d, d < 16 -> toDigit 16 (Nat.digitChar d) = some d := by decide
  have h := hsixteen d (by omega)
  unfold toDigit at h ⊢
  rw [Option.filter_eq_some_iff] at h ⊢
  exact ⟨h.1, by simpa using hd⟩

variable {radix : Nat}

theorem toDigits_eq_map (hradix : 1 < radix) (n : Nat) :
    exists ds : List Nat, Nat.toDigits radix n = ds.map Nat.digitChar ∧
      (forall d, d ∈ ds -> d < radix) ∧ evalDigits radix ds = n := by
  induction n using Nat.strongRecOn with
  | ind n ih =>
    rw [Nat.toDigits_eq_if hradix]
    split
    · rename_i hlt
      exact ⟨[n], rfl, by simpa using hlt, by simp [evalDigits]⟩
    · rename_i hge
      obtain ⟨ds, htext, hdigits, hvalue⟩ := ih (n / radix)
        (Nat.div_lt_self (by omega) hradix)
      refine ⟨ds ++ [n % radix], by simp [htext], ?_, ?_⟩
      · intro d hd
        rcases mem_append.mp hd with hold | hnew
        · exact hdigits d hold
        · rw [mem_singleton] at hnew
          rw [hnew]
          exact Nat.mod_lt n (by omega)
      · unfold evalDigits at hvalue ⊢
        rw [foldl_append, hvalue, foldl_cons, foldl_nil, Nat.mul_comm]
        exact Nat.div_add_mod n radix

def EndsNumber (radix : Nat) (rest : List Char) : Prop :=
  digitRun radix rest = ([], rest)

theorem endsNumber_nil (radix : Nat) : EndsNumber radix [] := rfl

theorem endsNumber_cons {c : Char} (h : toDigit radix c = none) (rest : List Char) :
    EndsNumber radix (c :: rest) := by
  unfold EndsNumber digitRun
  rw [h]

theorem digitRun_append (hradix : radix ≤ 16) {ds : List Nat} (hds : forall d, d ∈ ds -> d < radix)
    {rest : List Char} (hrest : EndsNumber radix rest) :
    digitRun radix (ds.map Nat.digitChar ++ rest) = (ds, rest) := by
  induction ds with
  | nil =>
    exact hrest
  | cons d ds ih =>
    have hdigit := toDigit_digitChar (hds d mem_cons_self) hradix
    have hrun := ih fun x hx => hds x (mem_cons_of_mem _ hx)
    show digitRun radix (d.digitChar :: (ds.map Nat.digitChar ++ rest)) = _
    unfold digitRun
    rw [hdigit, hrun]

theorem toDigits_head (hradix : 1 < radix) {n : Nat}
    (hhead : (Nat.toDigits radix n).head? = some '0') :
    (Nat.toDigits radix n).length = 1 := by
  induction n using Nat.strongRecOn with
  | ind n ih =>
    rw [Nat.toDigits_eq_if hradix] at hhead ⊢
    split
    · rfl
    · rename_i hge
      rw [if_neg hge] at hhead
      have hpos : 0 < n / radix := Nat.div_pos (by omega) (by omega)
      have hne : Nat.toDigits radix (n / radix) ≠ [] := Nat.toDigits_ne_nil
      rw [head?_append_of_ne_nil _ hne] at hhead
      have hone := ih (n / radix) (Nat.div_lt_self (by omega) hradix) hhead
      have hsmall := (Nat.length_toDigits_le_iff hradix (by omega)).mp
        (Nat.le_of_eq hone)
      rw [Nat.pow_one] at hsmall
      rw [Nat.toDigits_of_lt_base hsmall] at hhead
      have hzero : n / radix = 0 := by simpa using hhead
      omega

theorem readNumber_toDigits {radix maxDigits : Nat} (allowZero : Bool) {limit n : Nat}
    (hradix : 1 < radix) (hsixteen : radix ≤ 16) (hmax : 0 < maxDigits)
    (hdigits : n < radix ^ maxDigits) (hlimit : n < limit) {rest : List Char}
    (hrest : EndsNumber radix rest) :
    readNumber radix maxDigits allowZero limit (Nat.toDigits radix n ++ rest) =
      some (n, rest) := by
  obtain ⟨ds, htext, hds, hvalue⟩ := toDigits_eq_map hradix n
  have hlen := (Nat.length_toDigits_le_iff hradix hmax).mpr hdigits
  have hpos : 0 < (Nat.toDigits radix n).length := Nat.length_toDigits_pos
  have hhead : (Nat.toDigits radix n ++ rest).head? = some '0' ->
      (Nat.toDigits radix n).length = 1 := by
    intro h
    rw [head?_append_of_ne_nil _ Nat.toDigits_ne_nil] at h
    exact toDigits_head hradix h
  have hcount : (Nat.toDigits radix n).length = ds.length := by
    rw [htext, length_map]
  have hrun : digitRun radix (Nat.toDigits radix n ++ rest) = (ds, rest) := by
    rw [htext]
    exact digitRun_append hsixteen hds hrest
  unfold readNumber
  simp only [hrun, hvalue]
  rw [if_neg (by omega), if_neg (by omega), if_neg, if_pos hlimit]
  rintro ⟨-, hzero, hmany⟩
  have hone := hhead hzero
  omega

/-!
## Separated numbers
-/

def joined (sep : Char) (radix : Nat) : Nat -> List Nat -> List Char
  | _, [] => []
  | index, n :: ns =>
    (if index = 0 then [] else [sep]) ++ (Nat.toDigits radix n ++ joined sep radix (index + 1) ns)

theorem readSeparator_skip {α : Type} (sep : Char) (index : Nat)
    (inner : List Char -> Option (α × List Char)) (s : List Char) :
    readSeparator sep index inner ((if index = 0 then [] else [sep]) ++ s) = inner s := by
  unfold readSeparator
  by_cases h : index = 0
  · rw [if_pos h, if_pos h, nil_append]
  · rw [if_neg h, if_neg h]
    show (if sep = sep then inner s else none) = inner s
    rw [if_pos rfl]

theorem endsNumber_joined {sep : Char} {radix : Nat} (hsep : toDigit radix sep = none)
    (index : Nat) (ns : List Nat) {rest : List Char} (hrest : EndsNumber radix rest) :
    EndsNumber radix (joined sep radix (index + 1) ns ++ rest) := by
  cases ns with
  | nil =>
    exact hrest
  | cons n ns =>
    unfold joined
    exact endsNumber_cons hsep _

/-!
## IPv4
-/

/-- `count` octets, from the given index on. -/
def readOctets : Nat -> Nat -> List Char -> Option (List Nat × List Char)
  | 0, _, s => some ([], s)
  | count + 1, index, s =>
    match readSeparator '.' index (readNumber 10 3 false 256) s with
    | none => none
    | some (octet, rest) =>
      (readOctets count (index + 1) rest).map fun r => (octet :: r.1, r.2)

def readIpv4 (s : List Char) : Option (List Nat × List Char) :=
  readOctets 4 0 s

theorem readOctets_joined {octets : List Nat} (h : forall o, o ∈ octets -> o < 256)
    (index : Nat) {rest : List Char} (hrest : EndsNumber 10 rest) :
    readOctets octets.length index (joined '.' 10 index octets ++ rest) =
      some (octets, rest) := by
  induction octets generalizing index with
  | nil =>
    rfl
  | cons octet octets ih =>
    have hoctet := h octet mem_cons_self
    have hnext := @endsNumber_joined '.' 10 (by decide) index octets rest hrest
    have hread := readNumber_toDigits false (by decide : 1 < 10) (by decide)
      (by decide : 0 < 3) (by omega : octet < 10 ^ 3) hoctet hnext
    unfold joined
    rw [append_assoc, append_assoc, length_cons]
    unfold readOctets
    rw [readSeparator_skip, hread]
    simp only
    rw [ih (fun o ho => h o (mem_cons_of_mem _ ho)) (index + 1)]
    rfl

theorem readIpv4_eq_none {s : List Char} (h : '.' ∉ s) : readIpv4 s = none := by
  have hrun : forall s : List Char, (digitRun 10 s).2.Sublist s := by
    intro s
    induction s with
    | nil =>
      exact List.Sublist.refl _
    | cons c cs ih =>
      unfold digitRun
      split
      · exact ih.cons c
      · exact List.Sublist.refl _
  unfold readIpv4 readOctets
  split
  · rfl
  · rename_i octet rest hfirst
    have hrest : rest.Sublist s := by
      unfold readSeparator readNumber at hfirst
      rw [if_pos rfl] at hfirst
      simp only at hfirst
      split at hfirst
      · cases hfirst
      · split at hfirst
        · cases hfirst
        · split at hfirst
          · cases hfirst
          · split at hfirst
            · cases hfirst
              exact hrun s
            · cases hfirst
    have hnone : readSeparator '.' 1 (readNumber 10 3 false 256) rest = none := by
      unfold readSeparator
      cases rest with
      | nil =>
        rfl
      | cons c rest =>
        have hc : ¬ c = '.' := by
          intro hdot
          rw [hdot] at hrest
          exact h (hrest.subset mem_cons_self)
        exact if_neg hc
    unfold readOctets
    rw [hnone]
    rfl

/-!
## IPv6
-/

def readGroup (s : List Char) : Option (Nat × List Char) :=
  readNumber 16 4 true 65536 s

def embeddedGroups (octets : List Nat) : List Nat :=
  [octets.getD 0 0 * 256 + octets.getD 1 0, octets.getD 2 0 * 256 + octets.getD 3 0]

/-- Up to `limit` groups from the given index on: what was read, and whether it
ended with an embedded IPv4 address, which takes the place of two groups. -/
def readGroups : Nat -> Nat -> List Char -> (List Nat × Bool) × List Char
  | 0, _, s => (([], false), s)
  | limit + 1, index, s =>
    match if 0 < limit then readSeparator ':' index readIpv4 s else none with
    | some (octets, rest) => ((embeddedGroups octets, true), rest)
    | none =>
      match readSeparator ':' index readGroup s with
      | none => (([], false), s)
      | some (group, rest) =>
        let more := readGroups limit (index + 1) rest
        ((group :: more.1.1, more.1.2), more.2)

def readIpv6 (s : List Char) : Option (List Nat × List Char) :=
  let head := readGroups 8 0 s
  if head.1.1.length = 8 then some (head.1.1, head.2)
  else if head.1.2 then none
  else
    match head.2 with
    | ':' :: ':' :: rest =>
      let tail := readGroups (8 - (head.1.1.length + 1)) 0 rest
      some (head.1.1 ++ (replicate (8 - head.1.1.length - tail.1.1.length) 0 ++ tail.1.1),
        tail.2)
    | _ => none

/-- A run of zero groups: where it starts and how long it is. -/
structure Span where
  start : Nat := 0
  len : Nat := 0
deriving DecidableEq, Repr

/-- The scan for the longest run of zeros; of several, the first. -/
def longestZeros : Nat -> Span -> Span -> List Nat -> Span
  | _, longest, _, [] => longest
  | i, longest, current, group :: groups =>
    if group = 0 then
      let current : Span :=
        { start := if current.len = 0 then i else current.start, len := current.len + 1 }
      let longest := if current.len > longest.len then current else longest
      longestZeros (i + 1) longest current groups
    else longestZeros (i + 1) longest {} groups

def formatGroups (groups : List Nat) : List Char :=
  let zeros := longestZeros 0 {} {} groups
  if zeros.len > 1 then
    joined ':' 16 0 (groups.take zeros.start) ++
      (':' :: ':' :: joined ':' 16 0 (groups.drop (zeros.start + zeros.len)))
  else joined ':' 16 0 groups

def formatMapped (octets : List Nat) : List Char :=
  ':' :: ':' :: (joined ':' 16 0 [65535] ++ (':' :: joined '.' 10 0 octets))

theorem not_dot_mem_toDigits (hradix : 1 < radix) (hsixteen : radix ≤ 16) (n : Nat) :
    '.' ∉ Nat.toDigits radix n := by
  obtain ⟨ds, htext, hds, -⟩ := toDigits_eq_map hradix n
  rw [htext]
  intro hmem
  obtain ⟨d, hd, hchar⟩ := mem_map.mp hmem
  have hdigit := toDigit_digitChar (hds d hd) hsixteen
  rw [hchar] at hdigit
  have hnone : toDigit radix '.' = none := rfl
  cases hdigit

theorem not_dot_mem_joined (index : Nat) (groups : List Nat) :
    '.' ∉ joined ':' 16 index groups := by
  induction groups generalizing index with
  | nil =>
    exact not_mem_nil
  | cons group groups ih =>
    intro hmem
    rcases mem_append.mp hmem with hsep | hmem
    · split at hsep
      · cases hsep
      · exact absurd hsep (by decide)
    · rcases mem_append.mp hmem with hgroup | hrest
      · exact not_dot_mem_toDigits (by decide) (by decide) group hgroup
      · exact ih (index + 1) hrest

theorem readSeparator_ipv4_none {index : Nat} {s : List Char} (h : '.' ∉ s) :
    readSeparator ':' index readIpv4 s = none := by
  unfold readSeparator
  split
  · exact readIpv4_eq_none h
  · cases s with
    | nil =>
      rfl
    | cons c rest =>
      simp only
      split
      · exact readIpv4_eq_none fun hmem => h (mem_cons_of_mem _ hmem)
      · rfl

/-- Groups written one after the other are read back, as long as no dot follows
and what follows does not continue them. -/
theorem readGroups_joined {groups : List Nat} (h : forall g, g ∈ groups -> g < 65536)
    {limit : Nat} (hlimit : groups.length ≤ limit) (index : Nat) {rest : List Char}
    (hdot : '.' ∉ rest) (hrest : EndsNumber 16 rest)
    (hstop : groups.length < limit ->
      readSeparator ':' (index + groups.length) readGroup rest = none) :
    readGroups limit index (joined ':' 16 index groups ++ rest) =
      ((groups, false), rest) := by
  induction groups generalizing limit index with
  | nil =>
    cases limit with
    | zero =>
      rfl
    | succ limit =>
      have hnone : (if 0 < limit then readSeparator ':' index readIpv4 rest else none) =
          none := by
        split
        · exact readSeparator_ipv4_none hdot
        · rfl
      show readGroups (limit + 1) index rest = _
      unfold readGroups
      have hend : readSeparator ':' index readGroup rest = none :=
        hstop (Nat.succ_pos limit)
      rw [hnone, hend]
  | cons group groups ih =>
    cases limit with
    | zero =>
      cases hlimit
    | succ limit =>
      have hgroup := h group mem_cons_self
      have hnext := @endsNumber_joined ':' 16 (by decide) index groups rest hrest
      have hread : readGroup (Nat.toDigits 16 group ++
          (joined ':' 16 (index + 1) groups ++ rest)) =
          some (group, joined ':' 16 (index + 1) groups ++ rest) :=
        readNumber_toDigits true (by decide) (by decide) (by decide) hgroup hgroup hnext
      have hplain : '.' ∉ joined ':' 16 index (group :: groups) ++ rest := by
        intro hmem
        rcases mem_append.mp hmem with hjoined | hmem
        · exact not_dot_mem_joined index (group :: groups) hjoined
        · exact hdot hmem
      have hnone : (if 0 < limit then readSeparator ':' index readIpv4
          (joined ':' 16 index (group :: groups) ++ rest) else none) = none := by
        split
        · exact readSeparator_ipv4_none hplain
        · rfl
      have hmore := ih (fun g hg => h g (mem_cons_of_mem _ hg))
        (Nat.le_of_succ_le_succ hlimit) (index + 1) (by
          intro hlt
          have hstop' := hstop (Nat.succ_lt_succ hlt)
          rw [length_cons] at hstop'
          rw [← hstop']
          congr 1
          omega)
      unfold readGroups
      rw [hnone]
      unfold joined
      rw [append_assoc, append_assoc, readSeparator_skip, hread]
      simp only
      rw [hmore]

def ZeroRun (groups : List Nat) (span : Span) : Prop :=
  span.start + span.len ≤ groups.length ∧
    forall i, span.start ≤ i -> i < span.start + span.len -> groups.getD i 0 = 0

variable {groups : List Nat}

/-- The scan keeps a run of zeros as the longest one so far, and the current run
ends where the scan stands. -/
theorem longestZeros_zeroRun {i : Nat} {longest current : Span} {rest : List Nat}
    (hrest : groups.drop i = rest) (hlongest : ZeroRun groups longest)
    (hcurrent : ZeroRun groups current) (hends : current.len ≠ 0 -> current.start + current.len = i) :
    ZeroRun groups (longestZeros i longest current rest) := by
  induction rest generalizing i longest current with
  | nil =>
    exact hlongest
  | cons group rest ih =>
    have hlt : i < groups.length := by
      by_contra hge
      rw [drop_eq_nil_of_le (by omega)] at hrest
      cases hrest
    have hsplit := drop_eq_getElem_cons hlt
    rw [hrest] at hsplit
    injection hsplit with hgroup htail
    unfold longestZeros
    split
    · rename_i hzero
      have hgrown : ZeroRun groups
          { start := if current.len = 0 then i else current.start,
            len := current.len + 1 } := by
        have hhere : groups.getD i 0 = 0 := by
          rw [getD_eq_getElem groups 0 hlt, ← hgroup, hzero]
        by_cases hempty : current.len = 0
        · rw [if_pos hempty, hempty]
          refine ⟨by simp only; omega, fun j hlow hhigh => ?_⟩
          simp only at hlow hhigh
          obtain rfl : j = i := by omega
          exact hhere
        · rw [if_neg hempty]
          refine ⟨by simp only; omega, fun j hlow hhigh => ?_⟩
          simp only at hlow hhigh
          by_cases hlast : j = i
          · rw [hlast]
            exact hhere
          · exact hcurrent.2 j hlow (by omega)
      simp only
      apply ih htail.symm
      · split
        · exact hgrown
        · exact hlongest
      · exact hgrown
      · intro _
        by_cases hempty : current.len = 0
        · rw [if_pos hempty, hempty]
        · rw [if_neg hempty]
          simp only
          omega
    · apply ih htail.symm hlongest
      · exact ⟨Nat.zero_le _, fun j hlow hhigh => absurd hhigh (by simp only; omega)⟩
      · intro h
        exact absurd rfl h

theorem ZeroRun.restore {span : Span} (h : ZeroRun groups span) :
    groups.take span.start ++ (replicate span.len 0 ++
      groups.drop (span.start + span.len)) = groups := by
  obtain ⟨hle, hzeros⟩ := h
  have hmiddle : (groups.drop span.start).take span.len = replicate span.len 0 := by
    rw [eq_replicate_iff]
    constructor
    · rw [length_take, length_drop]
      omega
    · intro x hx
      obtain ⟨j, hj, hget⟩ := mem_iff_getElem.mp hx
      rw [length_take, length_drop] at hj
      have hzero := hzeros (span.start + j) (by omega) (by omega)
      rw [getD_eq_getElem groups 0 (by omega)] at hzero
      rw [← hget, getElem_take, getElem_drop]
      exact hzero
  rw [← hmiddle, ← drop_drop, take_append_drop, take_append_drop]

theorem readGroup_colon (rest : List Char) : readGroup (':' :: rest) = none := rfl

theorem readSeparator_group_nil (index : Nat) :
    readSeparator ':' index readGroup [] = none := by
  unfold readSeparator
  split <;> rfl

theorem readSeparator_group_colons (index : Nat) (rest : List Char) :
    readSeparator ':' index readGroup (':' :: ':' :: rest) = none := by
  unfold readSeparator
  split
  · exact readGroup_colon _
  · show (if ':' = ':' then readGroup (':' :: rest) else none) = none
    exact readGroup_colon rest

/-- Eight groups are read back from their text. -/
theorem readIpv6_formatGroups (hlen : groups.length = 8) (h : forall g, g ∈ groups -> g < 65536) :
    readIpv6 (formatGroups groups) = some (groups, []) := by
  have hspan : ZeroRun groups (longestZeros 0 {} {} groups) :=
    longestZeros_zeroRun rfl ⟨Nat.zero_le _, fun j _ hhigh => absurd hhigh (by simp only; omega)⟩
      ⟨Nat.zero_le _, fun j _ hhigh => absurd hhigh (by simp only; omega)⟩
      (fun hne => absurd rfl hne)
  unfold formatGroups
  generalize longestZeros 0 {} {} groups = zeros at hspan
  simp only
  split
  · rename_i hmany
    have hbound := hspan.1
    have hheadLen : (groups.take zeros.start).length = zeros.start := by
      rw [length_take]
      omega
    have htailLen : (groups.drop (zeros.start + zeros.len)).length =
        8 - (zeros.start + zeros.len) := by
      rw [length_drop, hlen]
    have hdot : '.' ∉ ':' :: ':' :: joined ':' 16 0 (groups.drop (zeros.start + zeros.len)) := by
      intro hmem
      rcases mem_cons.mp hmem with hsep | hmem
      · exact absurd hsep (by decide)
      · rcases mem_cons.mp hmem with hsep | hmem
        · exact absurd hsep (by decide)
        · exact not_dot_mem_joined 0 _ hmem
    have hhead : readGroups 8 0 (joined ':' 16 0 (groups.take zeros.start) ++
        (':' :: ':' :: joined ':' 16 0 (groups.drop (zeros.start + zeros.len)))) =
        ((groups.take zeros.start, false),
          ':' :: ':' :: joined ':' 16 0 (groups.drop (zeros.start + zeros.len))) :=
      readGroups_joined (fun g hg => h g (mem_of_mem_take hg)) (by omega) 0 hdot
        (endsNumber_cons (by decide) _) (fun _ => readSeparator_group_colons _ _)
    have htail := @readGroups_joined (groups.drop (zeros.start + zeros.len))
      (fun g hg => h g (mem_of_mem_drop hg)) (8 - (zeros.start + 1)) (by omega) 0 []
      not_mem_nil (endsNumber_nil 16) (fun _ => readSeparator_group_nil _)
    rw [append_nil] at htail
    have hrestore := hspan.restore
    unfold readIpv6
    rw [hhead]
    simp only
    rw [hheadLen, if_neg (by omega), if_neg (by decide), htail]
    rw [htailLen]
    have hgap : 8 - zeros.start - (8 - (zeros.start + zeros.len)) = zeros.len := by omega
    rw [hgap, hrestore]
  · have hall := @readGroups_joined groups h 8 (by omega) 0 [] not_mem_nil
      (endsNumber_nil 16) (fun _ => readSeparator_group_nil _)
    rw [append_nil] at hall
    unfold readIpv6
    rw [hall]
    rw [if_pos hlen]

example : formatGroups [8193, 3512, 0, 0, 7, 0, 0, 1] = "2001:db8::7:0:0:1".toList := by
  decide

/-- A mapped address is read back with its two embedded groups. -/
theorem readIpv6_formatMapped {octets : List Nat} (hlen : octets.length = 4)
    (h : forall o, o ∈ octets -> o < 256) :
    readIpv6 (formatMapped octets) =
      some ([0, 0, 0, 0, 0, 65535] ++ embeddedGroups octets, []) := by
  have hipv4 : readIpv4 (joined '.' 10 0 octets) = some (octets, []) := by
    have hread := readOctets_joined h 0 (endsNumber_nil 10)
    rw [hlen, append_nil] at hread
    exact hread
  have hhead : forall rest, readGroups 8 0 (':' :: ':' :: rest) =
      (([], false), ':' :: ':' :: rest) := by
    intro rest
    rfl
  have hgroup : readGroup (joined ':' 16 0 [65535] ++ (':' :: joined '.' 10 0 octets)) =
      some (65535, ':' :: joined '.' 10 0 octets) := by
    have hread := @readNumber_toDigits 16 4 true 65536 65535 (by decide) (by decide)
      (by decide) (by decide) (by decide) (':' :: joined '.' 10 0 octets)
      (endsNumber_cons (by decide) _)
    exact hread
  have hfirst : readIpv4 (joined ':' 16 0 [65535] ++ (':' :: joined '.' 10 0 octets)) =
      none := rfl
  have hsecond : readGroups 6 1 (':' :: joined '.' 10 0 octets) =
      ((embeddedGroups octets, true), []) := by
    have hembedded : readSeparator ':' 1 readIpv4 (':' :: joined '.' 10 0 octets) =
        some (octets, []) := hipv4
    unfold readGroups
    rw [if_pos (by decide), hembedded]
  have htail : readGroups 7 0 (joined ':' 16 0 [65535] ++ (':' :: joined '.' 10 0 octets)) =
      ((65535 :: embeddedGroups octets, true), []) := by
    unfold readGroups
    have hnone : readSeparator ':' 0 readIpv4
        (joined ':' 16 0 [65535] ++ (':' :: joined '.' 10 0 octets)) = none := hfirst
    have hsome : readSeparator ':' 0 readGroup
        (joined ':' 16 0 [65535] ++ (':' :: joined '.' 10 0 octets)) =
        some (65535, ':' :: joined '.' 10 0 octets) := hgroup
    rw [if_pos (by decide), hnone, hsome]
    simp only
    rw [hsecond]
  unfold readIpv6 formatMapped
  rw [hhead]
  simp only [length_nil]
  rw [if_neg (by decide), if_neg (by decide), htail]
  rfl

end IpText
end FrpRs
