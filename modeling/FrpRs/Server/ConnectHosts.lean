import FrpRs.Server.Registration
import FrpRs.Server.RouteLookup
import Mathlib.Data.List.DropRight

/-!
# Hosts of CONNECT requests

`extract_route_host` of `frp-server/src/tcpmux.rs`, and the lookup after it.

The host is canonicalized when it is taken from the request and once more in the lookup.  The
second pass strips a second trailing dot, and a port that stood inside brackets.
-/

namespace FrpRs
namespace Server

open List Lines

/-!
## The request
-/

/-- The lines of a text, as `str::lines` gives them. -/
def textLines (text : List Char) : List (List Char) :=
  (splitInclusive '\n' text).map fun line =>
    if line.getLast? = some '\n' then
      if line.dropLast.getLast? = some '\r' then line.dropLast.dropLast else line.dropLast
    else line

def isHostLine (line : List Char) : Bool :=
  (line.take 5).map Char.toLower = "host:".toList

def extractHostHeader (request : String) : Option String :=
  ((textLines request.toList).find? isHostLine).bind fun line =>
    canonicalizeHost (String.ofList (Text.trim (line.drop 5))) false

def isValidVersion (version : List Char) : Bool :=
  version.length = 8 && "HTTP/".toList.isPrefixOf version && (version[5]?.any Char.isDigit) &&
    version[6]? = some '.' && (version[7]?.any Char.isDigit)

/-- The three parts of `splitn(3, ' ')`; a part that is missing is empty. -/
structure RequestLine where
  method : List Char
  target : List Char
  version : List Char
deriving DecidableEq, Repr

def RequestLine.read (line : List Char) : RequestLine :=
  match cut ' ' line with
  | none => ⟨line, [], []⟩
  | some (method, rest) =>
    match cut ' ' rest with
    | none => ⟨method, rest, []⟩
    | some (target, version) => ⟨method, target, version⟩

namespace RequestLine

def malformed (line : RequestLine) : Bool :=
  line.target.isEmpty || line.version.isEmpty || !isValidVersion line.version ||
    "HTTP/".toList.isPrefixOf line.target

def usesHeader (line : RequestLine) : Bool :=
  line.method ≠ "CONNECT".toList || line.target.head? = some '/'

end RequestLine

def extractRouteHost (request : String) : Option String :=
  (textLines request.toList).head?.bind fun first =>
    let line := RequestLine.read first
    if line.malformed then none
    else if line.usesHeader then extractHostHeader request
    else canonicalizeHost (String.ofList line.target) true

/-!
## The text that names the host
-/

/-- The target of a CONNECT, or the value of the host line. -/
def routedText (request : String) : Option (List Char) :=
  (textLines request.toList).head?.bind fun first =>
    if (RequestLine.read first).usesHeader then
      ((textLines request.toList).find? isHostLine).map fun line =>
        Text.trim (line.drop 5)
    else some (RequestLine.read first).target

/-- The part of a text that stands for the host: what is before a port, or the whole text. -/
inductive HostPart : List Char -> List Char -> Prop where
  | port {name port : List Char} (hname : ':' ∉ name) (hport : ':' ∉ port) :
      HostPart (name ++ ':' :: port) name
  | bracketed {name port : List Char} (hname : ']' ∉ name)
      (hcolons : 2 ≤ ('[' :: (name ++ ']' :: ':' :: port)).count ':') :
      HostPart ('[' :: (name ++ ']' :: ':' :: port)) name
  | whole {text : List Char} (hcolons : text.count ':' ≠ 1)
      (hopen : forall name port, text = '[' :: (name ++ ']' :: ':' :: port) -> ']' ∈ name) :
      HostPart text text

def NamesOneHost (text : List Char) : Prop :=
  forall name, HostPart text name -> ¬ ['.', '.'] <:+ name ∧ name.count ':' ≠ 1

/-!
## One pass
-/

theorem canonicalizeHost_lenient {host h : String} {strictPort : Bool}
    (hcanonical : canonicalizeHost host strictPort = some h) :
    canonicalizeHost host false = some h := by
  have hport : forall port, badPort false port = false := fun port => rfl
  unfold canonicalizeHost at hcanonical ⊢
  dsimp only at hcanonical ⊢
  split at hcanonical
  · rename_i hcount
    rw [if_pos hcount]
    rcases Option.bind_eq_some_iff.mp hcanonical with ⟨parts, hparts, hrest⟩
    rw [hparts, Option.bind_some, hport, if_neg Bool.false_ne_true]
    split at hrest
    · cases hrest
    · exact hrest
  · rename_i hcount
    rw [if_neg hcount]
    split at hcanonical
    · rename_i hbracket
      rw [if_pos hbracket]
      rcases Option.bind_eq_some_iff.mp hcanonical with ⟨parts, hparts, hrest⟩
      rw [hparts, Option.bind_some]
      split at hrest
      · rename_i hhead
        rw [if_pos hhead, if_neg Bool.false_ne_true]
        split at hrest
        · cases hrest
        · exact hrest
      · rename_i hhead
        rw [if_neg hhead, hport, if_neg Bool.false_ne_true]
        split at hrest
        · cases hrest
        · exact hrest
    · rename_i hbracket
      rw [if_neg hbracket]
      exact hcanonical

theorem count_port {name port : List Char} (hname : ':' ∉ name) (hport : ':' ∉ port) :
    (name ++ ':' :: port).count ':' = 1 := by
  rw [count_append, count_cons_self, count_eq_zero.mpr hname,
    count_eq_zero.mpr hport]

theorem mem_tails_bracket (name port : List Char) :
    ('[' :: (name ++ ']' :: ':' :: port)).tails.any
      (fun rest => [']', ':'].isPrefixOf rest) = true := by
  apply any_eq_true.mpr
  refine ⟨']' :: ':' :: port, ?_, rfl⟩
  rw [mem_tails]
  exact ⟨'[' :: name, by simp⟩

theorem cut_bracket {name : List Char} (hname : ']' ∉ name) (rest : List Char) :
    cut ']' ('[' :: (name ++ ']' :: rest)) = some ('[' :: name, rest) := by
  have hopen : ']' ∉ '[' :: name := by
    rw [mem_cons, not_or]
    exact ⟨by decide, hname⟩
  rw [← cons_append]
  exact cut_append ']' hopen rest

theorem canonicalizeHost_part {host : String} {name : List Char}
    (h : HostPart host.toList name) :
    canonicalizeHost host false = some (String.ofList (trimTrailingDot name)) := by
  unfold canonicalizeHost
  dsimp only
  generalize htext : host.toList = text at h
  have hport : forall port, badPort false port = false := fun port => rfl
  cases h with
  | port hname hfree =>
    rw [if_pos (count_port hname hfree), cut_append ':' hname, Option.bind_some, hport,
      if_neg Bool.false_ne_true]
  | bracketed hname hcolons =>
    rename_i port
    have hmany : ¬ ('[' :: (name ++ ']' :: ':' :: port)).count ':' = 1 := by omega
    rw [if_neg hmany, if_pos ⟨hcolons, rfl, mem_tails_bracket name port⟩, cut_bracket hname,
      Option.bind_some, head?_cons, if_neg fun hne => hne rfl, hport,
      if_neg Bool.false_ne_true, drop_one, tail_cons]
  | whole hcolons hopen =>
    rw [if_neg hcolons]
    split
    · rename_i hbracket
      rcases hbracket with ⟨_, hhead, hcontains⟩
      cases hcut : cut ']' name with
      | none =>
        rcases any_eq_true.mp hcontains with ⟨rest, hmem, hprefix⟩
        rcases (mem_tails _ _).mp hmem with ⟨before, hbefore⟩
        rcases isPrefixOf_iff_prefix.mp hprefix with ⟨after, hafter⟩
        have hin : ']' ∈ name := by
          rw [← hbefore, ← hafter]
          simp
        exact absurd hin (cut_none_iff.mp hcut)
      | some parts =>
        rcases cut_some hcut with ⟨hparts, hfree⟩
        rw [Option.bind_some]
        split
        · rw [if_neg Bool.false_ne_true]
        · rename_i hnext
          have hnext : parts.2.head? = some ':' := Decidable.of_not_not hnext
          rcases head?_eq_some_iff.mp hnext with ⟨port, hport⟩
          cases hfirst : parts.1 with
          | nil =>
            rw [hparts, hfirst] at hhead
            exact absurd (Option.some.inj hhead) (by decide)
          | cons c inner =>
            rw [hparts, hfirst] at hhead
            have hc : c = '[' := Option.some.inj hhead
            rw [hfirst, hc, mem_cons, not_or] at hfree
            have hform : name = '[' :: (inner ++ ']' :: ':' :: port) := by
              rw [hparts, hfirst, hc, hport, cons_append]
            exact absurd (hopen inner port hform) hfree.2
    · rfl

theorem hostPart_exists (text : List Char) : exists name, HostPart text name := by
  by_cases hcount : text.count ':' = 1
  · cases hcut : cut ':' text with
    | none =>
      rw [count_eq_zero.mpr (cut_none_iff.mp hcut)] at hcount
      cases hcount
    | some parts =>
      rcases cut_some hcut with ⟨hparts, hname⟩
      have hport : ':' ∉ parts.2 := by
        rw [hparts, count_append, count_cons_self,
          count_eq_zero.mpr hname] at hcount
        exact count_eq_zero.mp (by omega)
      rw [hparts]
      exact ⟨parts.1, HostPart.port hname hport⟩
  · by_cases hbracket : exists name port, text = '[' :: (name ++ ']' :: ':' :: port) ∧ ']' ∉ name
    · rcases hbracket with ⟨name, port, hform, hname⟩
      have hpos : 0 < text.count ':' := by
        apply count_pos_iff.mpr
        rw [hform]
        simp
      refine ⟨name, ?_⟩
      rw [hform] at hcount hpos ⊢
      exact HostPart.bracketed hname (by omega)
    · refine ⟨text, HostPart.whole hcount ?_⟩
      intro name port hform
      apply Decidable.of_not_not
      intro hname
      exact hbracket ⟨name, port, hform, hname⟩

/-!
## Two passes
-/

theorem trimTrailingDot_cases (name : List Char) :
    (name.getLast? ≠ some '.' ∧ trimTrailingDot name = name) ∨
      name = trimTrailingDot name ++ ['.'] := by
  by_cases hlast : name.getLast? = some '.'
  · rcases getLast?_eq_some_iff.mp hlast with ⟨front, hfront⟩
    right
    rw [trimTrailingDot, if_pos hlast, hfront, dropLast_concat]
  · exact Or.inl ⟨hlast, if_neg hlast⟩

theorem mem_of_mem_trimTrailingDot {name : List Char} {c : Char}
    (h : c ∈ trimTrailingDot name) : c ∈ name := by
  rw [trimTrailingDot] at h
  split at h
  · exact dropLast_subset name h
  · exact h

theorem count_trimTrailingDot (name : List Char) :
    (trimTrailingDot name).count ':' = name.count ':' := by
  rcases trimTrailingDot_cases name with ⟨_, heq⟩ | heq
  · rw [heq]
  · conv_rhs => rw [heq, count_append]
    rfl

theorem trimTrailingDot_fixed_iff (name : List Char) :
    trimTrailingDot (trimTrailingDot name) = trimTrailingDot name ↔ ¬ ['.', '.'] <:+ name := by
  rcases trimTrailingDot_cases name with ⟨hlast, heq⟩ | heq
  · rw [heq]
    refine ⟨fun _ hdots => ?_, fun _ => heq⟩
    rcases hdots with ⟨front, hfront⟩
    apply hlast
    rw [← hfront, getLast?_append]
    rfl
  · generalize trimTrailingDot name = front at heq
    rw [heq]
    constructor
    · intro hfixed hdots
      rcases hdots with ⟨rest, hrest⟩
      have hfront : front = rest ++ ['.'] := by
        apply @List.append_cancel_right _ _ ['.']
        rw [← hrest]
        simp
      rw [hfront, trimTrailingDot, getLast?_concat, if_pos rfl,
        dropLast_concat] at hfixed
      have hlength := congrArg length hfixed
      rw [length_append, length_singleton] at hlength
      omega
    · intro hdots
      rcases trimTrailingDot_cases front with ⟨_, hfixed⟩ | hdot
      · exact hfixed
      · apply absurd _ hdots
        refine ⟨trimTrailingDot front, ?_⟩
        conv_rhs => rw [hdot]
        simp

theorem hostPart_trimTrailingDot {text name : List Char} (h : HostPart text name)
    (hcount : name.count ':' ≠ 1) :
    HostPart (trimTrailingDot name) (trimTrailingDot name) := by
  refine HostPart.whole (by rw [count_trimTrailingDot]; exact hcount) ?_
  intro inner port hform
  cases h with
  | port hname _ =>
    have hcolon : ':' ∈ trimTrailingDot name := by
      rw [hform]
      simp
    exact absurd (mem_of_mem_trimTrailingDot hcolon) hname
  | bracketed hname _ =>
    have hbracket : ']' ∈ trimTrailingDot name := by
      rw [hform]
      simp
    exact absurd (mem_of_mem_trimTrailingDot hbracket) hname
  | whole _ hopen =>
    rcases trimTrailingDot_cases text with ⟨_, heq⟩ | heq
    · exact hopen inner port (heq ▸ hform)
    · apply hopen inner (port ++ ['.'])
      rw [heq, hform]
      simp

theorem second_pass_iff {text name : List Char} (h : HostPart text name) :
    canonicalizeHost (String.ofList (trimTrailingDot name)) false =
        some (String.ofList (trimTrailingDot name)) ↔
      ¬ ['.', '.'] <:+ name ∧ name.count ':' ≠ 1 := by
  by_cases hcount : name.count ':' = 1
  · refine ⟨fun hfixed => ?_, fun hgood => absurd hcount hgood.2⟩
    rcases hostPart_exists (trimTrailingDot name) with ⟨part, hpart⟩
    have hcanonical := @canonicalizeHost_part (String.ofList (trimTrailingDot name)) part
      (by rw [String.toList_ofList]; exact hpart)
    rw [hfixed] at hcanonical
    have heq := String.ofList_inj.mp (Option.some.inj hcanonical)
    have hone := (count_trimTrailingDot name).trans hcount
    generalize trimTrailingDot name = front at *
    cases hpart with
    | port hname hfree =>
      have hcolon : ':' ∈ trimTrailingDot part := by
        rw [← heq]
        simp
      exact absurd (mem_of_mem_trimTrailingDot hcolon) hname
    | bracketed hname hcolons => omega
    | whole hcolons => exact absurd hone hcolons
  · have hpart := hostPart_trimTrailingDot h hcount
    rw [canonicalizeHost_part (by rw [String.toList_ofList]; exact hpart), Option.some.injEq,
      String.ofList_inj, trimTrailingDot_fixed_iff]
    exact ⟨fun hdots => ⟨hdots, hcount⟩, fun hgood => hgood.1⟩

theorem extractRouteHost_routed {request host : String}
    (h : extractRouteHost request = some host) :
    exists text, routedText request = some text ∧
      canonicalizeHost (String.ofList text) false = some host := by
  rcases Option.bind_eq_some_iff.mp h with ⟨first, hfirst, hhost⟩
  rw [routedText, hfirst, Option.bind_some]
  dsimp only at hhost
  split at hhost
  · cases hhost
  · split at hhost
    · rename_i hheader
      rcases Option.bind_eq_some_iff.mp hhost with ⟨line, hline, hvalue⟩
      rw [if_pos hheader, hline, Option.map_some]
      exact ⟨_, rfl, hvalue⟩
    · rename_i hheader
      rw [if_neg hheader]
      exact ⟨_, rfl, canonicalizeHost_lenient hhost⟩

namespace TcpMuxTables

def routeFor (t : TcpMuxTables) (httpUser key : String) : Option TcpMuxRoute :=
  ((t.tryBuckets httpUser key).or
    (if 0 < t.wildcardCount then (wildcardHosts (hostLabels key)).findSome? (t.tryBuckets httpUser)
    else none)).or
    (t.tryBuckets httpUser "*")

end TcpMuxTables

/-- The lookup of the extracted host is that of the host itself iff the text of the request
names one host. -/
theorem routed_host_iff (request host : String) (hhost : extractRouteHost request = some host) :
    (canonicalizeHost host false = some host ∧
      forall lower (t : TcpMuxTables) httpUser,
        t.lookup lower host httpUser = t.routeFor httpUser (hostKey lower host)) ↔
      forall text, routedText request = some text -> NamesOneHost text := by
  rcases extractRouteHost_routed hhost with ⟨text, htext, hcanonical⟩
  have hpass : forall name, HostPart text name ->
      (canonicalizeHost host false = some host ↔ ¬ ['.', '.'] <:+ name ∧ name.count ':' ≠ 1) := by
    intro name hpart
    rw [canonicalizeHost_part (by rw [String.toList_ofList]; exact hpart), Option.some.injEq]
      at hcanonical
    rw [← hcanonical]
    exact second_pass_iff hpart
  constructor
  · intro hkept text' htext' name hpart
    rw [htext] at htext'
    cases htext'
    exact (hpass name hpart).mp hkept.1
  · intro hone
    rcases hostPart_exists text with ⟨name, hpart⟩
    have hkept := (hpass name hpart).mpr (hone text htext name hpart)
    refine ⟨hkept, ?_⟩
    intro lower t httpUser
    rw [TcpMuxTables.lookup, hkept]
    rfl

theorem routed_host_plain :
    canonicalizeHost "example.com" false = some "example.com" ∧
      forall lower (t : TcpMuxTables) httpUser,
        t.lookup lower "example.com" httpUser = t.routeFor httpUser (hostKey lower "example.com") := by
  apply (routed_host_iff "CONNECT example.com.:443 HTTP/1.1\r\n\r\n" "example.com" (by decide)).mpr
  intro text htext name hpart
  have htarget : routedText "CONNECT example.com.:443 HTTP/1.1\r\n\r\n" =
      some "example.com.:443".toList := by decide
  rw [htarget] at htext
  cases htext
  generalize hform : "example.com.:443".toList = text at hpart
  cases hpart with
  | port hfree _ =>
    have hcut := congrArg (cut ':') hform
    rw [cut_append ':' hfree] at hcut
    injection hcut with hparts
    injection hparts with hname _
    rw [← hname]
    decide
  | bracketed _ _ =>
    have hhead := congrArg head? hform
    rw [head?_cons] at hhead
    exact absurd hhead (by decide)
  | whole hcolons _ =>
    rw [← hform] at hcolons
    exact absurd rfl hcolons

/-- Two trailing dots, and a port inside brackets. -/
theorem routed_host_stripped_twice :
    extractRouteHost "CONNECT example.com..:443 HTTP/1.1\r\n\r\n" = some "example.com." ∧
      canonicalizeHost "example.com." false = some "example.com" ∧
    extractRouteHost "CONNECT [name:80]:443 HTTP/1.1\r\n\r\n" = some "name:80" ∧
      canonicalizeHost "name:80" false = some "name" := by
  decide

end Server
end FrpRs
