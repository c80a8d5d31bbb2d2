import FrpRs.Server.ConnectHosts

/-!
# Hosts of authorities

`host_from_authority` of `frp-server/src/vhost_h2c.rs`, for h2c requests, and
`canonicalize_authority` of `frp-server/src/vhost/head.rs`, for Host headers.

Both take the port off an authority and then one trailing dot.  The first looks at brackets
before it counts colons and refuses a stray bracket, the second counts first and lets stray
brackets pass.
-/

namespace FrpRs
namespace Server

open List Lines

/-!
## The two functions
-/

/-- The text contains `]:`. -/
def containsBracketPort (text : List Char) : Bool :=
  text.tails.any fun rest => [']', ':'].isPrefixOf rest

def hostFromAuthority (authority : String) : String :=
  let chars := authority.toList
  let hostname :=
    if chars.head? = some '[' ∧ containsBracketPort chars then
      let parts := (cut ']' chars).getD ([], chars.drop 1)
      let inner := parts.1.drop 1
      if (cutLast ':' chars).map (fun split => split.1.length) = some (parts.1.length + 1) ∧
          '[' ∉ inner ∧ ']' ∉ parts.2 then inner
      else []
    else if chars.count ':' = 1 then
      if '[' ∈ chars ∨ ']' ∈ chars then []
      else ((cutLast ':' chars).getD (chars, [])).1
    else chars
  String.ofList (trimTrailingDot hostname)

def canonicalizeAuthority (value : String) : String :=
  let chars := value.toList
  let hostname :=
    if chars.count ':' = 1 then ((cutLast ':' chars).getD (chars, [])).1
    else if 2 ≤ chars.count ':' ∧ chars.head? = some '[' ∧ containsBracketPort chars then
      let parts := (cut ']' chars).getD ([], chars.drop 1)
      if parts.2.head? ≠ some ':' then []
      else if ':' ∈ parts.2.drop 1 then []
      else parts.1.drop 1
    else chars
  String.ofList (trimTrailingDot hostname)

/-!
## Where they agree
-/

/-- With one colon there is no bracket at all, unless nothing stands before the port.  In a
bracketed address with a port there is no further bracket. -/
structure PlainBrackets (chars : List Char) : Prop where
  port : forall name port, chars = name ++ ':' :: port -> ':' ∉ name -> ':' ∉ port ->
    ('[' ∉ chars ∧ ']' ∉ chars) ∨ name = [] ∨ name = ['.']
  bracketed : forall inner port, chars = '[' :: (inner ++ ']' :: ':' :: port) -> ']' ∉ inner ->
    ':' ∈ inner -> ':' ∉ port -> '[' ∉ inner ∧ ']' ∉ port

theorem trimTrailingDot_eq_nil {name : List Char} :
    trimTrailingDot name = [] ↔ name = [] ∨ name = ['.'] := by
  rw [trimTrailingDot]
  split
  · rename_i hdot
    constructor
    · intro hnil
      have hsplit := dropLast_append_getLast? '.' hdot
      rw [hnil] at hsplit
      exact .inr hsplit.symm
    · rintro (hnil | hsingle)
      · rw [hnil]
        rfl
      · rw [hsingle]
        rfl
  · rename_i hdot
    constructor
    · exact .inl
    · rintro (hnil | hsingle)
      · exact hnil
      · rw [hsingle] at hdot
        exact absurd rfl hdot

variable {chars : List Char}

theorem exists_port (h : chars.count ':' = 1) :
    exists name port, chars = name ++ ':' :: port ∧ ':' ∉ name ∧ ':' ∉ port := by
  cases hcut : cut ':' chars with
  | none =>
    rw [count_eq_zero.mpr (cut_none_iff.mp hcut)] at h
    cases h
  | some parts =>
    rcases parts with ⟨name, port⟩
    rcases cut_some hcut with ⟨htext, hname⟩
    refine ⟨name, port, htext, hname, ?_⟩
    rw [htext, count_append, count_cons_self, count_eq_zero.mpr hname] at h
    exact count_eq_zero.mp (by omega)

theorem exists_of_containsBracketPort (h : containsBracketPort chars = true) :
    exists before after, chars = before ++ ']' :: ':' :: after := by
  rcases any_eq_true.mp h with ⟨rest, hmem, hprefix⟩
  rcases (mem_tails _ _).mp hmem with ⟨before, hbefore⟩
  rcases isPrefixOf_iff_prefix.mp hprefix with ⟨after, hafter⟩
  refine ⟨before, after, ?_⟩
  rw [<- hbefore, <- hafter]
  rfl

theorem exists_bracket (hhead : chars.head? = some '[')
    (hport : containsBracketPort chars = true) :
    exists inner rest, chars = '[' :: (inner ++ ']' :: rest) ∧ ']' ∉ inner := by
  rcases exists_of_containsBracketPort hport with ⟨before, after, htext⟩
  cases chars with
  | nil => cases hhead
  | cons c chars =>
    have hopen : c = '[' := Option.some.inj hhead
    have hin : ']' ∈ chars := by
      have hmem : ']' ∈ c :: chars := by
        rw [htext]
        exact mem_append_right before mem_cons_self
      rcases mem_cons.mp hmem with heq | hmem
      · rw [hopen] at heq
        exact absurd heq (by decide)
      · exact hmem
    cases hcut : cut ']' chars with
    | none => exact absurd hin (cut_none_iff.mp hcut)
    | some parts =>
      rcases parts with ⟨inner, rest⟩
      rcases cut_some hcut with ⟨hsplit, hinner⟩
      exact ⟨inner, rest, by rw [hopen, hsplit], hinner⟩

theorem lastColon_iff {before rest : List Char} :
    (cutLast ':' (before ++ ']' :: rest)).map (fun split => split.1.length) =
        some (before.length + 1) ↔
      exists port, rest = ':' :: port ∧ ':' ∉ port := by
  constructor
  · intro h
    rcases Option.map_eq_some_iff.mp h with ⟨⟨line, port⟩, hcut, hlength⟩
    rcases cutLast_some hcut with ⟨htext, hport⟩
    have hline : (before ++ [']']).length = line.length := by
      rw [length_append]
      exact hlength.symm
    have hsplit : (before ++ [']']) ++ rest = line ++ ':' :: port := by
      rw [append_assoc]
      exact htext
    exact ⟨port, (append_inj hsplit hline).2, hport⟩
  · rintro ⟨port, hrest, hport⟩
    have htext : before ++ ']' :: rest = (before ++ [']']) ++ ':' :: port := by
      rw [hrest, append_assoc]
      rfl
    rw [htext, cutLast_append ':' _ hport, Option.map_some, length_append]
    rfl

/-!
### One colon
-/

section Port

variable {name port : List Char}

theorem canonicalizeAuthority_port {value : String} (htext : value.toList = name ++ ':' :: port)
    (hname : ':' ∉ name) (hport : ':' ∉ port) :
    canonicalizeAuthority value = String.ofList (trimTrailingDot name) := by
  rw [canonicalizeAuthority]
  rw [htext, if_pos (count_port hname hport), cutLast_append ':' name hport]
  rfl

theorem mem_trimTrailingDot_of_head {c : Char} (hdot : c ≠ '.') (hhead : name.head? = some c) :
    c ∈ trimTrailingDot name := by
  cases name with
  | nil => cases hhead
  | cons a name =>
    cases hhead
    rw [trimTrailingDot]
    split
    · rename_i hlast
      cases name with
      | nil => exact absurd (Option.some.inj hlast) hdot
      | cons b name => exact mem_cons_self
    · exact mem_cons_self

theorem head_name {c : Char} (hcolon : c ≠ ':') (htext : chars = name ++ ':' :: port)
    (hhead : chars.head? = some c) :
    name.head? = some c := by
  cases name with
  | nil =>
    rw [htext] at hhead
    exact absurd (Option.some.inj hhead).symm hcolon
  | cons a name =>
    rw [htext] at hhead
    exact hhead

/-- Brackets around the name are taken off by the one and kept by the other. -/
theorem agree_port_iff {v : String} (htext : v.toList = name ++ ':' :: port) (hname : ':' ∉ name)
    (hport : ':' ∉ port) :
    hostFromAuthority v = canonicalizeAuthority v ↔
      ('[' ∉ v.toList ∧ ']' ∉ v.toList) ∨ name = [] ∨ name = ['.'] := by
  rw [canonicalizeAuthority_port htext hname hport, hostFromAuthority]
  dsimp only
  rw [String.ofList_inj]
  by_cases hbracket : v.toList.head? = some '[' ∧ containsBracketPort v.toList = true
  · rw [if_pos hbracket]
    have hopen := head_name (by decide) htext hbracket.1
    have hkept := mem_trimTrailingDot_of_head (by decide) hopen
    have hin : '[' ∈ v.toList := by
      rw [htext]
      exact mem_append_left _ (mem_of_mem_head? hopen)
    refine iff_of_false ?_ ?_
    · intro heq
      rw [<- heq] at hkept
      have hmem := mem_of_mem_trimTrailingDot hkept
      split at hmem
      · rename_i hclean
        exact hclean.2.1 hmem
      · cases hmem
    · rintro (hnone | hnil | hdot)
      · exact hnone.1 hin
      · rw [hnil] at hopen
        cases hopen
      · rw [hdot] at hopen
        exact absurd (Option.some.inj hopen) (by decide)
  · have hcount : v.toList.count ':' = 1 := by
      rw [htext]
      exact count_port hname hport
    rw [if_neg hbracket, if_pos hcount]
    by_cases hstray : '[' ∈ v.toList ∨ ']' ∈ v.toList
    · rw [if_pos hstray]
      have hsome : ¬ ('[' ∉ v.toList ∧ ']' ∉ v.toList) := by
        rintro ⟨hopen, hclose⟩
        rcases hstray with hstray | hstray
        · exact hopen hstray
        · exact hclose hstray
      rw [or_iff_right hsome, <- trimTrailingDot_eq_nil]
      exact eq_comm
    · rw [not_or] at hstray
      have hlast : cutLast ':' v.toList = some (name, port) := by
        rw [htext]
        exact cutLast_append ':' name hport
      rw [if_neg (fun h => h.elim hstray.1 hstray.2), hlast]
      exact iff_of_true rfl (.inl hstray)

end Port

/-!
### Brackets
-/

section Bracket

variable {inner rest : List Char} {v : String}

theorem two_le_count (hcount : v.toList.count ':' ≠ 1)
    (hbracket : containsBracketPort v.toList = true) :
    2 ≤ v.toList.count ':' := by
  rcases exists_of_containsBracketPort hbracket with ⟨before, after, htext⟩
  have hpos : 0 < v.toList.count ':' := by
    rw [count_pos_iff, htext]
    exact mem_append_right before (mem_cons_of_mem ']' mem_cons_self)
  omega

theorem hostFromAuthority_bracket (htext : v.toList = '[' :: (inner ++ ']' :: rest))
    (hinner : ']' ∉ inner) (hbracket : containsBracketPort v.toList = true) {name : List Char}
    (hclean : (exists port, rest = ':' :: port ∧ ':' ∉ port) -> '[' ∉ inner ∧ ']' ∉ rest ->
      name = inner)
    (hrefused : ¬ ((exists port, rest = ':' :: port ∧ ':' ∉ port) ∧ '[' ∉ inner ∧ ']' ∉ rest) ->
      name = []) :
    hostFromAuthority v = String.ofList (trimTrailingDot name) := by
  have hhead : v.toList.head? = some '[' := by
    rw [htext]
    rfl
  have hcut : cut ']' v.toList = some ('[' :: inner, rest) := by
    rw [htext]
    exact cut_bracket hinner rest
  have hlast : (cutLast ':' v.toList).map (fun split => split.1.length) =
      some (('[' :: inner).length + 1) ↔ exists port, rest = ':' :: port ∧ ':' ∉ port := by
    rw [htext]
    exact @lastColon_iff ('[' :: inner) rest
  rw [hostFromAuthority]
  dsimp only
  rw [if_pos ⟨hhead, hbracket⟩, hcut, Option.getD_some, drop_one, tail_cons]
  split
  · rename_i hall
    rw [hclean (hlast.mp hall.1) hall.2]
  · rename_i hnot
    rw [hrefused fun hall => hnot ⟨hlast.mpr hall.1, hall.2⟩]

theorem canonicalizeAuthority_bracket (htext : v.toList = '[' :: (inner ++ ']' :: rest))
    (hinner : ']' ∉ inner) (hcount : v.toList.count ':' ≠ 1)
    (hbracket : containsBracketPort v.toList = true) {name : List Char}
    (hlast : (exists port, rest = ':' :: port ∧ ':' ∉ port) -> name = inner)
    (hrefused : ¬ (exists port, rest = ':' :: port ∧ ':' ∉ port) -> name = []) :
    canonicalizeAuthority v = String.ofList (trimTrailingDot name) := by
  have hhead : v.toList.head? = some '[' := by
    rw [htext]
    rfl
  have hcut : cut ']' v.toList = some ('[' :: inner, rest) := by
    rw [htext]
    exact cut_bracket hinner rest
  rw [canonicalizeAuthority]
  rw [if_neg hcount, if_pos ⟨two_le_count hcount hbracket, hhead, hbracket⟩, hcut,
    Option.getD_some]
  by_cases hcolon : rest.head? = some ':'
  · rw [if_neg fun hne => hne hcolon]
    cases rest with
    | nil => cases hcolon
    | cons c port =>
      cases hcolon
      rw [drop_one, tail_cons]
      by_cases hport : ':' ∈ port
      · rw [if_pos hport, hrefused]
        rintro ⟨port', heq, hfree⟩
        cases heq
        exact hfree hport
      · rw [if_neg hport, hlast ⟨port, rfl, hport⟩]
        rfl
  · rw [if_pos hcolon, hrefused]
    rintro ⟨port, heq, _⟩
    rw [heq] at hcolon
    exact hcolon rfl

theorem mem_inner (htext : v.toList = '[' :: (inner ++ ']' :: ':' :: rest)) (hport : ':' ∉ rest)
    (hcount : v.toList.count ':' ≠ 1) : ':' ∈ inner := by
  by_contra hnot
  apply hcount
  rw [htext, count_cons_of_ne (by decide), count_append,
    count_cons_of_ne (by decide), count_cons_self, count_eq_zero.mpr hnot,
    count_eq_zero.mpr hport]

/-- With a colon between the brackets the two agree unless a bracket is left over. -/
theorem agree_bracket_iff (htext : v.toList = '[' :: (inner ++ ']' :: rest)) (hinner : ']' ∉ inner)
    (hcount : v.toList.count ':' ≠ 1) (hbracket : containsBracketPort v.toList = true) :
    hostFromAuthority v = canonicalizeAuthority v ↔
      forall port, rest = ':' :: port -> ':' ∉ port -> '[' ∉ inner ∧ ']' ∉ port := by
  by_cases hlast : exists port, rest = ':' :: port ∧ ':' ∉ port
  · have hsecond : canonicalizeAuthority v = String.ofList (trimTrailingDot inner) :=
      canonicalizeAuthority_bracket htext hinner hcount hbracket (fun _ => rfl)
        fun hnot => absurd hlast hnot
    rcases hlast with ⟨port, hrest, hport⟩
    have hclose : ']' ∉ rest ↔ ']' ∉ port := by
      rw [hrest, mem_cons, not_or]
      exact and_iff_right (by decide)
    by_cases hclean : '[' ∉ inner ∧ ']' ∉ rest
    · have hfirst : hostFromAuthority v = String.ofList (trimTrailingDot inner) :=
        hostFromAuthority_bracket htext hinner hbracket (fun _ _ => rfl)
          fun hnot => absurd ⟨⟨port, hrest, hport⟩, hclean⟩ hnot
      refine iff_of_true (hfirst.trans hsecond.symm) ?_
      intro port' hrest' _
      rw [hrest] at hrest'
      cases hrest'
      exact ⟨hclean.1, hclose.mp hclean.2⟩
    · have hfirst : hostFromAuthority v = String.ofList (trimTrailingDot []) :=
        hostFromAuthority_bracket htext hinner hbracket (fun _ hall => absurd hall hclean)
          fun _ => rfl
      refine iff_of_false ?_ ?_
      · intro heq
        rw [hfirst, hsecond, String.ofList_inj] at heq
        rw [hrest] at htext
        have hcolon := mem_inner htext hport hcount
        rcases trimTrailingDot_eq_nil.mp heq.symm with hnil | hdot
        · rw [hnil] at hcolon
          cases hcolon
        · rw [hdot] at hcolon
          exact absurd hcolon (by decide)
      · intro hall
        have hboth := hall port hrest hport
        exact hclean ⟨hboth.1, hclose.mpr hboth.2⟩
  · have hfirst : hostFromAuthority v = String.ofList (trimTrailingDot []) :=
      hostFromAuthority_bracket htext hinner hbracket (fun hexists _ => absurd hexists hlast)
        fun _ => rfl
    have hsecond : canonicalizeAuthority v = String.ofList (trimTrailingDot []) :=
      canonicalizeAuthority_bracket htext hinner hcount hbracket
        (fun hexists => absurd hexists hlast) fun _ => rfl
    refine iff_of_true (hfirst.trans hsecond.symm) ?_
    intro port hrest hport
    exact absurd ⟨port, hrest, hport⟩ hlast

end Bracket

theorem not_port {chars name port : List Char} (hcount : chars.count ':' ≠ 1) (hname : ':' ∉ name)
    (hport : ':' ∉ port) : chars ≠ name ++ ':' :: port := by
  intro htext
  rw [htext] at hcount
  exact hcount (count_port hname hport)

/-- An authority is routed alike exactly if it has no stray bracket. -/
theorem hostFromAuthority_eq_iff (v : String) :
    hostFromAuthority v = canonicalizeAuthority v ↔ PlainBrackets v.toList := by
  by_cases hcount : v.toList.count ':' = 1
  · rcases exists_port hcount with ⟨name, port, htext, hname, hport⟩
    rw [agree_port_iff htext hname hport]
    constructor
    · intro hplain
      constructor
      · intro name' port' htext' hname' hport'
        have hsame : some (name', port') = some (name, port) := by
          rw [<- cutLast_append ':' name' hport', <- cutLast_append ':' name hport, <- htext,
            <- htext']
        cases hsame
        exact hplain
      · intro inner port' htext' _ hinner hport'
        have htwo : 2 ≤ v.toList.count ':' := by
          have hpos := count_pos_iff.mpr hinner
          rw [htext', count_cons_of_ne (by decide), count_append,
            count_cons_of_ne (by decide), count_cons_self]
          omega
        omega
    · intro hplain
      exact hplain.port name port htext hname hport
  · by_cases hbracket : v.toList.head? = some '[' ∧ containsBracketPort v.toList = true
    · rcases exists_bracket hbracket.1 hbracket.2 with ⟨inner, rest, htext, hinner⟩
      rw [agree_bracket_iff htext hinner hcount hbracket.2]
      constructor
      · intro hplain
        constructor
        · exact fun name port htext' hname hport => absurd htext' (not_port hcount hname hport)
        · intro inner' port htext' hinner' _ hport
          have hsame : some ('[' :: inner', ':' :: port) = some ('[' :: inner, rest) := by
            rw [<- cut_bracket hinner' (':' :: port), <- cut_bracket hinner rest, <- htext,
              <- htext']
          cases hsame
          exact hplain port rfl hport
      · intro hplain port hrest hport
        rw [hrest] at htext
        exact hplain.bracketed inner port htext hinner (mem_inner htext hport hcount) hport
    · refine iff_of_true ?_ ?_
      · rw [hostFromAuthority, canonicalizeAuthority]
        rw [if_neg hbracket, if_neg hcount, if_neg hcount, if_neg fun h => hbracket h.2]
      · constructor
        · exact fun name port htext hname hport => absurd htext (not_port hcount hname hport)
        · intro inner port htext _ _ _
          refine absurd ⟨?_, ?_⟩ hbracket
          · rw [htext]
            rfl
          · rw [htext]
            exact mem_tails_bracket inner port

/-- The brackets of a name with a port. -/
theorem bracketed_name_differs :
    hostFromAuthority "[example.com]:80" ≠ canonicalizeAuthority "[example.com]:80" := by
  decide

end Server
end FrpRs
