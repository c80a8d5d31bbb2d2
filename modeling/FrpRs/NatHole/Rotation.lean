import FrpRs.NatHole.Recommendation

/-!
# Rotation of the recommendations

Without a reported success a record lowers its best score at every call, the first of
several, and so hands out its entries in turn.  The scores are 32-bit integers: this module
follows them down to the least one, where the next decrement wraps.
-/

namespace FrpRs
namespace NatHole
namespace MakeHoleRecords

open List

/-!
## Scores of 32 bits
-/

/-- The `i32` that a release build stores for the result of an operation. -/
def wrapI32 (n : Int) : Int :=
  (n + 2 ^ 31) % 2 ^ 32 - 2 ^ 31

def lowerI32 (s : BehaviorScore) : BehaviorScore :=
  { s with score := wrapI32 (s.score - 1) }

/-- `MakeHoleRecords::recommend` on scores of 32 bits. -/
def recommendI32 (r : MakeHoleRecords) (now : Nat) : (Nat × Nat) × MakeHoleRecords :=
  let i := best r.scores 0 (0, -2 ^ 31)
  match r.scores[i]? with
  | none => ((0, 0), r)
  | some s => ((s.mode, s.index), { scores := r.scores.set i (lowerI32 s), lastUpdateTime := now })

def recommends : MakeHoleRecords -> List Nat -> List (Nat × Nat) × MakeHoleRecords
  | r, [] => ([], r)
  | r, now :: times =>
    (((r.recommendI32 now).1 :: ((r.recommendI32 now).2.recommends times).1),
      ((r.recommendI32 now).2.recommends times).2)

/-- The scores are values of an `i32`. -/
def InRange (r : MakeHoleRecords) : Prop :=
  forall b, b ∈ r.scores -> -2 ^ 31 ≤ b.score ∧ b.score < 2 ^ 31

theorem wrapI32_of_lt {n : Int} (hlow : -2 ^ 31 ≤ n) (hhigh : n < 2 ^ 31) : wrapI32 n = n := by
  unfold wrapI32
  rw [Int.emod_eq_of_lt]
  · omega
  · omega
  · omega

theorem lowerI32_eq {s : BehaviorScore} (hlow : -2 ^ 31 < s.score) (hhigh : s.score < 2 ^ 31) :
    lowerI32 s = lower s := by
  unfold lowerI32 lower
  rw [wrapI32_of_lt]
  · omega
  · omega

/-!
## The best score
-/

/-- The list with its first greatest score set apart. -/
structure FirstMax (scores before : List BehaviorScore) (top : BehaviorScore)
    (after : List BehaviorScore) : Prop where
  split : scores = before ++ top :: after
  before_lt : forall b, b ∈ before -> b.score < top.score
  after_le : forall b, b ∈ after -> b.score ≤ top.score

variable {scores : List BehaviorScore}

theorem exists_firstMax (h : scores ≠ []) :
    exists before top after, FirstMax scores before top after := by
  induction scores with
  | nil =>
    exact absurd rfl h
  | cons s scores ih =>
    cases scores with
    | nil =>
      exists [], s, []
      constructor
      · rfl
      · simp
      · simp
    | cons s' scores =>
      rcases ih (cons_ne_nil s' scores) with ⟨before, top, after, hsplit, hbefore, hafter⟩
      cases lt_or_ge s.score top.score with
      | inl hlt =>
        exists s :: before, top, after
        constructor
        · rw [hsplit, cons_append]
        · rw [forall_mem_cons]
          exact ⟨hlt, hbefore⟩
        · exact hafter
      | inr hge =>
        exists [], s, s' :: scores
        constructor
        · rfl
        · simp
        · intro b hb
          rw [hsplit, mem_append, mem_cons] at hb
          rcases hb with hb | rfl | hb
          · exact (hbefore b hb).le.trans hge
          · exact hge
          · exact (hafter b hb).trans hge

variable {top : BehaviorScore}

theorem FirstMax.le {scores before after : List BehaviorScore}
    (h : FirstMax scores before top after) : forall b, b ∈ scores -> b.score ≤ top.score := by
  intro b hb
  rw [h.split, mem_append, mem_cons] at hb
  rcases hb with hb | rfl | hb
  · exact (h.before_lt b hb).le
  · exact le_refl _
  · exact h.after_le b hb

theorem FirstMax.mem {scores before after : List BehaviorScore}
    (h : FirstMax scores before top after) : top ∈ scores := by
  rw [h.split]
  exact mem_append_right before mem_cons_self

theorem FirstMax.mem_replaced {scores before after : List BehaviorScore} {top s : BehaviorScore}
    (h : FirstMax scores before top after) {b : BehaviorScore} (hb : b ∈ before ++ s :: after) :
    b = s ∨ b ∈ scores := by
  rw [mem_append, mem_cons] at hb
  rw [h.split, mem_append, mem_cons]
  rcases hb with hb | hb | hb
  · exact .inr (.inl hb)
  · exact .inl hb
  · exact .inr (.inr (.inr hb))

theorem best_le {i : Nat} {found : Nat × Int} (h : forall b, b ∈ scores -> b.score ≤ found.2) :
    best scores i found = found.1 := by
  induction scores generalizing i with
  | nil =>
    rfl
  | cons s scores ih =>
    rw [forall_mem_cons] at h
    rw [best, if_neg (not_lt.mpr h.1)]
    exact ih h.2

variable {before after : List BehaviorScore}

theorem best_first {i : Nat} {found : Nat × Int} (hfound : found.2 < top.score)
    (hbefore : forall b, b ∈ before -> b.score < top.score)
    (hafter : forall b, b ∈ after -> b.score ≤ top.score) :
    best (before ++ top :: after) i found = i + before.length := by
  induction before generalizing i found with
  | nil =>
    rw [nil_append, best, if_pos hfound]
    exact best_le hafter
  | cons s before ih =>
    rw [forall_mem_cons] at hbefore
    rw [cons_append, best, length_cons]
    split
    · rw [ih hbefore.1 hbefore.2]
      omega
    · rw [ih hfound hbefore.2]
      omega

variable {r : MakeHoleRecords}

theorem FirstMax.best_eq (h : FirstMax r.scores before top after) (hrange : r.InRange) :
    best r.scores 0 (0, -2 ^ 31) = before.length := by
  cases lt_or_ge (-2 ^ 31) top.score with
  | inl habove =>
    rw [h.split, best_first habove h.before_lt h.after_le]
    omega
  | inr hleast =>
    have hnil : before = [] := by
      apply eq_nil_iff_forall_not_mem.mpr
      intro b hb
      have hmem : b ∈ r.scores := by
        rw [h.split]
        exact mem_append_left _ hb
      have hlt := h.before_lt b hb
      have hlow := (hrange b hmem).1
      omega
    rw [best_le fun b hb => (h.le b hb).trans hleast, hnil]
    rfl

/-!
## One call
-/

theorem recommend_eq (h : FirstMax r.scores before top after) (hrange : r.InRange) (now : Nat) :
    r.recommend now = ((top.mode, top.index), ⟨before ++ lower top :: after, now⟩) := by
  simp only [recommend, h.best_eq hrange]
  rw [h.split]
  simp

theorem recommendI32_eq (h : FirstMax r.scores before top after) (hrange : r.InRange) (now : Nat) :
    r.recommendI32 now = ((top.mode, top.index), ⟨before ++ lowerI32 top :: after, now⟩) := by
  simp only [recommendI32, h.best_eq hrange]
  rw [h.split]
  simp

theorem recommendI32_eq_recommend (hrange : r.InRange)
    (habove : exists b, b ∈ r.scores ∧ -2 ^ 31 < b.score) (now : Nat) :
    r.recommendI32 now = r.recommend now := by
  rcases habove with ⟨b, hb, hscore⟩
  rcases exists_firstMax (ne_nil_of_mem hb) with ⟨before, top, after, h⟩
  have htop : -2 ^ 31 < top.score := lt_of_lt_of_le hscore (h.le b hb)
  rw [recommendI32_eq h hrange, recommend_eq h hrange, lowerI32_eq htop (hrange top h.mem).2]

/-!
## The sum of the scores
-/

def scoreSum : List BehaviorScore -> Int
  | [] => 0
  | s :: scores => s.score + scoreSum scores

@[simp] theorem scoreSum_nil : scoreSum [] = 0 := rfl

@[simp] theorem scoreSum_cons (s : BehaviorScore) (scores : List BehaviorScore) :
    scoreSum (s :: scores) = s.score + scoreSum scores := rfl

@[simp] theorem scoreSum_append (l m : List BehaviorScore) :
    scoreSum (l ++ m) = scoreSum l + scoreSum m := by
  induction l with
  | nil =>
    simp
  | cons s l ih =>
    rw [cons_append, scoreSum_cons, scoreSum_cons, ih, Int.add_assoc]

variable {m : Int}

theorem scoreSum_le (h : forall b, b ∈ scores -> b.score ≤ m) :
    scoreSum scores ≤ scores.length * m := by
  induction scores with
  | nil =>
    simp
  | cons s scores ih =>
    rw [forall_mem_cons] at h
    have hrest := ih h.2
    rw [scoreSum_cons, length_cons, Int.natCast_succ, Int.add_mul, Int.one_mul]
    omega

theorem le_scoreSum (h : forall b, b ∈ scores -> m ≤ b.score) :
    scores.length * m ≤ scoreSum scores := by
  induction scores with
  | nil =>
    simp
  | cons s scores ih =>
    rw [forall_mem_cons] at h
    have hrest := ih h.2
    rw [scoreSum_cons, length_cons, Int.natCast_succ, Int.add_mul, Int.one_mul]
    omega

theorem eq_of_scoreSum_eq (h : forall b, b ∈ scores -> m ≤ b.score)
    (hsum : scoreSum scores = scores.length * m) :
    forall b, b ∈ scores -> b.score = m := by
  intro b hb
  rcases append_of_mem hb with ⟨before, after, rfl⟩
  rw [forall_mem_append, forall_mem_cons] at h
  have hbefore := le_scoreSum h.1
  have hafter := le_scoreSum h.2.2
  rw [scoreSum_append, scoreSum_cons, length_append, length_cons, Int.natCast_add,
    Int.natCast_succ, Int.add_mul, Int.add_mul, Int.one_mul] at hsum
  omega

theorem exists_above (h : scores.length * m < scoreSum scores) :
    exists b, b ∈ scores ∧ m < b.score := by
  by_contra hnone
  apply absurd h
  apply not_lt.mpr
  apply scoreSum_le
  intro b hb
  apply not_lt.mp
  intro hlt
  exact hnone ⟨b, hb, hlt⟩

/-!
## Scores stay level
-/

def Level (r : MakeHoleRecords) : Prop :=
  forall a, a ∈ r.scores -> forall b, b ∈ r.scores -> a.score ≤ b.score + 1

/-- Every score is `m` or one more. -/
def LevelAt (r : MakeHoleRecords) (m : Int) : Prop :=
  forall b, b ∈ r.scores -> m ≤ b.score ∧ b.score ≤ m + 1

theorem LevelAt.level (h : r.LevelAt m) : r.Level := by
  intro a ha b hb
  have hhigh := (h a ha).2
  have hlow := (h b hb).1
  omega

/-- A record of so many entries whose scores are level and have this sum. -/
structure Falling (n : Nat) (sum : Int) (r : MakeHoleRecords) : Prop where
  inRange : r.InRange
  length_eq : r.scores.length = n
  sum_eq : scoreSum r.scores = sum
  level : exists m, r.LevelAt m

theorem LevelAt.lowered {r r' : MakeHoleRecords} (h : r.LevelAt m)
    (hmax : FirstMax r.scores before top after) (hscores : r'.scores = before ++ lower top :: after) :
    exists m', r'.LevelAt m' := by
  have hothers : forall b, b ∈ r'.scores -> b = lower top ∨ b ∈ r.scores := by
    intro b hb
    rw [hscores] at hb
    exact hmax.mem_replaced hb
  have htop := h top hmax.mem
  have hlowered : (lower top).score = top.score - 1 := rfl
  cases lt_or_ge m top.score with
  | inl hlt =>
    exists m
    intro b hb
    rcases hothers b hb with rfl | hold
    · omega
    · exact h b hold
  | inr hge =>
    exists m - 1
    intro b hb
    rcases hothers b hb with rfl | hold
    · omega
    · have hle := hmax.le b hold
      have hb := h b hold
      omega

theorem Falling.recommendI32 {n : Nat} {sum : Int} (h : Falling n sum r)
    (habove : n * -2 ^ 31 < sum) (now : Nat) : Falling n (sum - 1) (r.recommendI32 now).2 := by
  rw [← h.sum_eq, ← h.length_eq] at habove
  rcases exists_above habove with ⟨b, hb, hscore⟩
  rcases exists_firstMax (ne_nil_of_mem hb) with ⟨before, top, after, hmax⟩
  have htop : -2 ^ 31 < top.score := lt_of_lt_of_le hscore (hmax.le b hb)
  rw [recommendI32_eq_recommend h.inRange ⟨b, hb, hscore⟩, recommend_eq hmax h.inRange]
  have hlowered : (lower top).score = top.score - 1 := rfl
  constructor
  · intro b hb
    rcases hmax.mem_replaced hb with rfl | hold
    · have htopRange := h.inRange top hmax.mem
      omega
    · exact h.inRange b hold
  · rw [← h.length_eq, hmax.split]
    simp
  · rw [← h.sum_eq, hmax.split]
    simp only [scoreSum_append, scoreSum_cons, hlowered]
    omega
  · rcases h.level with ⟨m, hm⟩
    exact hm.lowered hmax rfl

theorem Falling.recommends {n : Nat} {sum : Int} {r : MakeHoleRecords} (h : Falling n sum r)
    {times : List Nat} (hcalls : times.length ≤ sum + n * 2 ^ 31) :
    Falling n (sum - times.length) (r.recommends times).2 := by
  induction times generalizing r sum with
  | nil =>
    simpa [MakeHoleRecords.recommends] using h
  | cons now times ih =>
    rw [length_cons, Int.natCast_succ] at hcalls
    have hstep := ih (h.recommendI32 (by omega) now) (by omega)
    have hsum : sum - (now :: times).length = sum - 1 - times.length := by
      rw [length_cons, Int.natCast_succ]
      omega
    rw [hsum]
    exact hstep

theorem Falling.wraps {n : Nat} (h : Falling n (n * -2 ^ 31) r) (hn : 2 ≤ n) (now : Nat) :
    ¬ (r.recommendI32 now).2.Level := by
  have hsum : scoreSum r.scores = r.scores.length * -2 ^ 31 := by
    rw [h.sum_eq, h.length_eq]
  have hleast := eq_of_scoreSum_eq (fun b hb => (h.inRange b hb).1) hsum
  have hlength := h.length_eq
  rcases hscores : r.scores with _ | ⟨first, _ | ⟨second, rest⟩⟩
  · rw [hscores, length_nil] at hlength
    omega
  · rw [hscores, length_singleton] at hlength
    omega
  · rw [hscores, forall_mem_cons, forall_mem_cons] at hleast
    rcases hleast with ⟨hfirst, hsecond, hrest⟩
    have hmax : FirstMax r.scores [] first (second :: rest) := by
      constructor
      · rw [hscores, nil_append]
      · simp
      · rw [forall_mem_cons, hfirst]
        exact ⟨hsecond.le, fun b hb => (hrest b hb).le⟩
    rw [recommendI32_eq hmax h.inRange]
    intro hlevel
    have hwrapped : (lowerI32 first).score = 2 ^ 31 - 1 := by
      show wrapI32 (first.score - 1) = 2 ^ 31 - 1
      rw [hfirst]
      decide
    have hle := hlevel (lowerI32 first) mem_cons_self second
      (mem_cons_of_mem _ mem_cons_self)
    omega

/-!
## Blocks of calls
-/

def entries (scores : List BehaviorScore) : List (Nat × Nat) :=
  scores.map fun b => (b.mode, b.index)

def AllAt (scores : List BehaviorScore) (m : Int) : Prop :=
  forall b, b ∈ scores -> b.score = m

@[simp] theorem entries_lower (scores : List BehaviorScore) :
    entries (scores.map lower) = entries scores := by
  simp [entries, lower]

theorem AllAt.lower (h : AllAt scores m) :
    AllAt (scores.map MakeHoleRecords.lower) (m - 1) := by
  intro b hb
  rcases mem_map.mp hb with ⟨s, hs, rfl⟩
  show s.score - 1 = m - 1
  rw [h s hs]

theorem recommends_append (r : MakeHoleRecords) (times later : List Nat) :
    r.recommends (times ++ later) =
      ((r.recommends times).1 ++ ((r.recommends times).2.recommends later).1,
        ((r.recommends times).2.recommends later).2) := by
  induction times generalizing r with
  | nil =>
    rfl
  | cons now times ih =>
    simp only [cons_append, recommends, ih]

/-- The entries that were not lowered yet are handed out in their order. -/
theorem recommends_turn {done todo : List BehaviorScore} {times : List Nat}
    (hscores : r.scores = done ++ todo) (hdone : AllAt done (m - 1)) (htodo : AllAt todo m)
    (hlow : -2 ^ 31 < m) (hhigh : m < 2 ^ 31) (hlength : times.length = todo.length) :
    (r.recommends times).1 = entries todo ∧
      (r.recommends times).2.scores = done ++ todo.map lower := by
  induction todo generalizing r done times with
  | nil =>
    rw [length_nil, length_eq_zero_iff] at hlength
    rw [hlength]
    exact ⟨rfl, hscores⟩
  | cons top todo ih =>
    cases times with
    | nil =>
      cases hlength
    | cons now times =>
      have htop : top.score = m := htodo top mem_cons_self
      have hrest : AllAt todo m := fun b hb => htodo b (mem_cons_of_mem top hb)
      have hmax : FirstMax r.scores done top todo := by
        constructor
        · exact hscores
        · intro b hb
          rw [hdone b hb, htop]
          omega
        · intro b hb
          rw [hrest b hb, htop]
      have hrange : r.InRange := by
        intro b hb
        rw [hscores, mem_append] at hb
        cases hb with
        | inl hb =>
          rw [hdone b hb]
          omega
        | inr hb =>
          rw [htodo b hb]
          omega
      have hcall := recommendI32_eq hmax hrange now
      rw [lowerI32_eq (by omega) (by omega)] at hcall
      have hlowered : AllAt (done ++ [lower top]) (m - 1) := by
        intro b hb
        rcases mem_append.mp hb with hb | hb
        · exact hdone b hb
        · rw [mem_singleton.mp hb]
          show top.score - 1 = m - 1
          rw [htop]
      have hnext := @ih ⟨done ++ lower top :: todo, now⟩ (done ++ [lower top]) times
        (by simp) hlowered hrest (Nat.succ.inj hlength)
      rw [recommends, hcall]
      constructor
      · rw [hnext.1]
        rfl
      · rw [hnext.2, map_cons, append_assoc, singleton_append]

variable {times : List Nat}

theorem recommends_block (h : AllAt r.scores m) (hlow : -2 ^ 31 < m) (hhigh : m < 2 ^ 31)
    (hlength : times.length = r.scores.length) :
    (r.recommends times).1 = entries r.scores ∧
      (r.recommends times).2.scores = r.scores.map lower := by
  have hempty : AllAt [] (m - 1) := by
    intro b hb
    cases hb
  exact recommends_turn (nil_append r.scores).symm hempty h hlow hhigh hlength

theorem recommends_blocks (q : Nat) (h : AllAt r.scores m) (hlow : -2 ^ 31 < m - q)
    (hhigh : m < 2 ^ 31) (hlength : (q + 1) * r.scores.length ≤ times.length) :
    ((r.recommends times).1.drop (q * r.scores.length)).take r.scores.length =
      entries r.scores := by
  induction q generalizing r m times with
  | zero =>
    rw [Nat.zero_add, Nat.one_mul] at hlength
    have hblock := recommends_block h (by omega) hhigh (length_take_of_le hlength)
    rw [← take_append_drop r.scores.length times, recommends_append, hblock.1,
      Nat.zero_mul, drop_zero]
    have hentries : (entries r.scores).length = r.scores.length := length_map _
    rw [take_append_of_le_length (by omega), take_of_length_le (by omega)]
  | succ q ih =>
    have hfirst : r.scores.length ≤ times.length :=
      le_trans (Nat.le_mul_of_pos_left _ (Nat.succ_pos _)) hlength
    have hblock := recommends_block h (by omega) hhigh (length_take_of_le hfirst)
    have hentries : (entries r.scores).length = r.scores.length := length_map _
    have hsame : (r.recommends (times.take r.scores.length)).2.scores.length =
        r.scores.length := by
      rw [hblock.2, length_map]
    have hrest := @ih (r.recommends (times.take r.scores.length)).2 (m - 1)
      (times.drop r.scores.length) (by rw [hblock.2]; exact h.lower) (by omega) (by omega)
      (by
        rw [hsame, length_drop]
        rw [Nat.succ_mul (q + 1)] at hlength
        omega)
    rw [hsame, hblock.2, entries_lower] at hrest
    rw [← hrest]
    conv_lhs => rw [← take_append_drop r.scores.length times]
    rw [recommends_append, hblock.1, Nat.succ_mul, Nat.add_comm (q * _), ← drop_drop,
      drop_left' hentries]

/-!
## Fresh records
-/

theorem mode0Scores_bounds (cPub vPub : Bool) :
    forall b, b ∈ mode0Scores cPub vPub -> 0 ≤ b.score ∧ b.score ≤ 0 + 1 := by
  revert cPub vPub
  decide

variable (c v : NatFeature)

theorem new_levelAt (now : Nat) : (new c v now).LevelAt 0 := by
  apply forall_initialScores
  · exact mode0Scores_bounds c.publicNetwork v.publicNetwork
  · intro mode score hlow hhigh _ b hb
    rcases mem_map.mp hb with ⟨i, _, rfl⟩
    exact ⟨hlow, hhigh⟩

theorem new_falling (now : Nat) :
    Falling (new c v now).scores.length (scoreSum (new c v now).scores) (new c v now) := by
  have hlevel := new_levelAt c v now
  constructor
  · intro b hb
    have hb := hlevel b hb
    omega
  · rfl
  · rfl
  · exact ⟨0, hlevel⟩

def layouts : List (List Nat) :=
  [[0], [1, 2, 0], [2, 1, 0], [3, 4], [4], [0, 1, 3]]

def layoutEntries (modes : List Nat) : List (Nat × Nat) :=
  modes.flatMap fun mode => entries (modeScores mode 0)

theorem entries_initialScores :
    exists modes, modes ∈ layouts ∧ entries (initialScores c v) = layoutEntries modes := by
  have hmode0 : forall cPub vPub, entries (mode0Scores cPub vPub) = entries (modeScores 0 0) := by
    decide
  have happend : forall l m, entries (l ++ m) = entries l ++ entries m :=
    fun l m => map_append
  simp only [initialScores]
  split
  · exact ⟨[0], by decide, hmode0 _ _⟩
  · split
    · exact ⟨[1, 2, 0], by decide, by rw [happend, happend, hmode0]; rfl⟩
    · split
      · exact ⟨[2, 1, 0], by decide, by rw [happend, happend, hmode0]; rfl⟩
      · split
        · exact ⟨[3, 4], by decide, by decide⟩
        · split
          · exact ⟨[4], by decide, by decide⟩
          · exact ⟨[0, 1, 3], by decide, by decide⟩

theorem new_entries (now : Nat) :
    (entries (new c v now).scores).Nodup ∧ 2 ≤ (new c v now).scores.length := by
  have hlayouts : forall modes, modes ∈ layouts ->
      (layoutEntries modes).Nodup ∧ 2 ≤ (layoutEntries modes).length := by
    decide
  rcases entries_initialScores c v with ⟨modes, hmodes, heq⟩
  have h := hlayouts modes hmodes
  rw [← heq] at h
  constructor
  · exact h.1
  · exact le_trans h.2 (length_map _).le

/-!
## Rotation
-/

/-- After each of the calls the scores are level, and where the scores were equal each block
of as many calls as there are entries hands out each entry once, in the record's order. -/
structure Rotates (r : MakeHoleRecords) (times : List Nat) : Prop where
  level : forall n, n ≤ times.length -> (r.recommends (times.take n)).2.Level
  blocks : (exists m, AllAt r.scores m) ->
    forall q, (q + 1) * r.scores.length ≤ times.length ->
      ((r.recommends times).1.drop (q * r.scores.length)).take r.scores.length =
        entries r.scores ∧ (entries r.scores).Nodup

def capacity (r : MakeHoleRecords) : Int :=
  scoreSum r.scores + r.scores.length * 2 ^ 31

theorem rotates_of_le {c v : NatFeature} {now : Nat} (h : times.length ≤ (new c v now).capacity) :
    (new c v now).Rotates times := by
  have hfalling := new_falling c v now
  have hlevel := new_levelAt c v now
  have hentries := new_entries c v now
  generalize new c v now = r at h hfalling hlevel hentries ⊢
  unfold capacity at h
  constructor
  · intro n hn
    have hfewer : ((times.take n).length : Int) ≤
        scoreSum r.scores + r.scores.length * 2 ^ 31 := by
      rw [length_take]
      omega
    rcases (hfalling.recommends hfewer).level with ⟨m, hm⟩
    exact hm.level
  · intro hequal q hq
    rcases hequal with ⟨m, hm⟩
    have hsum : scoreSum r.scores ≤ r.scores.length * m := scoreSum_le fun b hb => (hm b hb).le
    have hhigh : m < 2 ^ 31 := by
      rcases exists_mem_of_length_pos (l := r.scores) (by omega) with ⟨b, hb⟩
      have hle := (hlevel b hb).2
      rw [hm b hb] at hle
      omega
    have hmany : (r.scores.length : Int) * (q + 1) ≤ r.scores.length * (m + 2 ^ 31) := by
      rw [Int.mul_add _ m]
      have hcast : ((q + 1) * r.scores.length : Int) ≤ times.length := by
        exact_mod_cast hq
      rw [Int.mul_comm] at hcast
      omega
    have hpos : (0 : Int) < r.scores.length := by
      omega
    have hblock := Int.le_of_mul_le_mul_left hmany hpos
    exact ⟨recommends_blocks q hm (by omega) hhigh hq, hentries.1⟩

theorem not_rotates_of_lt {c v : NatFeature} {now : Nat} (h : (new c v now).capacity < times.length) :
    ¬ (new c v now).Rotates times := by
  have hfalling := new_falling c v now
  have hlevel := new_levelAt c v now
  have htwo := (new_entries c v now).2
  generalize new c v now = r at h hfalling hlevel htwo ⊢
  have hpositive : 0 ≤ r.capacity := by
    have hsum := le_scoreSum fun b hb => (hlevel b hb).1
    unfold capacity
    omega
  rcases Int.eq_ofNat_of_zero_le hpositive with ⟨k, hk⟩
  rw [hk] at h
  have hlt : k < times.length := by
    exact_mod_cast h
  have htake : (times.take k).length = k := length_take_of_le hlt.le
  have hfull := @Falling.recommends _ _ _ hfalling (times.take k) (by
    rw [htake, ← hk]
    exact le_refl _)
  have hsum : scoreSum r.scores - (times.take k).length = r.scores.length * -2 ^ 31 := by
    rw [htake, ← hk]
    unfold capacity
    omega
  rw [hsum] at hfull
  intro hrotates
  apply hfull.wraps htwo (times.get ⟨k, hlt⟩)
  have hnext := hrotates.level (k + 1) hlt
  rw [take_succ_eq_append_getElem hlt, recommends_append] at hnext
  exact hnext

/-- The recommendations of a fresh record rotate exactly as long as there are no more calls
than its scores can be lowered within 32 bits. -/
theorem rotates_iff (c v : NatFeature) (now : Nat) (times : List Nat) :
    (new c v now).Rotates times ↔
      (times.length : Int) ≤ scoreSum (new c v now).scores +
        (new c v now).scores.length * 2 ^ 31 := by
  constructor
  · intro hrotates
    apply le_of_not_gt
    intro hlt
    exact not_rotates_of_lt hlt hrotates
  · exact rotates_of_le

end MakeHoleRecords

/-- Ten entries of score zero are lowered `10 * 2 ^ 31` times; the next call makes the first
score the greatest `i32` and the others stay the least. -/
theorem rotation_wraps :
    ¬ (MakeHoleRecords.new easyPeer easyPeer 0).Rotates
      (List.replicate (10 * 2 ^ 31 + 1) 0) := by
  apply MakeHoleRecords.not_rotates_of_lt
  have hcapacity : (MakeHoleRecords.new easyPeer easyPeer 0).capacity = 10 * 2 ^ 31 := by
    decide
  rw [hcapacity, List.length_replicate]
  decide

end NatHole
end FrpRs
