import Mathlib.Algebra.Order.BigOperators.Group.List
import Mathlib.Algebra.Order.Ring.Nat

/-!
# Blocks

Some items of a list continue the item before them.  An item with the items that continue it
is a block, and a list is read as a list of blocks; items before the first block continue
nothing.

A list is thinned by dropping the first items of some of its blocks.  What is left is read as
the blocks that are not to be removed exactly when the dropped first items are those of the
removed blocks, and nothing continues a removed block.
-/

namespace FrpRs
namespace Blocks

open List

variable {α : Type}

/-- An item with the items that continue it. -/
structure Block (α : Type) where
  first : α
  rest : List α
deriving DecidableEq, Repr

def Block.items (b : Block α) : List α :=
  b.first :: b.rest

def Block.WellFormed (cont : α -> Bool) (b : Block α) : Prop :=
  cont b.first = false ∧ forall a, a ∈ b.rest -> cont a = true

def blocks (cont : α -> Bool) : List α -> List α × List (Block α)
  | [] => ([], [])
  | a :: as =>
    if cont a then (a :: (blocks cont as).1, (blocks cont as).2)
    else ([], ⟨a, (blocks cont as).1⟩ :: (blocks cont as).2)

variable {cont : α -> Bool}

theorem blocks_items (cont : α -> Bool) (as : List α) :
    (blocks cont as).1 ++ (blocks cont as).2.flatMap Block.items = as := by
  induction as with
  | nil =>
    rfl
  | cons a as ih =>
    rw [blocks]
    split
    · rw [cons_append, ih]
    · rw [nil_append, flatMap_cons, Block.items, cons_append, ih]

theorem blocks_wellFormed (cont : α -> Bool) (as : List α) :
    (forall a, a ∈ (blocks cont as).1 -> cont a = true) ∧
      forall b, b ∈ (blocks cont as).2 -> b.WellFormed cont := by
  induction as with
  | nil =>
    exact ⟨fun a ha => absurd ha not_mem_nil, fun b hb => absurd hb not_mem_nil⟩
  | cons a as ih =>
    rw [blocks]
    by_cases hcont : cont a = true
    · rw [if_pos hcont]
      refine ⟨?_, ih.2⟩
      intro a' ha'
      rcases mem_cons.mp ha' with heq | hmem
      · rw [heq]
        exact hcont
      · exact ih.1 a' hmem
    · rw [if_neg hcont]
      refine ⟨fun a' ha' => absurd ha' not_mem_nil, ?_⟩
      intro b hb
      rcases mem_cons.mp hb with heq | hmem
      · rw [heq]
        exact ⟨Bool.not_eq_true _ ▸ hcont, ih.1⟩
      · exact ih.2 b hmem

theorem blocks_orphans {orphans : List α} (horphans : forall a, a ∈ orphans -> cont a = true)
    (as : List α) :
    blocks cont (orphans ++ as) = (orphans ++ (blocks cont as).1, (blocks cont as).2) := by
  induction orphans with
  | nil =>
    rfl
  | cons a orphans ih =>
    rw [cons_append, blocks, if_pos (horphans a mem_cons_self),
      ih fun a' ha' => horphans a' (mem_cons_of_mem a ha')]
    rfl

theorem blocks_dropWhile (cont : α -> Bool) (as : List α) :
    blocks cont (as.dropWhile cont) = ([], (blocks cont as).2) := by
  induction as with
  | nil =>
    rfl
  | cons a as ih =>
    cases hcont : cont a with
    | true => rw [dropWhile_cons_of_pos hcont, ih, blocks, if_pos hcont]
    | false =>
      have hneg : ¬ cont a = true := by
        rw [hcont]
        exact Bool.false_ne_true
      rw [dropWhile_cons_of_neg hneg, blocks, if_neg hneg]

theorem blocks_flatMap_items {bs : List (Block α)}
    (hbs : forall b, b ∈ bs -> b.WellFormed cont) :
    blocks cont (bs.flatMap Block.items) = ([], bs) := by
  induction bs with
  | nil =>
    rfl
  | cons b bs ih =>
    obtain ⟨hfirst, hrest⟩ := hbs b mem_cons_self
    have htail := ih fun b' hb' => hbs b' (mem_cons_of_mem b hb')
    rw [flatMap_cons, Block.items, cons_append, blocks, blocks_orphans hrest, htail,
      hfirst, if_neg Bool.false_ne_true, append_nil]

/-!
## Thinning
-/

/-- A block whose first item is dropped if it is marked; the items that continue it are
left. -/
def thin (m : Block α × Bool) : List α :=
  (if m.2 then [] else [m.1.first]) ++ m.1.rest

def thinned (ms : List (Block α × Bool)) : List α :=
  ms.flatMap thin

theorem thinned_cons (m : Block α × Bool) (ms : List (Block α × Bool)) :
    thinned (m :: ms) = thin m ++ thinned ms :=
  flatMap_cons

def itemsLeft (removed : Block α -> Bool) (b : Block α) : List α :=
  if removed b then [] else b.items

def remaining (removed : Block α -> Bool) (bs : List (Block α)) : List (Block α) :=
  bs.filter fun b => !removed b

theorem flatMap_remaining (removed : Block α -> Bool) (bs : List (Block α)) :
    (remaining removed bs).flatMap Block.items = bs.flatMap (itemsLeft removed) := by
  induction bs with
  | nil =>
    rfl
  | cons b bs ih =>
    rw [flatMap_cons, ← ih, remaining, remaining, itemsLeft]
    cases hremoved : removed b with
    | true =>
      rw [filter_cons_of_neg (by simp [hremoved]), if_pos rfl]
      rfl
    | false => rw [filter_cons_of_pos (by simp [hremoved]), flatMap_cons,
        if_neg Bool.false_ne_true]

theorem eq_of_sum_eq {β : Type} {f g : β -> Nat} {l : List β}
    (hle : forall b, b ∈ l -> f b ≤ g b) (hsum : (l.map f).sum = (l.map g).sum) {b : β}
    (hb : b ∈ l) : f b = g b := by
  induction l with
  | nil =>
    cases hb
  | cons c l ih =>
    have htail : forall b, b ∈ l -> f b ≤ g b := fun b hb => hle b (mem_cons_of_mem c hb)
    have hsums := sum_le_sum htail
    have hhead := hle c mem_cons_self
    rw [map_cons, map_cons, sum_cons, sum_cons] at hsum
    rcases mem_cons.mp hb with heq | hmem
    · rw [heq]
      omega
    · exact ih htail (by omega) hmem

section Counting

variable {ms : List (Block α × Bool)} {removed : Block α -> Bool} {m : Block α × Bool}

theorem countP_cont_thin (hwf : m.1.WellFormed cont) :
    (thin m).countP cont = m.1.rest.length := by
  rw [thin, countP_append, countP_eq_length.mpr hwf.2]
  split
  · exact Nat.zero_add _
  · rw [countP_singleton, hwf.1, if_neg Bool.false_ne_true, Nat.zero_add]

theorem countP_cont_itemsLeft {b : Block α} (hwf : b.WellFormed cont) :
    (itemsLeft removed b).countP cont = if removed b then 0 else b.rest.length := by
  rw [itemsLeft]
  split
  · rfl
  · rw [Block.items, countP_cons_of_neg (by simp [hwf.1]), countP_eq_length.mpr hwf.2]

def isFirst (cont kind : α -> Bool) (a : α) : Bool :=
  !cont a && kind a

theorem countP_isFirst_rest {b : Block α} (hwf : b.WellFormed cont) (kind : α -> Bool) :
    b.rest.countP (isFirst cont kind) = 0 := by
  rw [countP_eq_zero]
  intro a ha
  simp [isFirst, hwf.2 a ha]

theorem countP_isFirst_thin (hwf : m.1.WellFormed cont) (kind : α -> Bool) :
    (thin m).countP (isFirst cont kind) = if m.2 then 0 else if kind m.1.first then 1 else 0 := by
  rw [thin, countP_append, countP_isFirst_rest hwf, Nat.add_zero]
  split
  · rfl
  · rw [countP_singleton, isFirst, hwf.1, Bool.not_false, Bool.true_and]

theorem countP_isFirst_itemsLeft {b : Block α} (hwf : b.WellFormed cont) (kind : α -> Bool) :
    (itemsLeft removed b).countP (isFirst cont kind) =
      if removed b then 0 else if kind b.first then 1 else 0 := by
  rw [itemsLeft]
  split
  · rfl
  · rw [Block.items, countP_cons, countP_isFirst_rest hwf, isFirst, hwf.1, Bool.not_false,
      Bool.true_and, Nat.zero_add]

theorem sum_countP_eq (heq : thinned ms = (remaining removed (ms.map Prod.fst)).flatMap Block.items)
    (p : α -> Bool) :
    (ms.map fun m => (thin m).countP p).sum =
      (ms.map fun m => (itemsLeft removed m.1).countP p).sum := by
  rw [flatMap_remaining, flatMap_map] at heq
  have hcount := congrArg (countP p) heq
  rw [thinned, countP_flatMap, countP_flatMap] at hcount
  exact hcount

variable (hwf : forall m, m ∈ ms -> m.1.WellFormed cont)
variable (heq : thinned ms = (remaining removed (ms.map Prod.fst)).flatMap Block.items)

include hwf heq

theorem rest_nil_of_removed (hm : m ∈ ms) (hremoved : removed m.1 = true) : m.1.rest = [] := by
  have hle : forall m, m ∈ ms ->
      (itemsLeft removed m.1).countP cont ≤ (thin m).countP cont := by
    intro m hm
    rw [countP_cont_thin (hwf m hm), countP_cont_itemsLeft (hwf m hm)]
    split
    · exact Nat.zero_le _
    · exact Nat.le_refl _
  have hsame := eq_of_sum_eq hle (sum_countP_eq heq cont).symm hm
  rw [countP_cont_thin (hwf m hm), countP_cont_itemsLeft (hwf m hm), if_pos hremoved] at hsame
  exact eq_nil_of_length_eq_zero hsame.symm

theorem dropped_of_removed {kind : α -> Bool}
    (hkind : forall m, m ∈ ms -> kind m.1.first = true -> m.2 = true -> removed m.1 = true)
    (hm : m ∈ ms) (hfirst : kind m.1.first = true) (hremoved : removed m.1 = true) :
    m.2 = true := by
  have hle : forall m, m ∈ ms ->
      (itemsLeft removed m.1).countP (isFirst cont kind) ≤
        (thin m).countP (isFirst cont kind) := by
    intro m hm
    rw [countP_isFirst_thin (hwf m hm), countP_isFirst_itemsLeft (hwf m hm)]
    cases hfirst : kind m.1.first with
    | false => simp
    | true =>
      cases hdrop : m.2 with
      | true => simp [hkind m hm hfirst hdrop]
      | false =>
        split
        · exact Nat.zero_le 1
        · exact Nat.le_refl 1
  have hsame := eq_of_sum_eq hle (sum_countP_eq heq (isFirst cont kind)).symm hm
  rw [countP_isFirst_thin (hwf m hm), countP_isFirst_itemsLeft (hwf m hm), hfirst, if_pos rfl,
    if_pos hremoved] at hsame
  cases hdrop : m.2 with
  | true => rfl
  | false =>
    rw [hdrop, if_neg Bool.false_ne_true] at hsame
    cases hsame

theorem removed_of_dropped {kind : α -> Bool}
    (hkind : forall m, m ∈ ms -> kind m.1.first = true -> removed m.1 = true -> m.2 = true)
    (hm : m ∈ ms) (hfirst : kind m.1.first = true) (hdrop : m.2 = true) :
    removed m.1 = true := by
  have hle : forall m, m ∈ ms ->
      (thin m).countP (isFirst cont kind) ≤
        (itemsLeft removed m.1).countP (isFirst cont kind) := by
    intro m hm
    rw [countP_isFirst_thin (hwf m hm), countP_isFirst_itemsLeft (hwf m hm)]
    cases hfirst : kind m.1.first with
    | false => simp
    | true =>
      cases hremoved : removed m.1 with
      | true => simp [hkind m hm hfirst hremoved]
      | false =>
        split
        · exact Nat.zero_le 1
        · exact Nat.le_refl 1
  have hsame := eq_of_sum_eq hle (sum_countP_eq heq (isFirst cont kind)) hm
  rw [countP_isFirst_thin (hwf m hm), countP_isFirst_itemsLeft (hwf m hm), hfirst, if_pos rfl,
    if_pos hdrop] at hsame
  cases hremoved : removed m.1 with
  | true => rfl
  | false =>
    rw [hremoved, if_neg Bool.false_ne_true] at hsame
    cases hsame

end Counting

theorem thinned_eq {ms : List (Block α × Bool)} {removed : Block α -> Bool}
    (hrest : forall m, m ∈ ms -> removed m.1 = true -> m.1.rest = [])
    (hdrop : forall m, m ∈ ms -> m.2 = removed m.1) :
    thinned ms = (remaining removed (ms.map Prod.fst)).flatMap Block.items := by
  rw [flatMap_remaining, flatMap_map, thinned]
  apply flatMap_congr
  intro m hm
  rw [thin, itemsLeft, hdrop m hm]
  cases hremoved : removed m.1 with
  | true =>
    rw [hrest m hm hremoved]
    rfl
  | false => rfl

def Unfolded (removed : Block α -> Bool) (bs : List (Block α)) : Prop :=
  forall b, b ∈ bs -> removed b = true -> b.rest = []

/-- Reading a thinned list gives the remaining blocks exactly when nothing continues a removed
block and the dropped first items are those of the removed blocks.  Among the first items of
one kind only removed ones are dropped, and among the others all removed ones are. -/
theorem blocks_thinned_iff {ms : List (Block α × Bool)}
    (hwf : forall m, m ∈ ms -> m.1.WellFormed cont) (removed : Block α -> Bool) (kind : α -> Bool)
    (hkind : Unfolded removed (ms.map Prod.fst) ->
      forall m, m ∈ ms -> kind m.1.first = true -> m.2 = true -> removed m.1 = true)
    (hothers : Unfolded removed (ms.map Prod.fst) ->
      forall m, m ∈ ms -> kind m.1.first = false -> removed m.1 = true -> m.2 = true) :
    blocks cont (thinned ms) = ([], remaining removed (ms.map Prod.fst)) ↔
      Unfolded removed (ms.map Prod.fst) ∧ forall m, m ∈ ms -> m.2 = removed m.1 := by
  constructor
  · intro hblocks
    have heq : thinned ms = (remaining removed (ms.map Prod.fst)).flatMap Block.items := by
      have hitems := blocks_items cont (thinned ms)
      rw [hblocks] at hitems
      exact hitems.symm
    have hrest : Unfolded removed (ms.map Prod.fst) := by
      intro b hb hremoved
      obtain ⟨m, hm, hmb⟩ := mem_map.mp hb
      rw [← hmb] at hremoved ⊢
      exact rest_nil_of_removed hwf heq hm hremoved
    have hothers' : forall m, m ∈ ms -> (!kind m.1.first) = true -> removed m.1 = true ->
        m.2 = true := by
      intro m hm hfirst hremoved
      exact hothers hrest m hm (Bool.not_eq_true' _ ▸ hfirst) hremoved
    refine ⟨hrest, ?_⟩
    intro m hm
    rw [Bool.eq_iff_iff]
    cases hfirst : kind m.1.first with
    | true =>
      exact ⟨hkind hrest m hm hfirst, dropped_of_removed hwf heq (hkind hrest) hm hfirst⟩
    | false =>
      have hfirst' : (!kind m.1.first) = true := by rw [hfirst, Bool.not_false]
      exact ⟨@removed_of_dropped α cont ms removed m hwf heq (fun a => !kind a) hothers' hm
        hfirst', hothers' m hm hfirst'⟩
  · intro h
    obtain ⟨hrest, hdrop⟩ := h
    have hrest' : forall m, m ∈ ms -> removed m.1 = true -> m.1.rest = [] := fun m hm =>
      hrest m.1 (mem_map_of_mem hm)
    rw [thinned_eq hrest' hdrop]
    apply blocks_flatMap_items
    intro b hb
    obtain ⟨m, hm, hmb⟩ := mem_map.mp (mem_of_mem_filter hb)
    exact hmb ▸ hwf m hm

end Blocks
end FrpRs
