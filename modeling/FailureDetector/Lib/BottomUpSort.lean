import Mathlib.Data.List.Basic
import Mathlib.Data.List.Sort

set_option relaxedAutoImplicit false
set_option autoImplicit false

/-!
# Bottom-up merge sort

A bottom-up merge sort merges neighbouring runs of a list in passes, and doubles the length of the
runs with every pass. For a total preorder it computes the stable sort of the list: the merge of the
sorts of two lists is the sort of both together, so that every run is the sort of its part of the
list.

## Main definitions

* `BottomUpSort.mergePass` — one pass.
* `BottomUpSort.sortRuns` — the list with each of its runs sorted.

## Main results

* `BottomUpSort.merge_mergeSort` — merging the sorts of two lists sorts both together.
* `BottomUpSort.mergePass_sortRuns` — a pass doubles the length of the sorted runs.
* `BottomUpSort.mergePass_perm` — a pass keeps the elements, for any comparison.
-/

namespace BottomUpSort

variable {α : Type*} (le : α → α → Bool) (k : ℕ)

/-- Merge neighbouring runs of `k` elements. -/
def mergePass (l : List α) : List α :=
  if k = 0 ∨ l = [] then l
  else (l.take k).merge ((l.drop k).take k) le ++ mergePass ((l.drop k).drop k)
termination_by l.length
decreasing_by
  rename_i h
  have hpos := List.length_pos_of_ne_nil (not_or.mp h).2
  simp only [List.length_drop]
  omega

/-- The list with each run of `k` elements sorted. -/
def sortRuns (l : List α) : List α :=
  if k = 0 ∨ l = [] then l else (l.take k).mergeSort le ++ sortRuns (l.drop k)
termination_by l.length
decreasing_by
  rename_i h
  have hpos := List.length_pos_of_ne_nil (not_or.mp h).2
  simp only [List.length_drop]
  omega

variable {le} {k} {l : List α}

/-- There is nothing to merge in an empty list. -/
@[simp] lemma mergePass_nil : mergePass le k [] = [] := by
  rw [mergePass, if_pos (Or.inr rfl)]

/-- There is nothing to sort in an empty list. -/
@[simp] lemma sortRuns_nil : sortRuns le k [] = [] := by
  rw [sortRuns, if_pos (Or.inr rfl)]

/-- A pass merges the first two runs and goes on behind them. -/
lemma mergePass_of_ne_nil (hk : 0 < k) (hl : l ≠ []) : mergePass le k l =
    (l.take k).merge ((l.drop k).take k) le ++ mergePass le k ((l.drop k).drop k) := by
  rw [mergePass, if_neg]
  rintro (h | h)
  · omega
  · exact hl h

/-- The first run is sorted, and so are those behind it. -/
lemma sortRuns_of_ne_nil (hk : 0 < k) (hl : l ≠ []) :
    sortRuns le k l = (l.take k).mergeSort le ++ sortRuns le k (l.drop k) := by
  rw [sortRuns, if_neg]
  rintro (h | h)
  · omega
  · exact hl h

/-- A single run. -/
lemma sortRuns_of_length_le (hl : l.length ≤ k) : sortRuns le k l = l.mergeSort le := by
  by_cases hnil : l = []
  · subst hnil
    simp
  · have hpos := List.length_pos_of_ne_nil hnil
    rw [sortRuns_of_ne_nil (by omega) hnil, List.take_of_length_le hl, List.drop_of_length_le hl,
      sortRuns_nil, List.append_nil]

/-- Runs of one element are sorted. -/
lemma sortRuns_one : sortRuns le 1 l = l := by
  induction l with
  | nil => exact sortRuns_nil
  | cons x l ih =>
    have hfirst : (x :: l).take 1 = [x] := rfl
    rw [sortRuns_of_ne_nil one_pos (List.cons_ne_nil x l), hfirst, List.drop_one, List.tail_cons,
      ih, List.mergeSort_singleton, List.singleton_append]

/-- Sorting the runs keeps the number of elements. -/
@[simp] lemma length_sortRuns : (sortRuns le k l).length = l.length := by
  induction l using sortRuns.induct k with
  | case1 l h => rw [sortRuns, if_pos h]
  | case2 l h ih =>
    rw [sortRuns, if_neg h, List.length_append, List.length_mergeSort, ih, List.length_take,
      List.length_drop]
    omega

/-- **A pass keeps the elements.** -/
lemma mergePass_perm : (mergePass le k l).Perm l := by
  induction l using mergePass.induct k with
  | case1 l h => rw [mergePass, if_pos h]
  | case2 l h ih =>
    rw [mergePass, if_neg h]
    have hrest : ((l.drop k).take k ++ mergePass le k ((l.drop k).drop k)).Perm (l.drop k) := by
      conv_rhs => rw [← List.take_append_drop k (l.drop k)]
      exact ih.append_left _
    conv_rhs => rw [← List.take_append_drop k l]
    refine ((List.merge_perm_append le).append_right _).trans ?_
    rw [List.append_assoc]
    exact hrest.append_left _

/-- The first run. -/
lemma take_sortRuns (hk : 0 < k) : (sortRuns le k l).take k = (l.take k).mergeSort le := by
  rcases Nat.lt_or_ge k l.length with hlt | hge
  · have hnil : l ≠ [] := List.ne_nil_of_length_pos (by omega)
    rw [sortRuns_of_ne_nil hk hnil, List.take_left']
    rw [List.length_mergeSort, List.length_take]
    omega
  · rw [sortRuns_of_length_le hge, List.take_of_length_le hge, List.take_of_length_le]
    rwa [List.length_mergeSort]

/-- The runs behind the first one. -/
lemma drop_sortRuns (hk : 0 < k) : (sortRuns le k l).drop k = sortRuns le k (l.drop k) := by
  rcases Nat.lt_or_ge k l.length with hlt | hge
  · have hnil : l ≠ [] := List.ne_nil_of_length_pos (by omega)
    rw [sortRuns_of_ne_nil hk hnil, List.drop_left']
    rw [List.length_mergeSort, List.length_take]
    omega
  · rw [List.drop_of_length_le (by rwa [length_sortRuns]), List.drop_of_length_le hge,
      sortRuns_nil]

/-- Numbered elements that come before each other are the same. -/
lemma zipIdxLE_antisymm {n : ℕ} {a b : α × ℕ} (ha : a ∈ l.zipIdx n) (hb : b ∈ l.zipIdx n)
    (hab : List.zipIdxLE le a b) (hba : List.zipIdxLE le b a) : a = b := by
  obtain ⟨a, i⟩ := a
  obtain ⟨b, j⟩ := b
  have hij : i = j := by
    simp only [List.zipIdxLE, Bool.if_false_right, Bool.if_true_right, Bool.and_eq_true,
      Bool.or_eq_true, Bool.not_eq_true', decide_eq_true_eq] at hab hba
    have hle := hab.2.resolve_left (by simp [hba.1])
    have hge := hba.2.resolve_left (by simp [hab.1])
    omega
  subst hij
  have hai := (List.mem_zipIdx ha).2.2
  have hbi := (List.mem_zipIdx hb).2.2
  rw [hai, hbi]

/-- Sorting a numbered list stably is sorting the list, whatever number it begins with. -/
lemma mergeSort_zipIdx_add (n : ℕ) :
    ((l.zipIdx n).mergeSort (List.zipIdxLE le)).map Prod.fst = l.mergeSort le := by
  have hshift : l.zipIdx n = l.zipIdx.map fun a => (a.1, n + a.2) := by
    rw [List.zipIdx_eq_map_add]
  rw [hshift, ← List.map_mergeSort (r := List.zipIdxLE le), List.map_map]
  · exact List.mergeSort_zipIdx
  · intro a _ b _
    simp [List.zipIdxLE]

section TotalPreorder

variable (trans : ∀ a b c, le a b → le b c → le a c) (total : ∀ a b, le a b || le b a)

include trans total

/-- **Merging the sorts of two lists sorts both together.**

**Proof sketch.** Number the elements, so that no two of them are equivalent. Then both sides are
sorted permutations of the same list, and merging forgets the numbers. -/
lemma merge_mergeSort (l₁ l₂ : List α) :
    (l₁.mergeSort le).merge (l₂.mergeSort le) le = (l₁ ++ l₂).mergeSort le := by
  have htrans := List.zipIdxLE_trans trans
  have htotal := List.zipIdxLE_total total
  have hnumbered : (l₁.zipIdx.mergeSort (List.zipIdxLE le)).merge
      ((l₂.zipIdx l₁.length).mergeSort (List.zipIdxLE le)) (List.zipIdxLE le) =
      (l₁ ++ l₂).zipIdx.mergeSort (List.zipIdxLE le) := by
    have hperm : ((l₁.zipIdx.mergeSort (List.zipIdxLE le)).merge
        ((l₂.zipIdx l₁.length).mergeSort (List.zipIdxLE le)) (List.zipIdxLE le)).Perm
        ((l₁ ++ l₂).zipIdx) := by
      rw [List.zipIdx_append, Nat.zero_add]
      exact (List.merge_perm_append _).trans
        ((List.mergeSort_perm _ _).append (List.mergeSort_perm _ _))
    apply @List.Perm.eq_of_pairwise _ fun a b => List.zipIdxLE le a b
    · intro a b ha hb
      exact zipIdxLE_antisymm (hperm.mem_iff.mp ha) (List.mem_mergeSort.mp hb)
    · exact List.pairwise_merge htrans htotal _ _ (List.pairwise_mergeSort htrans htotal _)
        (List.pairwise_mergeSort htrans htotal _)
    · exact List.pairwise_mergeSort htrans htotal _
    · exact hperm.trans (List.mergeSort_perm _ _).symm
  have hbefore : ∀ a b, a ∈ l₁.zipIdx.mergeSort (List.zipIdxLE le) →
      b ∈ (l₂.zipIdx l₁.length).mergeSort (List.zipIdxLE le) → a.2 ≤ b.2 := by
    rintro ⟨a, i⟩ ⟨b, j⟩ ha hb
    have hi := List.mem_zipIdx (List.mem_mergeSort.mp ha)
    have hj := List.mem_zipIdx (List.mem_mergeSort.mp hb)
    show i ≤ j
    omega
  have hforget := congrArg (List.map Prod.fst) hnumbered
  rw [List.merge_stable _ _ hbefore, List.mergeSort_zipIdx, List.mergeSort_zipIdx,
    mergeSort_zipIdx_add] at hforget
  exact hforget

/-- **A pass doubles the length of the sorted runs.** -/
lemma mergePass_sortRuns (hk : 0 < k) (l : List α) :
    mergePass le k (sortRuns le k l) = sortRuns le (k + k) l := by
  induction l using sortRuns.induct (k + k) with
  | case1 l h =>
    rcases h with h | rfl
    · omega
    · simp
  | case2 l h ih =>
    rw [not_or] at h
    have hruns : sortRuns le k l ≠ [] := by
      rw [← List.length_pos_iff, length_sortRuns]
      exact List.length_pos_of_ne_nil h.2
    rw [mergePass_of_ne_nil hk hruns, take_sortRuns hk, drop_sortRuns hk, take_sortRuns hk,
      drop_sortRuns hk, merge_mergeSort trans total, ← List.take_add, List.drop_drop, ih,
      sortRuns_of_ne_nil (by omega) h.2]

end TotalPreorder

end BottomUpSort
