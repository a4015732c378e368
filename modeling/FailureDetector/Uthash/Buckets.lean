import FailureDetector.Uthash.Model
import Mathlib.Algebra.Order.BigOperators.Group.List
import Mathlib.Data.List.Perm.Subperm
import Mathlib.Data.Set.Insert
import Mathlib.Order.Interval.Finset.Nat

set_option relaxedAutoImplicit false
set_option autoImplicit false

/-!
# Buckets

Every bucket of a table holds the linked list of the elements whose hash values lead to it. Adding
an element to its bucket and taking it out again keep that up, and so does the expansion of the
buckets, which moves every element to a bucket of a new array and never meets a link that it has
already overwritten.

## Main definitions

* `FailureDetector.Chained` — an array of buckets holds a set of elements.
* `FailureDetector.Expanded` — what an expansion has done so far.

## Main results

* `FailureDetector.Chained.push`, `FailureDetector.Chained.unlink` — adding an element to its bucket
  and taking it out.
* `FailureDetector.Chained.expand` — the loops of an expansion end, with all elements in the new
  buckets.
* `FailureDetector.Chained.sum_count` — the buckets count every element once.
-/

namespace FailureDetector

open CString DoublyLinked

variable {ι : Type*} {hashv : ι → UInt32} {n k : ℕ} {buckets : ℕ → UtHashBucket ι} {bkt : Links ι}
  {elems : Set ι} {chains : ℕ → List ι} {x y : ι}

/-- Hash values are taken modulo the number of buckets. -/
lemma hashToBkt_eq_mod (hn : n = 2 ^ k) (v : UInt32) : hashToBkt v n = v.toNat % n := by
  rw [hashToBkt, hn, Nat.and_two_pow_sub_one_eq_mod]

/-- Hash values lead to a bucket of the table. -/
lemma hashToBkt_lt (hn : n = 2 ^ k) (v : UInt32) : hashToBkt v n < n := by
  rw [hashToBkt_eq_mod hn]
  exact Nat.mod_lt _ (hn ▸ Nat.two_pow_pos k)

/-- The first `n` buckets hold the elements `elems`, each in the bucket of its hash value. The
buckets behind them are empty. -/
structure Chained (hashv : ι → UInt32) (n : ℕ) (buckets : ℕ → UtHashBucket ι) (bkt : Links ι)
    (elems : Set ι) (chains : ℕ → List ι) : Prop where
  linked : ∀ i, Linked bkt (chains i)
  head : ∀ i, (buckets i).hhHead = (chains i).head?
  count : ∀ i, (buckets i).count = (chains i).length
  mem : ∀ i x, x ∈ chains i ↔ x ∈ elems ∧ hashToBkt (hashv x) n = i

namespace Chained

/-- Cleared buckets hold no elements. -/
lemma empty : Chained hashv n (fun _ => UtHashBucket.zero ι) bkt ∅ fun _ => [] :=
  ⟨fun _ => Linked.nil, fun _ => rfl, fun _ => rfl, fun _ _ => by simp⟩

/-- An element is in at most one bucket. -/
lemma eq_of_mem (h : Chained hashv n buckets bkt elems chains) {i j : ℕ} (hi : x ∈ chains i)
    (hj : x ∈ chains j) : i = j :=
  ((h.mem i x).mp hi).2.symm.trans ((h.mem j x).mp hj).2

/-- The first element of a bucket is one of the elements. -/
lemma mem_of_head (h : Chained hashv n buckets bkt elems chains) {i : ℕ}
    (hx : (buckets i).hhHead = some x) : x ∈ chains i := by
  rw [h.head] at hx
  exact List.mem_of_mem_head? hx

/-- Changing hash values and links of other elements keeps the buckets. -/
lemma congr (h : Chained hashv n buckets bkt elems chains) {hashv' : ι → UInt32}
    (hsame : ∀ y ∈ elems, hashv' y = hashv y) :
    Chained hashv' n buckets bkt elems chains := by
  refine ⟨h.linked, h.head, h.count, fun i y => ?_⟩
  rw [h.mem]
  constructor
  · rintro ⟨hy, heq⟩
    exact ⟨hy, hsame y hy ▸ heq⟩
  · rintro ⟨hy, heq⟩
    exact ⟨hy, hsame y hy ▸ heq⟩

/-- All elements are in the first `n` buckets. -/
lemma elems_eq (h : Chained hashv n buckets bkt elems chains) (hn : n = 2 ^ k) :
    elems = {x | ∃ i ∈ List.range n, x ∈ chains i} := by
  ext x
  constructor
  · intro hx
    exact ⟨hashToBkt (hashv x) n, List.mem_range.mpr (hashToBkt_lt hn _), (h.mem _ x).mpr ⟨hx, rfl⟩⟩
  · rintro ⟨i, -, hx⟩
    exact ((h.mem i x).mp hx).1

/-- **The buckets count every element once.** -/
lemma sum_count {l : List ι} (h : Chained hashv n buckets bkt {x | x ∈ l} chains) (hn : n = 2 ^ k)
    (hl : l.Nodup) : ((List.range n).map fun i => (buckets i).count).sum = l.length := by
  have hnodup : ((List.range n).flatMap chains).Nodup := by
    rw [List.nodup_flatMap]
    refine ⟨fun i _ => (h.linked i).nodup, (List.nodup_range (n := n)).imp fun hij => ?_⟩
    exact fun x hi hj => hij (h.eq_of_mem hi hj)
  have hperm : ((List.range n).flatMap chains).Perm l := by
    rw [List.perm_ext_iff_of_nodup hnodup hl]
    intro x
    have hx := Set.ext_iff.mp (h.elems_eq hn) x
    rw [List.mem_flatMap]
    exact hx.symm
  rw [← hperm.length_eq, List.length_flatMap]
  simp only [h.count]

/-- A bucket holds at most as many elements as the table. -/
lemma length_le {l : List ι} (h : Chained hashv n buckets bkt {x | x ∈ l} chains) (i : ℕ) :
    (chains i).length ≤ l.length := by
  apply List.Subperm.length_le
  apply List.subperm_of_subset (h.linked i).nodup
  intro x hx
  exact ((h.mem i x).mp hx).1

variable [DecidableEq ι]

/-- **Adding an element to its bucket**, in front of those already there. -/
lemma push (h : Chained hashv n buckets bkt elems chains) (hx : x ∉ elems) {j : ℕ}
    (hj : hashToBkt (hashv x) n = j) {b : UtHashBucket ι} (hhead : b.hhHead = some x)
    (hcount : b.count = (buckets j).count + 1) :
    Chained hashv n (Function.update buckets j b) (bkt.pushFront (buckets j).hhHead x)
      (insert x elems) (Function.update chains j (x :: chains j)) := by
  have hfresh : ∀ i, x ∉ chains i := fun i hmem => hx ((h.mem i x).mp hmem).1
  refine ⟨fun i => ?_, fun i => ?_, fun i => ?_, fun i y => ?_⟩
  · by_cases hi : i = j
    · subst hi
      rw [Function.update_self, h.head]
      exact (h.linked i).pushFront (hfresh i)
    · rw [Function.update_of_ne hi]
      have hsame : ∀ y ∈ chains i, (bkt.pushFront (buckets j).hhHead x).next y = bkt.next y ∧
          (bkt.pushFront (buckets j).hhHead x).prev y = bkt.prev y := by
        intro y hy
        apply Links.pushFront_of_ne
        · rintro rfl
          exact hfresh i hy
        · intro heq
          exact hi (h.eq_of_mem hy (h.mem_of_head heq))
      exact (h.linked i).congr (fun y hy => (hsame y hy).1) fun y hy => (hsame y hy).2
  · by_cases hi : i = j
    · subst hi
      rw [Function.update_self, Function.update_self, hhead, List.head?_cons]
    · rw [Function.update_of_ne hi, Function.update_of_ne hi, h.head]
  · by_cases hi : i = j
    · subst hi
      rw [Function.update_self, Function.update_self, hcount, h.count, List.length_cons]
    · rw [Function.update_of_ne hi, Function.update_of_ne hi, h.count]
  · by_cases hi : i = j
    · subst hi
      rw [Function.update_self, List.mem_cons, h.mem, Set.mem_insert_iff]
      constructor
      · rintro (rfl | ⟨hy, heq⟩)
        · exact ⟨Or.inl rfl, hj⟩
        · exact ⟨Or.inr hy, heq⟩
      · rintro ⟨rfl | hy, heq⟩
        · exact Or.inl rfl
        · exact Or.inr ⟨hy, heq⟩
    · rw [Function.update_of_ne hi, h.mem, Set.mem_insert_iff]
      constructor
      · rintro ⟨hy, heq⟩
        exact ⟨Or.inr hy, heq⟩
      · rintro ⟨rfl | hy, heq⟩
        · exact absurd (heq.symm.trans hj) hi
        · exact ⟨hy, heq⟩

/-- **Taking an element out of its bucket.** -/
lemma unlink (h : Chained hashv n buckets bkt elems chains) (hx : x ∈ elems) {j : ℕ}
    (hj : hashToBkt (hashv x) n = j) {b : UtHashBucket ι}
    (hhead : b.hhHead = if (buckets j).hhHead = some x then bkt.next x else (buckets j).hhHead)
    (hcount : b.count = (buckets j).count - 1) :
    Chained hashv n (Function.update buckets j b) (bkt.unlink x) (elems \ {x})
      (Function.update chains j ((chains j).erase x)) := by
  have hmem : x ∈ chains j := (h.mem j x).mpr ⟨hx, hj⟩
  obtain ⟨l₁, l₂, hsplit⟩ := List.append_of_mem hmem
  have hlinked : Linked bkt (l₁ ++ x :: l₂) := hsplit ▸ h.linked j
  have hnodup := hlinked.nodup
  have hx₁ : x ∉ l₁ := fun hmem => (List.nodup_append.mp hnodup).2.2 x hmem x List.mem_cons_self rfl
  have herase : (chains j).erase x = l₁ ++ l₂ := by
    rw [hsplit, List.erase_append_right _ hx₁, List.erase_cons_head]
  have hself : bkt.prev x ≠ some x := by
    rw [hlinked.prev_eq]
    exact fun heq => hx₁ (List.mem_of_getLast? heq)
  have hother : ∀ i, i ≠ j → ∀ y ∈ chains i, (bkt.unlink x).next y = bkt.next y ∧
      (bkt.unlink x).prev y = bkt.prev y := by
    intro i hi y hy
    have hy' : y ∉ chains j := fun hmem => hi (h.eq_of_mem hy hmem)
    rw [hsplit, List.mem_append, List.mem_cons, not_or, not_or] at hy'
    apply Links.unlink_of_ne
    · rw [hlinked.prev_eq]
      exact fun heq => hy'.1 (List.mem_of_getLast? heq)
    · rw [hlinked.next_eq]
      exact fun heq => hy'.2.2 (List.mem_of_mem_head? heq)
    · exact hself
  refine ⟨fun i => ?_, fun i => ?_, fun i => ?_, fun i y => ?_⟩
  · by_cases hi : i = j
    · subst hi
      rw [Function.update_self, herase]
      exact hlinked.unlink
    · rw [Function.update_of_ne hi]
      exact (h.linked i).congr (fun y hy => (hother i hi y hy).1) fun y hy => (hother i hi y hy).2
  · by_cases hi : i = j
    · subst hi
      rw [Function.update_self, Function.update_self, hhead, h.head, herase, hlinked.next_eq,
        hsplit]
      cases l₁ with
      | nil => simp
      | cons y l₁ =>
        rw [if_neg]
        · simp
        · intro heq
          exact hx₁ (Option.some.inj heq ▸ List.mem_cons_self)
    · rw [Function.update_of_ne hi, Function.update_of_ne hi, h.head]
  · by_cases hi : i = j
    · subst hi
      rw [Function.update_self, Function.update_self, hcount, h.count,
        List.length_erase_of_mem hmem]
    · rw [Function.update_of_ne hi, Function.update_of_ne hi, h.count]
  · have hmem' : ∀ i, y ∈ Function.update chains j ((chains j).erase x) i ↔
        y ∈ chains i ∧ y ≠ x := by
      intro i
      by_cases hi : i = j
      · subst hi
        rw [Function.update_self, (h.linked i).nodup.mem_erase_iff, and_comm]
      · rw [Function.update_of_ne hi]
        refine ⟨fun hy => ⟨hy, ?_⟩, And.left⟩
        rintro rfl
        exact hi (h.eq_of_mem hy hmem)
    rw [hmem', h.mem, Set.mem_sdiff, Set.mem_singleton_iff]
    tauto

/-! ### Expansion -/

end Chained

variable [DecidableEq ι] {ideal : ℕ} {bkt₀ : Links ι} {done : Set ι} {e : Expansion ι}

omit [DecidableEq ι] in
/-- An expansion has moved the elements `done` to the new buckets. The other elements are still
linked as they were, and buckets that have become too long have been given a higher threshold. -/
structure Expanded (hashv : ι → UInt32) (n ideal : ℕ) (bkt₀ : Links ι) (done : Set ι)
    (e : Expansion ι) : Prop where
  chained : ∃ chains, Chained hashv n e.newBuckets e.bkt done chains
  next_eq : ∀ y, y ∉ done → e.bkt.next y = bkt₀.next y
  expandMult : ∀ i, (e.newBuckets i).expandMult =
    if (e.newBuckets i).count > ideal then (e.newBuckets i).count / ideal else 0

namespace Expanded

omit [DecidableEq ι] in
/-- Before the first element is moved. -/
lemma start : Expanded hashv n ideal bkt₀ ∅ ⟨fun _ => UtHashBucket.zero ι, 0, bkt₀⟩ :=
  ⟨⟨_, Chained.empty⟩, fun _ _ => rfl, fun _ => by simp [UtHashBucket.zero]⟩

/-- Moving one more element. -/
lemma item (h : Expanded hashv n ideal bkt₀ done e) (hx : x ∉ done) :
    Expanded hashv n ideal bkt₀ (insert x done) (expandItem hashv n ideal e x) := by
  obtain ⟨chains, hchained⟩ := h.chained
  refine ⟨⟨_, hchained.push hx rfl rfl rfl⟩, fun y hy => ?_, fun i => ?_⟩
  · rw [Set.mem_insert_iff, not_or] at hy
    rw [← h.next_eq y hy.2]
    exact Function.update_of_ne hy.1 _ _
  · by_cases hi : i = hashToBkt (hashv x) n
    · subst hi
      simp only [expandItem, Function.update_self, decide_eq_true_eq]
      split
      · rfl
      · next hle =>
        rw [h.expandMult, if_neg]
        omega
    · simp only [expandItem, Function.update_of_ne hi]
      exact h.expandMult i

/-- **Moving the elements of an old bucket.** The loop reads the links of an element before it is
moved, and moving it leaves the links of those behind it alone. -/
lemma chain (h : Expanded hashv n ideal bkt₀ done e) {rest : List ι}
    (hrest : Path bkt₀.next rest none) (hfresh : ∀ x ∈ rest, x ∉ done) {fuel : ℕ}
    (hfuel : rest.length ≤ fuel) :
    ∃ e', expandChain hashv n ideal fuel rest.head? e = some e' ∧
      Expanded hashv n ideal bkt₀ (done ∪ {x | x ∈ rest}) e' := by
  induction rest generalizing done e fuel with
  | nil =>
    refine ⟨e, by cases fuel <;> rfl, ?_⟩
    simpa using h
  | cons x rest ih =>
    obtain ⟨fuel, rfl⟩ := Nat.exists_eq_succ_of_ne_zero (Nat.ne_zero_of_lt hfuel)
    obtain ⟨hnext, hrest'⟩ := hrest
    have hnodup : (x :: rest).Nodup := Path.nodup ⟨hnext, hrest'⟩
    have hx := hfresh x List.mem_cons_self
    have hfresh' : ∀ y ∈ rest, y ∉ insert x done := by
      intro y hy hmem
      rcases Set.mem_insert_iff.mp hmem with rfl | hdone
      · exact (List.nodup_cons.mp hnodup).1 hy
      · exact hfresh y (List.mem_cons_of_mem _ hy) hdone
    obtain ⟨e', heq, he'⟩ := ih (h.item hx) hrest' hfresh' (Nat.le_of_succ_le_succ hfuel)
    refine ⟨e', ?_, ?_⟩
    · rw [List.head?_cons, expandChain, h.next_eq x hx, hnext, Option.or_none]
      exact heq
    · convert he' using 1
      ext y
      simp only [Set.mem_union, Set.mem_ofPred_eq, List.mem_cons, Set.mem_insert_iff]
      tauto

/-- **Moving the elements of several old buckets.** -/
lemma array (h : Expanded hashv n ideal bkt₀ done e) {old : ℕ → List ι}
    (hlinked : ∀ i, Linked bkt₀ (old i)) (hdisj : ∀ i j x, x ∈ old i → x ∈ old j → i = j)
    (hhead : ∀ i, (buckets i).hhHead = (old i).head?) {fuel : ℕ}
    (hfuel : ∀ i, (old i).length ≤ fuel) {is : List ℕ} (his : is.Nodup)
    (hfresh : ∀ i ∈ is, ∀ x ∈ old i, x ∉ done) :
    ∃ e', is.foldlM (fun e i => expandChain hashv n ideal fuel (buckets i).hhHead e) e = some e' ∧
      Expanded hashv n ideal bkt₀ (done ∪ {x | ∃ i ∈ is, x ∈ old i}) e' := by
  induction is generalizing done e with
  | nil =>
    refine ⟨e, rfl, ?_⟩
    simpa using h
  | cons i is ih =>
    rw [List.nodup_cons] at his
    obtain ⟨e₁, heq₁, he₁⟩ := h.chain (hlinked i).next (hfresh i List.mem_cons_self) (hfuel i)
    have hfresh' : ∀ j ∈ is, ∀ x ∈ old j, x ∉ done ∪ {x | x ∈ old i} := by
      rintro j hj x hx (hdone | hi)
      · exact hfresh j (List.mem_cons_of_mem _ hj) x hx hdone
      · exact his.1 (hdisj i j x hi hx ▸ hj)
    obtain ⟨e', heq, he'⟩ := ih he₁ his.2 hfresh'
    refine ⟨e', ?_, ?_⟩
    · rw [List.foldlM_cons, hhead, heq₁]
      exact heq
    · convert he' using 1
      ext x
      simp only [Set.mem_union, Set.mem_ofPred_eq, List.mem_cons, exists_eq_or_imp]
      tauto

end Expanded

/-- **The loops of an expansion end, with all elements in the new buckets.** -/
lemma Chained.expand {l : List ι} (h : Chained hashv n buckets bkt {x | x ∈ l} chains)
    (hn : n = 2 ^ k) (n' ideal : ℕ) {fuel : ℕ} (hfuel : l.length ≤ fuel) :
    ∃ e, (List.range n).foldlM (fun e i => expandChain hashv n' ideal fuel (buckets i).hhHead e)
        ⟨fun _ => UtHashBucket.zero ι, 0, bkt⟩ = some e ∧
      Expanded hashv n' ideal bkt {x | x ∈ l} e := by
  have hstart : Expanded hashv n' ideal bkt ∅ ⟨fun _ => UtHashBucket.zero ι, 0, bkt⟩ :=
    Expanded.start
  obtain ⟨e, heq, he⟩ := hstart.array h.linked (fun _ _ _ hi hj => h.eq_of_mem hi hj) h.head
    (fun i => (h.length_le i).trans hfuel) (List.nodup_range (n := n)) (by simp)
  refine ⟨e, heq, ?_⟩
  convert he using 1
  rw [Set.empty_union]
  exact h.elems_eq hn

end FailureDetector
