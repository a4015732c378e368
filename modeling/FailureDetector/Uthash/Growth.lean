import FailureDetector.Uthash.Buckets
import Mathlib.Algebra.BigOperators.Group.Finset.Basic
import Mathlib.Algebra.BigOperators.Ring.Finset
import Mathlib.Algebra.Order.BigOperators.Group.Finset

set_option relaxedAutoImplicit false
set_option autoImplicit false

/-!
# The growth of a table

The number of buckets is doubled when an element is added to a bucket that has reached its
threshold, unless expansion has been inhibited. The threshold of a bucket is ten times its
multiplier plus one, and the multipliers are set by the last expansion, from the ratio of the
bucket's length to the ideal one. The sum of the multipliers is then at most the number of buckets.
So there are never more than twenty elements for each bucket, the ideal length at an expansion is at
most ten, and no bucket is above its threshold afterwards.

## Main definitions

* `FailureDetector.Bounded` — no bucket is above its threshold, and the thresholds are small on
  average.

## Main results

* `FailureDetector.idealChainMaxlen_eq` — the ideal length is the number of elements for each
  bucket, rounded up.
* `FailureDetector.Bounded.length_lt` — there are fewer than twenty elements for each bucket.
* `FailureDetector.Bounded.push`, `FailureDetector.Bounded.pop`, `FailureDetector.Bounded.expand` —
  adding and deleting an element and expanding the buckets keep the bound.
-/

namespace FailureDetector

open DoublyLinked

variable {ι : Type*} {hashv : ι → UInt32} {n k ideal : ℕ} {buckets : ℕ → UtHashBucket ι}
  {bkt : Links ι} {chains : ℕ → List ι} {l : List ι}

/-- **The ideal length of a bucket** is the number of elements for each bucket of the new array,
rounded up. -/
lemma idealChainMaxlen_eq (hn : n = 2 ^ k) (numItems : ℕ) :
    ((numItems >>> (k + 1)) + if numItems &&& (n * 2 - 1) ≠ 0 then 1 else 0) =
      (numItems + (n * 2 - 1)) / (n * 2) := by
  have hpow : n * 2 = 2 ^ (k + 1) := by rw [hn, pow_succ]
  have hpos : 0 < n * 2 := hpow ▸ Nat.two_pow_pos (k + 1)
  rw [Nat.shiftRight_eq_div_pow, hpow, Nat.and_two_pow_sub_one_eq_mod, ← hpow]
  generalize n * 2 = m at hpos
  have hdiv := Nat.div_add_mod numItems m
  have hmod := Nat.mod_lt numItems hpos
  generalize hq : numItems / m = q at *
  generalize hr : numItems % m = r at *
  symm
  split
  · rw [Nat.div_eq_iff hpos, Nat.mul_comm, Nat.mul_add]
    omega
  · rw [Nat.div_eq_iff hpos, Nat.mul_comm, Nat.add_zero]
    omega

/-- The first `n` buckets are not above their thresholds, and the sum of their multipliers is at
most `n`. A bucket may have reached its threshold only right after an expansion, when it is as long
as all the others. -/
structure Bounded (n : ℕ) (buckets : ℕ → UtHashBucket ι) : Prop where
  count : ∀ i, (buckets i).count < ((buckets i).expandMult + 1) * hashBktCapacityThresh ∨
    ((buckets i).count = hashBktCapacityThresh ∧ (buckets i).expandMult = 0)
  expandMult : ∑ i ∈ Finset.range n, (buckets i).expandMult ≤ n

/-- The buckets count every element once. -/
lemma Chained.sum_range_count (h : Chained hashv n buckets bkt {x | x ∈ l} chains) (hn : n = 2 ^ k)
    (hl : l.Nodup) : ∑ i ∈ Finset.range n, (buckets i).count = l.length :=
  h.sum_count hn hl

namespace Bounded

/-- Cleared buckets. -/
lemma zero : Bounded n (fun _ => UtHashBucket.zero ι) :=
  ⟨fun _ => Or.inl (by simp [UtHashBucket.zero, hashBktCapacityThresh]),
    by simp [UtHashBucket.zero]⟩

/-- No bucket is longer than its threshold. -/
lemma count_le (h : Bounded n buckets) (i : ℕ) :
    (buckets i).count ≤ ((buckets i).expandMult + 1) * hashBktCapacityThresh := by
  rcases h.count i with hlt | ⟨heq, hmult⟩
  · exact hlt.le
  · rw [heq, hmult]
    omega

/-- **There are fewer than twenty elements for each bucket.**

**Proof sketch.** The thresholds add up to at most twenty for each bucket. They are all reached only
where no bucket has a multiplier, and then they add up to half of that. -/
lemma length_lt (h : Bounded n buckets) (hpos : 0 < n) :
    ∑ i ∈ Finset.range n, (buckets i).count < 2 * hashBktCapacityThresh * n := by
  have hmults := h.expandMult
  have hthresholds : ∑ i ∈ Finset.range n, ((buckets i).expandMult + 1) * hashBktCapacityThresh =
      (∑ i ∈ Finset.range n, (buckets i).expandMult + n) * hashBktCapacityThresh := by
    rw [← Finset.sum_mul, Finset.sum_add_distrib, Finset.sum_const, Finset.card_range, nsmul_one,
      Nat.cast_id]
  have hle := Finset.sum_le_sum fun i (_ : i ∈ Finset.range n) => h.count_le i
  rw [hthresholds] at hle
  rcases Nat.eq_zero_or_pos (∑ i ∈ Finset.range n, (buckets i).expandMult) with hzero | hmult
  · rw [hzero] at hle
    unfold hashBktCapacityThresh at hle ⊢
    omega
  · obtain ⟨i, hi, hne⟩ := Finset.exists_ne_zero_of_sum_ne_zero hmult.ne'
    have hlt := Finset.sum_lt_sum (fun i (_ : i ∈ Finset.range n) => h.count_le i)
      ⟨i, hi, (h.count i).resolve_right fun hright => hne hright.2⟩
    rw [hthresholds] at hlt
    unfold hashBktCapacityThresh at hlt ⊢
    omega

/-- Adding an element to a bucket that does not reach its threshold. -/
lemma push (h : Bounded n buckets) {j : ℕ} {b : UtHashBucket ι}
    (hmult : b.expandMult = (buckets j).expandMult)
    (hcount : b.count < (b.expandMult + 1) * hashBktCapacityThresh) :
    Bounded n (Function.update buckets j b) := by
  refine ⟨fun i => ?_, ?_⟩
  · by_cases hi : i = j
    · subst hi
      rw [Function.update_self]
      exact Or.inl hcount
    · rw [Function.update_of_ne hi]
      exact h.count i
  · refine le_trans (Finset.sum_le_sum fun i _ => ?_) h.expandMult
    by_cases hi : i = j
    · subst hi
      rw [Function.update_self, hmult]
    · rw [Function.update_of_ne hi]

/-- Taking an element out of a bucket. -/
lemma pop (h : Bounded n buckets) {j : ℕ} {b : UtHashBucket ι}
    (hmult : b.expandMult = (buckets j).expandMult) (hcount : b.count = (buckets j).count - 1) :
    Bounded n (Function.update buckets j b) := by
  apply h.push hmult
  have hle := h.count_le j
  have hthresh : 0 < (b.expandMult + 1) * hashBktCapacityThresh := by
    unfold hashBktCapacityThresh
    omega
  rw [← hmult] at hle
  omega

/-- **An expansion restores the bound**, where there were at most twenty elements for each old
bucket. -/
lemma expand {done : Set ι} {e : Expansion ι} (h : Expanded hashv n ideal bkt done e)
    {numItems : ℕ} (hsum : ∑ i ∈ Finset.range n, (e.newBuckets i).count = numItems)
    (hideal : ideal = (numItems + (n - 1)) / n) (hpos : 0 < n) (hitems : 0 < numItems)
    (hle : numItems ≤ hashBktCapacityThresh * n) : Bounded n e.newBuckets := by
  have hideal_pos : 0 < ideal := by
    rw [hideal]
    apply Nat.div_pos _ hpos
    omega
  have hideal_le : ideal ≤ hashBktCapacityThresh := by
    rw [hideal, ← Nat.lt_succ_iff, Nat.div_lt_iff_lt_mul hpos, Nat.succ_mul]
    omega
  have hitems_le : numItems ≤ ideal * n := by
    have hlt := Nat.lt_div_mul_add hpos (a := numItems + (n - 1))
    rw [← hideal] at hlt
    omega
  refine ⟨fun i => ?_, ?_⟩
  · rw [h.expandMult]
    split
    · left
      have hlt := Nat.lt_div_mul_add hideal_pos (a := (e.newBuckets i).count)
      calc (e.newBuckets i).count < ((e.newBuckets i).count / ideal + 1) * ideal := by
            rw [Nat.add_mul, one_mul]
            exact hlt
        _ ≤ ((e.newBuckets i).count / ideal + 1) * hashBktCapacityThresh :=
            Nat.mul_le_mul_left _ hideal_le
    · rw [zero_add, one_mul]
      omega
  · calc ∑ i ∈ Finset.range n, (e.newBuckets i).expandMult
        ≤ ∑ i ∈ Finset.range n, (e.newBuckets i).count / ideal := by
          refine Finset.sum_le_sum fun i _ => ?_
          rw [h.expandMult]
          split
          · exact le_rfl
          · exact Nat.zero_le _
      _ ≤ (∑ i ∈ Finset.range n, (e.newBuckets i).count) / ideal := by
          rw [Nat.le_div_iff_mul_le hideal_pos, Finset.sum_mul]
          exact Finset.sum_le_sum fun i _ => Nat.div_mul_le_self _ _
      _ ≤ n := by
          rw [hsum]
          apply Nat.div_le_of_le_mul
          exact hitems_le

end Bounded

end FailureDetector
