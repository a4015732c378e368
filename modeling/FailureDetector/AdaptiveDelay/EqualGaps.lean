import FailureDetector.AdaptiveDelay.RegularPeer

set_option relaxedAutoImplicit false
set_option autoImplicit false

/-!
# Heartbeats with equal gaps

Once the last heartbeats have come with equal gaps for long enough, the estimator has forgotten
what was before. After `W2_WINDOW_SIZE` equal gaps the average is the gap, and from then on all
normalised arrival times are the same. After as many again, nothing else is in the windows.

A peer that has been periodic from the beginning is estimated correctly much earlier. Only the
first sample is off, since it is normalised by `HEARTBEAT_INTERVAL` instead of a measured average.
It stays in each window until that has wrapped.

## Main results

* `FailureDetector.windowedAverage_of_gaps`, `FailureDetector.normalized_of_gaps` — the average
  and the normalised arrival times after equal gaps.
* `FailureDetector.recovery_after_any_history` — the timeout after `2 * W2_WINDOW_SIZE` equal gaps.
* `FailureDetector.periodic_peer_timeout` — the timeouts of a periodic peer from the start.
-/

namespace FailureDetector

open Finset

/-- The mean of a window of equal values. -/
lemma windowMean_const {a : ℕ → ℚ} {w k : ℕ} {c : ℚ} (hw : 1 ≤ w) (hk : 1 ≤ k)
    (h : ∀ i ∈ Ico (k + 1 - min k w) (k + 1), normalized a i = c) : windowMean a w k = c := by
  have hcard : (Ico (k + 1 - min k w) (k + 1)).card = min k w := by
    rw [Nat.card_Ico]
    omega
  have hne : ((min k w : ℕ) : ℚ) ≠ 0 := by
    have : min k w ≠ 0 := by omega
    exact_mod_cast this
  rw [windowMean, sum_congr rfl h, sum_const, hcard, nsmul_eq_mul]
  field_simp

section EqualGaps

variable {a : ℕ → ℚ} {P : ℚ} {b k : ℕ}
  (hgap : ∀ i, b ≤ i → i < k → a (i + 1) - a i = P)

include hgap

/-- The time elapsed over equal gaps. -/
lemma elapsed_of_gaps {j : ℕ} (hj : b + j ≤ k) : elapsed a (b + j) = elapsed a b + j * P := by
  induction j with
  | zero => simp
  | succ j ih =>
    have hstep := hgap (b + j) (by omega) (by omega)
    have hprev := ih (by omega)
    simp only [elapsed] at hprev ⊢
    rw [← add_assoc]
    push_cast
    linarith

/-- The same, by the number of the heartbeat. -/
lemma elapsed_of_gaps' {i : ℕ} (hb : b ≤ i) (hk : i ≤ k) :
    elapsed a i = elapsed a b + (i - b) * P := by
  obtain ⟨j, rfl⟩ := Nat.exists_eq_add_of_le hb
  rw [elapsed_of_gaps hgap hk]
  push_cast
  ring

/-- **The average after equal gaps** in the whole window is the gap. -/
lemma windowedAverage_of_gaps {i : ℕ} (hpos : 1 ≤ i) (hk : i ≤ k)
    (hb : b ≤ i - min i w2WindowSize) : windowedAverage a i = P := by
  have hw : 1 ≤ w2WindowSize := by decide
  have hne : ((min i w2WindowSize : ℕ) : ℚ) ≠ 0 := by
    have : min i w2WindowSize ≠ 0 := by omega
    exact_mod_cast this
  have hi := elapsed_of_gaps' hgap (i := i) (by omega) hk
  have hstart := elapsed_of_gaps' hgap hb (by omega)
  rw [Nat.cast_sub (min_le_left _ _)] at hstart
  rw [windowedAverage, if_neg (by omega), hi, hstart, div_eq_iff hne]
  ring

/-- **The normalised arrival time after equal gaps** does not depend on the heartbeat any more. -/
lemma normalized_of_gaps {i : ℕ} (hpos : 2 ≤ i) (hk : i ≤ k)
    (hb : b ≤ i - 1 - min (i - 1) w2WindowSize) :
    normalized a i = elapsed a b - b * P := by
  have havg := windowedAverage_of_gaps hgap (i := i - 1) (by omega) (by omega) hb
  rw [normalized, havg, elapsed_of_gaps' hgap (by omega) hk]
  ring

end EqualGaps

/-- **Recovery after any history.** If the last `2 * W2_WINDOW_SIZE` gaps before a heartbeat are
equal, the timeout after it is the gap plus the safety margin, whatever happened earlier.

**Proof sketch.** The normalised arrival times in both windows were computed with averages over
equal gaps only, so they are the same and their means are equal. -/
theorem recovery_after_any_history (mem : UnsetTimeoutMemory) (a : ℕ → ℚ) (P : ℚ) (k : ℕ)
    (hk : 2 * w2WindowSize ≤ k)
    (hgap : ∀ i, k - 2 * w2WindowSize ≤ i → i < k → a (i + 1) - a i = P) :
    (feed mem a (k + 1)).nextTimeout = P + heartbeatInterval := by
  have hw₁ : 1 ≤ w1WindowSize := by decide
  have hw₂ : w1WindowSize ≤ w2WindowSize := by decide
  set b := k - 2 * w2WindowSize with hb
  have hmean : ∀ w, 1 ≤ w → w ≤ w2WindowSize → windowMean a w k = elapsed a b - b * P := by
    intro w hw hle
    refine windowMean_const hw (by omega) ?_
    intro i hi
    rw [mem_Ico] at hi
    exact normalized_of_gaps hgap (by omega) (by omega) (by omega)
  have havg : windowedAverage a k = P :=
    windowedAverage_of_gaps hgap (by omega) le_rfl (by omega)
  rw [(feed_windowed mem a (by omega)).2.2, windowedArrival, windowedArrival,
    hmean w1WindowSize hw₁ hw₂, hmean w2WindowSize (by omega) le_rfl, max_self, havg,
    elapsed_of_gaps' hgap (by omega) le_rfl]
  ring

/-- A peer that is silent for a second before its heartbeats come every `60` ms. -/
theorem recovery_after_any_history_pause :
    (feed ⟨0, 0, 0, 0, 0⟩ (fun i => if i = 0 then 0 else 1000 + 60 * i) 30001).nextTimeout =
      60 + heartbeatInterval := by
  refine recovery_after_any_history ⟨0, 0, 0, 0, 0⟩ _ 60 30000 (by decide) ?_
  intro i hlow _
  have hi : i ≠ 0 := by
    rintro rfl
    exact absurd hlow (by decide)
  simp only [Nat.add_eq_zero_iff, one_ne_zero, and_false, if_false, if_neg hi]
  push_cast
  ring

/-! ### A periodic peer from the start -/

section Periodic

variable {a₀ P : ℚ}

/-- The gaps of a periodic peer. -/
lemma periodic_gap (a₀ P : ℚ) (k i : ℕ) (_hb : 0 ≤ i) (_hk : i < k) :
    (a₀ + (i + 1 : ℕ) * P) - (a₀ + i * P) = P := by
  push_cast
  ring

/-- The time elapsed is a number of periods. -/
lemma elapsed_periodic (i : ℕ) : elapsed (fun i : ℕ => a₀ + i * P) i = i * P := by
  simp [elapsed]

/-- The average is the period. -/
lemma windowedAverage_periodic {i : ℕ} (hi : 1 ≤ i) :
    windowedAverage (fun i : ℕ => a₀ + i * P) i = P :=
  windowedAverage_of_gaps (periodic_gap a₀ P i) hi le_rfl (Nat.zero_le _)

/-- The first sample is normalised by the hard-coded interval. -/
lemma normalized_periodic_one :
    normalized (fun i : ℕ => a₀ + i * P) 1 = P - heartbeatInterval := by
  rw [normalized, elapsed_periodic, Nat.sub_self, windowedAverage, if_pos rfl]
  push_cast
  ring

/-- All later samples are zero. -/
lemma normalized_periodic {i : ℕ} (hi : 2 ≤ i) :
    normalized (fun i : ℕ => a₀ + i * P) i = 0 := by
  rw [normalized_of_gaps (periodic_gap a₀ P i) hi le_rfl (Nat.zero_le _)]
  simp

/-- **The mean of a window** that has not wrapped contains the first sample. -/
lemma windowMean_periodic_of_le {w k : ℕ} (hk : 1 ≤ k) (hkw : k ≤ w) :
    windowMean (fun i : ℕ => a₀ + i * P) w k = (P - heartbeatInterval) / k := by
  have hrest : ∑ i ∈ Ico 2 (k + 1), normalized (fun i : ℕ => a₀ + i * P) i = 0 := by
    refine sum_eq_zero ?_
    intro i hi
    exact normalized_periodic (mem_Ico.mp hi).1
  rw [windowMean, min_eq_left hkw, show k + 1 - k = 1 by omega,
    sum_eq_sum_Ico_succ_bot (by omega), hrest, normalized_periodic_one, add_zero]

/-- **The mean of a window** that has wrapped is zero. -/
lemma windowMean_periodic_of_lt {w k : ℕ} (hw : 1 ≤ w) (hwk : w < k) :
    windowMean (fun i : ℕ => a₀ + i * P) w k = 0 := by
  refine windowMean_const hw (by omega) ?_
  intro i hi
  rw [mem_Ico] at hi
  exact normalized_periodic (by omega)

/-- The timeout of a periodic peer, by the means of the windows. -/
lemma nextTimeout_periodic (mem : UnsetTimeoutMemory) {k : ℕ} (hk : 1 ≤ k) :
    (feed mem (fun i : ℕ => a₀ + i * P) (k + 1)).nextTimeout =
      P + heartbeatInterval + max (windowMean (fun i : ℕ => a₀ + i * P) w1WindowSize k)
        (windowMean (fun i : ℕ => a₀ + i * P) w2WindowSize k) := by
  rw [(feed_windowed mem _ hk).2.2, windowedArrival, windowedArrival, windowedAverage_periodic hk,
    elapsed_periodic, max_add_add_right]
  ring

/-- The first sample takes at most its share of a heartbeat interval from the timeout. -/
lemma sub_div_le_nextTimeout_periodic (mem : UnsetTimeoutMemory) (hP : 0 < P) {k : ℕ}
    (hk : 1 ≤ k) : P + heartbeatInterval - heartbeatInterval / k ≤
      (feed mem (fun i : ℕ => a₀ + i * P) (k + 1)).nextTimeout := by
  have hint : (0 : ℚ) < heartbeatInterval := by norm_num [heartbeatInterval]
  have hq : (0 : ℚ) < k := by exact_mod_cast hk
  have hmean : -(heartbeatInterval / k) ≤
      windowMean (fun i : ℕ => a₀ + i * P) w2WindowSize k := by
    rcases Nat.lt_or_ge w2WindowSize k with h | h
    · rw [windowMean_periodic_of_lt (by decide) h]
      linarith [div_pos hint hq]
    · rw [windowMean_periodic_of_le hk h, sub_div]
      linarith [div_pos hP hq]
  have hmax := le_max_right (windowMean (fun i : ℕ => a₀ + i * P) w1WindowSize k)
    (windowMean (fun i : ℕ => a₀ + i * P) w2WindowSize k)
  rw [nextTimeout_periodic mem hk]
  linarith

/-- **The timeout of a periodic peer** is not below its period. -/
lemma le_nextTimeout_periodic (mem : UnsetTimeoutMemory) (hP : 0 < P) {k : ℕ} (hk : 1 ≤ k) :
    P ≤ (feed mem (fun i : ℕ => a₀ + i * P) (k + 1)).nextTimeout := by
  have hq : (1 : ℚ) ≤ k := by exact_mod_cast hk
  have hint : (0 : ℚ) ≤ heartbeatInterval := by norm_num [heartbeatInterval]
  have hshare : heartbeatInterval / k ≤ heartbeatInterval := div_le_self hint hq
  have hfirst : P + heartbeatInterval - heartbeatInterval / k ≤
      (feed mem (fun i : ℕ => a₀ + i * P) (k + 1)).nextTimeout :=
    sub_div_le_nextTimeout_periodic mem hP hk
  linarith

end Periodic

/-- **A periodic peer from the start.** The timeout after heartbeat `k ≥ 1` of a peer with period
`P` is `P` plus the safety margin, up to the share of the first sample in the windows that have
not wrapped. It is never below `P`: the next heartbeat arrives before the freshness point.

**Proof sketch.** The average is `P` from the second heartbeat on, so all samples but the first
are zero, and that one is `P - HEARTBEAT_INTERVAL`. -/
theorem periodic_peer_timeout (mem : UnsetTimeoutMemory) (a₀ P : ℚ) (hP : 0 < P) (k : ℕ)
    (hk : 1 ≤ k) :
    let m := feed mem (fun i : ℕ => a₀ + i * P) (k + 1)
    (k ≤ w1WindowSize →
      m.nextTimeout = P + heartbeatInterval + (P - heartbeatInterval) / k) ∧
    (w1WindowSize < k → k ≤ w2WindowSize →
      m.nextTimeout = P + heartbeatInterval + max 0 ((P - heartbeatInterval) / k)) ∧
    (w2WindowSize < k → m.nextTimeout = P + heartbeatInterval) ∧
    P ≤ m.nextTimeout ∧ elapsed (fun i : ℕ => a₀ + i * P) (k + 1) ≤ m.freshnessPoint := by
  intro m
  have hw₁ : 1 ≤ w1WindowSize := by decide
  have hw₂ : w1WindowSize ≤ w2WindowSize := by decide
  have hnext : m.nextTimeout =
      P + heartbeatInterval + max (windowMean (fun i : ℕ => a₀ + i * P) w1WindowSize k)
        (windowMean (fun i : ℕ => a₀ + i * P) w2WindowSize k) := nextTimeout_periodic mem hk
  have hsmall : k ≤ w1WindowSize →
      m.nextTimeout = P + heartbeatInterval + (P - heartbeatInterval) / k := by
    intro h
    rw [hnext, windowMean_periodic_of_le hk h, windowMean_periodic_of_le hk (h.trans hw₂), max_self]
  have hmiddle : w1WindowSize < k → k ≤ w2WindowSize →
      m.nextTimeout = P + heartbeatInterval + max 0 ((P - heartbeatInterval) / k) := by
    intro h h'
    rw [hnext, windowMean_periodic_of_lt hw₁ h, windowMean_periodic_of_le hk h']
  have hlarge : w2WindowSize < k → m.nextTimeout = P + heartbeatInterval := by
    intro h
    rw [hnext, windowMean_periodic_of_lt hw₁ (by omega), windowMean_periodic_of_lt (by omega) h,
      max_self, add_zero]
  have hle : P ≤ m.nextTimeout := le_nextTimeout_periodic mem hP hk
  refine ⟨hsmall, hmiddle, hlarge, hle, ?_⟩
  rw [feed_freshnessPoint, elapsed_periodic, elapsed_periodic]
  push_cast
  linarith

/-- A peer with a heartbeat every `10` ms, after its second one. -/
theorem periodic_peer_timeout_ten :
    (feed ⟨0, 0, 0, 0, 0⟩ (fun i : ℕ => 0 + i * 10) 2).nextTimeout =
      10 + heartbeatInterval + (10 - heartbeatInterval) / (1 : ℕ) :=
  (periodic_peer_timeout ⟨0, 0, 0, 0, 0⟩ 0 10 (by norm_num) 1 le_rfl).1 (by decide)

end FailureDetector
