import Mathlib.Algebra.Order.BigOperators.Group.Finset
import Mathlib.Tactic.FieldSimp
import FailureDetector.AdaptiveDelay.WindowedEstimate

set_option relaxedAutoImplicit false
set_option autoImplicit false

/-!
# Peers with regular heartbeats

A peer whose heartbeats come between `L` and `U` milliseconds apart, with
`L ≤ HEARTBEAT_INTERVAL ≤ U`, is not suspected as long as the spread `U - L` is at most half the
heartbeat interval and the large window has not wrapped. Up to then the normalised arrival time
of a heartbeat is its interval minus an average interval, so it is at least `L - U`, and the
timeout is at least `2 * L - U + HEARTBEAT_INTERVAL`.

The bound on the sequence number is sharp. The estimate multiplies the average by the absolute
index of the next heartbeat; once intervals leave the window, that product no longer follows the
elapsed time, and at the first heartbeat after the wrap a single slow interval at start-up is
enough to make the timeout too short.

## Main results

* `FailureDetector.normalized_eq_sub` — the normalised arrival times before the wrap.
* `FailureDetector.regular_peer_not_suspected` — the timeout is long enough before the wrap.
* `FailureDetector.regular_peer_suspected_after_wrap` — and may be too short right after it.
-/

namespace FailureDetector

open Finset

/-! ## Before the large window wraps -/

section BeforeWrap

variable {a : ℕ → ℚ}

/-- Up to the wrap the average is the elapsed time over the number of intervals. -/
lemma elapsed_eq_mul_average {i : ℕ} (hi : i ≤ w2WindowSize) :
    elapsed a i = i * windowedAverage a i := by
  rcases Nat.eq_zero_or_pos i with rfl | hpos
  · simp
  · have hq : (i : ℚ) ≠ 0 := by exact_mod_cast hpos.ne'
    rw [windowedAverage, if_neg hpos.ne', min_eq_left hi, Nat.sub_self, elapsed_zero, sub_zero]
    field_simp

/-- Up to the wrap, and for one heartbeat after it, the normalised arrival time is the interval
before the heartbeat minus the average in force. -/
lemma normalized_eq_sub {i : ℕ} (hpos : 1 ≤ i) (hi : i ≤ w2WindowSize + 1) :
    normalized a i = timeDelta a i - windowedAverage a (i - 1) := by
  have hprev : elapsed a (i - 1) = ((i - 1 : ℕ) : ℚ) * windowedAverage a (i - 1) :=
    elapsed_eq_mul_average (by omega)
  rw [Nat.cast_sub hpos, Nat.cast_one] at hprev
  rw [normalized, timeDelta, hprev]
  ring

variable {L U : ℚ} (hgap : ∀ i, L ≤ a (i + 1) - a i ∧ a (i + 1) - a i ≤ U)

include hgap

/-- Every interval but the empty one before the first heartbeat is between `L` and `U`. -/
lemma timeDelta_mem {i : ℕ} (hi : 1 ≤ i) : L ≤ timeDelta a i ∧ timeDelta a i ≤ U := by
  obtain ⟨j, rfl⟩ : ∃ j, i = j + 1 := ⟨i - 1, by omega⟩
  have h : timeDelta a (j + 1) = a (j + 1) - a j := by
    simp only [timeDelta, elapsed, Nat.add_sub_cancel]
    ring
  rw [h]
  exact hgap j

/-- The elapsed time is between `i` times `L` and `i` times `U`. -/
lemma elapsed_mem (i : ℕ) : i * L ≤ elapsed a i ∧ elapsed a i ≤ i * U := by
  induction i with
  | zero => simp
  | succ i ih =>
    have hstep : elapsed a (i + 1) = elapsed a i + timeDelta a (i + 1) := by simp [timeDelta]
    have hd := timeDelta_mem hgap (i := i + 1) (by omega)
    rw [hstep]
    push_cast
    constructor <;> linarith [ih.1, ih.2, hd.1, hd.2]

/-- Up to the wrap the average is between `L` and `U`, given that the assumed first one is. -/
lemma windowedAverage_mem (hL : L ≤ heartbeatInterval) (hU : heartbeatInterval ≤ U) {i : ℕ}
    (hi : i ≤ w2WindowSize) : L ≤ windowedAverage a i ∧ windowedAverage a i ≤ U := by
  rcases Nat.eq_zero_or_pos i with rfl | hpos
  · exact ⟨hL, hU⟩
  · have hq : (0 : ℚ) < i := by exact_mod_cast hpos
    obtain ⟨hlow, hhigh⟩ := elapsed_mem hgap i
    rw [elapsed_eq_mul_average hi] at hlow hhigh
    exact ⟨le_of_mul_le_mul_left hlow hq, le_of_mul_le_mul_left hhigh hq⟩

/-- Up to the wrap a normalised arrival time is at least `L - U`. -/
lemma sub_le_normalized (hL : L ≤ heartbeatInterval) (hU : heartbeatInterval ≤ U) {i : ℕ}
    (hpos : 1 ≤ i) (hi : i ≤ w2WindowSize) : L - U ≤ normalized a i := by
  have hd := (timeDelta_mem hgap hpos).1
  have havg := (windowedAverage_mem hgap hL hU (i := i - 1) (by omega)).2
  rw [normalized_eq_sub hpos (by omega)]
  linarith

end BeforeWrap

/-- A common lower bound of the values in a window bounds their mean. -/
lemma le_windowMean {a : ℕ → ℚ} {w k : ℕ} {c : ℚ} (hw : 1 ≤ w) (hk : 1 ≤ k)
    (h : ∀ i ∈ Ico (k + 1 - min k w) (k + 1), c ≤ normalized a i) : c ≤ windowMean a w k := by
  have hcard : (Ico (k + 1 - min k w) (k + 1)).card = min k w := by
    rw [Nat.card_Ico]
    omega
  have hpos : (0 : ℚ) < (min k w : ℕ) := by exact_mod_cast lt_min hk hw
  rw [windowMean, le_div_iff₀ hpos]
  calc c * (min k w : ℕ) = ∑ _i ∈ Ico (k + 1 - min k w) (k + 1), c := by
        rw [sum_const, hcard, nsmul_eq_mul, mul_comm]
    _ ≤ ∑ i ∈ Ico (k + 1 - min k w) (k + 1), normalized a i := sum_le_sum h

/-- **A regular peer is not suspected before the large window wraps.** If consecutive heartbeats
are between `L` and `U` apart, then up to heartbeat `W2_WINDOW_SIZE` the timeout armed at a
heartbeat is at least `U`.

**Proof sketch.** At the first heartbeat the timeout is twice the heartbeat interval. After it,
the mean of the large window is at least `L - U` by `sub_le_normalized`, and the elapsed time is
`k` times the average, so `k + 1` averages exceed it by one average, which is at least `L`. -/
theorem regular_peer_not_suspected (mem : UnsetTimeoutMemory) (L U : ℚ) (a : ℕ → ℚ)
    (_hL0 : 0 < L) (hL : L ≤ heartbeatInterval) (hU : heartbeatInterval ≤ U)
    (hspread : U - L ≤ heartbeatInterval / 2)
    (hgap : ∀ i, L ≤ a (i + 1) - a i ∧ a (i + 1) - a i ≤ U) (k : ℕ) (hk : k ≤ w2WindowSize) :
    U ≤ (feed mem a (k + 1)).nextTimeout := by
  rcases Nat.eq_zero_or_pos k with rfl | hpos
  · rw [feed_one_nextTimeout]
    have : (0 : ℚ) ≤ heartbeatInterval := by norm_num [heartbeatInterval]
    linarith
  · have hmean : L - U ≤ windowMean a w2WindowSize k := by
      refine le_windowMean (by decide) hpos fun i hi => ?_
      rw [mem_Ico] at hi
      exact sub_le_normalized hgap hL hU (by omega) (by omega)
    have havg := (windowedAverage_mem hgap hL hU hk).1
    have hmax := le_max_right (windowedArrival a w1WindowSize k) (windowedArrival a w2WindowSize k)
    have hdef : windowedArrival a w2WindowSize k =
        windowMean a w2WindowSize k + (k + 1) * windowedAverage a k := rfl
    rw [(feed_windowed mem a hpos).2.2, elapsed_eq_mul_average hk]
    linarith

/-! ## After the wrap -/

/-- A peer whose first interval is `75` ms and every later one exactly `50` ms. -/
def slowStart (i : ℕ) : ℚ := if i = 0 then 0 else 25 + 50 * i

/-- The intervals of `slowStart` are between `50` and `75`. -/
lemma slowStart_gap (i : ℕ) :
    50 ≤ slowStart (i + 1) - slowStart i ∧ slowStart (i + 1) - slowStart i ≤ 75 := by
  rcases Nat.eq_zero_or_pos i with rfl | hpos
  · norm_num [slowStart]
  · simp only [slowStart, if_neg hpos.ne', if_neg (Nat.succ_ne_zero i)]
    push_cast
    constructor <;> linarith

/-- After the first interval the average of `slowStart` stays above `50` until the wrap, so
every later heartbeat up to the one after the wrap comes early. -/
lemma slowStart_normalized_neg {i : ℕ} (h2 : 2 ≤ i) (hi : i ≤ w2WindowSize + 1) :
    normalized slowStart i < 0 := by
  obtain ⟨j, rfl⟩ : ∃ j, i = j + 1 := ⟨i - 1, by omega⟩
  have hj : j ≠ 0 := by omega
  have hq : (0 : ℚ) < j := by exact_mod_cast Nat.pos_of_ne_zero hj
  have hdelta : timeDelta slowStart (j + 1) = 50 := by
    simp only [timeDelta, elapsed, slowStart, Nat.add_sub_cancel, if_neg hj, Nat.succ_ne_zero,
      if_false, if_true]
    push_cast
    ring
  have hmul : (j : ℚ) * windowedAverage slowStart j = 25 + 50 * j := by
    rw [← elapsed_eq_mul_average (by omega)]
    simp [elapsed, slowStart, hj]
  have havg : 50 < windowedAverage slowStart j := by
    refine lt_of_mul_lt_mul_left ?_ hq.le
    rw [hmul]
    linarith
  rw [normalized_eq_sub (by omega) hi, hdelta, Nat.add_sub_cancel]
  linarith

/-- The means of both windows are negative for `slowStart` right after the wrap. -/
lemma slowStart_windowMean_neg {w : ℕ} (hw : 1 ≤ w) (hw2 : w ≤ w2WindowSize) :
    windowMean slowStart w (w2WindowSize + 1) < 0 := by
  rw [windowMean]
  refine div_neg_of_neg_of_pos ?_ (by exact_mod_cast lt_min (Nat.succ_pos _) hw)
  refine sum_neg (fun i hi => ?_) ⟨w2WindowSize + 1, by rw [mem_Ico]; omega⟩
  rw [mem_Ico] at hi
  exact slowStart_normalized_neg (by omega) (by omega)

/-- **The bound on the sequence number is sharp**: with intervals between `L = 50` and `U = 75`,
the timeout armed at heartbeat `W2_WINDOW_SIZE + 1` of `slowStart` is below `U`, so it is not
true that regular peers get a timeout of at least `U` at every heartbeat.

**Proof sketch.** The slow first interval has left the window, so the average is `50`, while the
elapsed time still contains it; the means of both windows are negative. -/
theorem regular_peer_suspected_after_wrap :
    ¬ ∀ (mem : UnsetTimeoutMemory) (L U : ℚ) (a : ℕ → ℚ), 0 < L → L ≤ heartbeatInterval →
        heartbeatInterval ≤ U → U - L ≤ heartbeatInterval / 2 →
        (∀ i, L ≤ a (i + 1) - a i ∧ a (i + 1) - a i ≤ U) →
        ∀ k, U ≤ (feed mem a (k + 1)).nextTimeout := by
  intro h
  have hlow := h ⟨0, 0, 0, 0, 0⟩ 50 75 slowStart (by norm_num) (by norm_num [heartbeatInterval])
    (by norm_num [heartbeatInterval]) (by norm_num [heartbeatInterval]) slowStart_gap
    (w2WindowSize + 1)
  have havg : windowedAverage slowStart (w2WindowSize + 1) = 50 := by
    norm_num [windowedAverage, elapsed, slowStart, w2WindowSize]
  have helapsed : elapsed slowStart (w2WindowSize + 1) = 25 + 50 * (w2WindowSize + 1) := by
    norm_num [elapsed, slowStart, w2WindowSize]
  have h1 := slowStart_windowMean_neg (w := w1WindowSize) (by decide) (by decide)
  have h2 := slowStart_windowMean_neg (w := w2WindowSize) (by decide) le_rfl
  have hmax : max (windowedArrival slowStart w1WindowSize (w2WindowSize + 1))
      (windowedArrival slowStart w2WindowSize (w2WindowSize + 1)) <
        50 * (w2WindowSize + 1) + 50 := by
    rw [max_lt_iff]
    simp only [windowedArrival, havg]
    push_cast
    constructor <;> linarith
  rw [(feed_windowed _ _ (by omega)).2.2, helapsed] at hlow
  have hint : heartbeatInterval = 50 := rfl
  linarith

/-- A peer with a heartbeat every `60` ms, at its twentieth heartbeat. -/
theorem regular_peer_not_suspected_twenty :
    60 ≤ (feed ⟨0, 0, 0, 0, 0⟩ (fun i => 60 * i) 20).nextTimeout :=
  regular_peer_not_suspected ⟨0, 0, 0, 0, 0⟩ 50 60 (fun i => 60 * i) (by norm_num)
    (by norm_num [heartbeatInterval]) (by norm_num [heartbeatInterval])
    (by norm_num [heartbeatInterval])
    (fun i => by push_cast; constructor <;> linarith) 19 (by decide)

end FailureDetector
