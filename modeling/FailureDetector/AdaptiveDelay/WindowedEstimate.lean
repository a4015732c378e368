import Mathlib.Tactic.Linarith
import Mathlib.Tactic.NormNum
import Mathlib.Tactic.Ring
import FailureDetector.AdaptiveDelay.Model

set_option relaxedAutoImplicit false
set_option autoImplicit false

/-!
# The estimator computes windowed means

`estimate_next_delay` keeps its sums incrementally. This file states what the sums are for: the
average heartbeat interval over the large window, the normalised arrival times, and the mean of
the last `min k w` of them, all defined directly from the arrival times. The incremental state
is shown to carry exactly these values at every sequence number, before, at and after the wrap
of either buffer, whatever the allocated memory contained.

## Main definitions

* `FailureDetector.elapsed`, `FailureDetector.windowedAverage`, `FailureDetector.normalized`,
  `FailureDetector.windowMean` — the direct definitions.
* `FailureDetector.Tracked` — the invariant between two heartbeats.

## Main results

* `FailureDetector.estimateNextDelay_tracked` — a heartbeat preserves the invariant.
* `FailureDetector.feed_windowed` — the results of the estimator are the windowed ones.
-/

namespace FailureDetector

open Finset RollingSum

/-! ## The direct definitions -/

section Direct

variable (a : ℕ → ℚ)

/-- The arrival time of heartbeat `i`, counted from the first one. -/
def elapsed (i : ℕ) : ℚ := a i - a 0

/-- The time between heartbeats `i - 1` and `i`, and `0` for the first one. -/
def timeDelta (i : ℕ) : ℚ := elapsed a i - elapsed a (i - 1)

/-- The average heartbeat interval after heartbeat `i`, over the last `W2_WINDOW_SIZE`
intervals or as many as there are. -/
def windowedAverage (i : ℕ) : ℚ :=
  if i = 0 then heartbeatInterval
  else (elapsed a i - elapsed a (i - min i w2WindowSize)) / (min i w2WindowSize : ℕ)

/-- The arrival time of heartbeat `i`, normalised by the average of the heartbeats before it. -/
def normalized (i : ℕ) : ℚ := elapsed a i - i * windowedAverage a (i - 1)

/-- The mean of the last `min k w` normalised arrival times up to heartbeat `k`. -/
def windowMean (w k : ℕ) : ℚ :=
  (∑ i ∈ Ico (k + 1 - min k w) (k + 1), normalized a i) / (min k w : ℕ)

/-- The expected arrival time of heartbeat `k + 1` by the window of `w` samples. -/
def windowedArrival (w k : ℕ) : ℚ := windowMean a w k + (k + 1) * windowedAverage a k

/-- Elapsed time starts at zero. -/
@[simp] lemma elapsed_zero : elapsed a 0 = 0 := sub_self _

/-- The first heartbeat has no interval before it. -/
@[simp] lemma timeDelta_zero : timeDelta a 0 = 0 := by simp [timeDelta]

/-- The first normalised arrival time is zero. -/
@[simp] lemma normalized_zero : normalized a 0 = 0 := by simp [normalized]

/-- Intervals add up to the time elapsed over them. -/
lemma sum_timeDelta {m k : ℕ} (hmk : m ≤ k) :
    ∑ i ∈ Ico (m + 1) (k + 1), timeDelta a i = elapsed a k - elapsed a m := by
  rw [← sum_Ico_add' (timeDelta a) m k 1]
  simp only [timeDelta, Nat.add_sub_cancel]
  exact sum_Ico_sub (elapsed a) hmk

/-- Up to heartbeat `k` a window of `w` cells and one of `min k w` have the same sum of
normalised times: until the window is full they differ by the first one, which is zero. -/
lemma sum_window {x : ℕ → ℚ} (hx : x 0 = 0) (w k : ℕ) :
    ∑ i ∈ Ico (k + 1 - w) (k + 1), x i = ∑ i ∈ Ico (k + 1 - min k w) (k + 1), x i := by
  rcases Nat.lt_or_ge k w with hkw | hwk
  · have hlow : k + 1 - w = 0 := by omega
    have hmin : k + 1 - min k w = 1 := by omega
    rw [hlow, hmin, sum_eq_sum_Ico_succ_bot (Nat.succ_pos k), hx, zero_add]
  · rw [min_eq_right hwk]

/-- The sum of the intervals in the large window is the time elapsed over it. -/
lemma sum_timeDelta_window (k : ℕ) :
    ∑ i ∈ Ico (k + 1 - w2WindowSize) (k + 1), timeDelta a i =
      elapsed a k - elapsed a (k - min k w2WindowSize) := by
  rw [sum_window (timeDelta_zero a)]
  have hlow : k + 1 - min k w2WindowSize = k - min k w2WindowSize + 1 := by omega
  rw [hlow]
  exact sum_timeDelta a (Nat.sub_le _ _)

end Direct

/-- The code's sample count is `min k w`. -/
lemma numberOfSamples_natCast (k w : ℕ) : numberOfSamples k w = (min k w : ℕ) := by
  unfold numberOfSamples
  split <;> omega

/-- The larger of two estimates. -/
lemma ite_gt_eq_max (x y : ℚ) : (if x > y then x else y) = max x y := by
  rw [max_comm, max_def_lt]

/-! ## The invariant -/

/-- The state of the estimator between heartbeats `k - 1` and `k` of the sequence `a`. -/
structure Tracked (a : ℕ → ℚ) (k : ℕ) (m : AdaptiveTimeoutStruct) : Prop where
  seqNum_eq : m.seqNum = k - 1
  first_eq : m.firstHeartbeatArrivalMs = a 0
  alpha_eq : m.alpha = heartbeatInterval
  arrival_eq : m.arrivalTimeMs = elapsed a (k - 1)
  /-- Before the first heartbeat the average is whatever the memory contained. -/
  average_eq : k ≠ 0 → m.averageHeartbeatTimeMs = windowedAverage a (k - 1)
  w1_tracks : m.w1.Tracks (normalized a) k
  w2_tracks : m.w2.Tracks (normalized a) k
  deltas_tracks : m.deltas.Tracks (timeDelta a) k

/-- A freshly initialised structure is ready for the first heartbeat. -/
lemma initAdaptiveTimeoutStruct_tracked (mem : UnsetTimeoutMemory) (a : ℕ → ℚ) :
    Tracked a 0 (initAdaptiveTimeoutStruct mem (a 0)) where
  seqNum_eq := rfl
  first_eq := rfl
  alpha_eq := rfl
  arrival_eq := (elapsed_zero a).symm
  average_eq := by intro h; exact absurd rfl h
  w1_tracks := Window.tracks_zero _ _
  w2_tracks := Window.tracks_zero _ _
  deltas_tracks := Window.tracks_zero _ _

section Step

variable {a : ℕ → ℚ} {k : ℕ} {m : AdaptiveTimeoutStruct} (h : Tracked a k m)

include h

/-- The sequence number of heartbeat `k` is `k`. -/
lemma Tracked.succ_seqNum : m.seqNum + 1 = k := by
  rw [h.seqNum_eq]; ring

/-- The value normalised at heartbeat `k` is the direct one. At the first heartbeat the unset
average is multiplied by the sequence number `0`. -/
lemma Tracked.normalized_eq :
    a k - m.firstHeartbeatArrivalMs - ((m.seqNum + 1 : ℤ) : ℚ) * m.averageHeartbeatTimeMs =
      normalized a k := by
  rw [h.succ_seqNum, h.first_eq]
  rcases Nat.eq_zero_or_pos k with rfl | hk
  · simp
  · rw [h.average_eq hk.ne']
    simp [normalized, elapsed]

/-- The time since the last heartbeat is the direct one. -/
lemma Tracked.timeDelta_eq :
    a k - m.firstHeartbeatArrivalMs - m.arrivalTimeMs = timeDelta a k := by
  rw [h.first_eq, h.arrival_eq]
  rfl

/-- The small window after heartbeat `k`. -/
lemma Tracked.w1_push :
    (m.w1.push k (normalized a k)).Tracks (normalized a) (k + 1) := h.w1_tracks.push

/-- The large window after heartbeat `k`. -/
lemma Tracked.w2_push :
    (m.w2.push k (normalized a k)).Tracks (normalized a) (k + 1) := h.w2_tracks.push

/-- The window of intervals after heartbeat `k`. -/
lemma Tracked.deltas_push :
    (m.deltas.push k (timeDelta a k)).Tracks (timeDelta a) (k + 1) := h.deltas_tracks.push

/-- The average computed at a heartbeat after the first is the direct one. -/
lemma Tracked.average_push (hk : k ≠ 0) :
    (m.deltas.push k (timeDelta a k)).sum / (numberOfSamples k w2WindowSize : ℚ) =
      windowedAverage a k := by
  rw [h.deltas_push.sum_eq, sum_timeDelta_window, numberOfSamples_natCast, windowedAverage,
    if_neg hk, Int.cast_natCast]

end Step

/-- The estimate of one window, as the code computes it from the window's sum. -/
lemma windowedArrival_eq (a : ℕ → ℚ) {w k : ℕ} {s : Window w ℚ} [NeZero w]
    (hs : s.Tracks (normalized a) (k + 1)) :
    1 / (numberOfSamples k w : ℚ) * s.sum + (((k : ℤ) : ℚ) + 1) * windowedAverage a k =
      windowedArrival a w k := by
  rw [hs.sum_eq, sum_window (normalized_zero a), numberOfSamples_natCast, windowedArrival,
    windowMean]
  push_cast
  ring

/-- What one heartbeat computes: every field of the structure after heartbeat `k`. -/
lemma estimateNextDelay_eq {a : ℕ → ℚ} {k : ℕ} {m : AdaptiveTimeoutStruct} (h : Tracked a k m) :
    estimateNextDelay m (a k) =
      let estimated := if k = 0 then heartbeatInterval
        else max (windowedArrival a w1WindowSize k) (windowedArrival a w2WindowSize k)
      { m with
        seqNum := k
        arrivalTimeMs := elapsed a k
        sumW1 := (m.w1.push k (normalized a k)).sum
        pastArrivalTimeDifferencesW1Ms := (m.w1.push k (normalized a k)).buf
        sumW2 := (m.w2.push k (normalized a k)).sum
        pastArrivalTimeDifferencesW2Ms := (m.w2.push k (normalized a k)).buf
        sumTimeDeltas := (m.deltas.push k (timeDelta a k)).sum
        deltasBetweenMessages := (m.deltas.push k (timeDelta a k)).buf
        averageHeartbeatTimeMs := windowedAverage a k
        estimatedArrivalMs := estimated
        notifiedWindowsFull :=
          m.notifiedWindowsFull || (decide (k ≥ w1WindowSize) && decide (k ≥ w2WindowSize))
        freshnessPoint := estimated + heartbeatInterval
        nextTimeout := estimated + heartbeatInterval - elapsed a k } := by
  have hkz : ((k : ℤ) = 0) = (k = 0) := by simp
  -- the values of this heartbeat first, then what is computed from them
  simp only [estimateNextDelay, h.normalized_eq, h.timeDelta_eq]
  simp only [h.succ_seqNum, Int.toNat_natCast, Window.update_push_buf, h.alpha_eq, ge_iff_le,
    Nat.cast_le, ne_eq, ite_not, hkz]
  by_cases hk : k = 0
  · simp only [if_pos hk, elapsed, h.first_eq, windowedAverage]
  · simp only [if_neg hk, elapsed, h.first_eq, h.average_push hk, ite_gt_eq_max,
      windowedArrival_eq a h.w1_push, windowedArrival_eq a h.w2_push]

/-- **A heartbeat preserves the invariant.** -/
lemma estimateNextDelay_tracked {a : ℕ → ℚ} {k : ℕ} {m : AdaptiveTimeoutStruct}
    (h : Tracked a k m) : Tracked a (k + 1) (estimateNextDelay m (a k)) := by
  rw [estimateNextDelay_eq h]
  exact
    { seqNum_eq := by push_cast; ring
      first_eq := h.first_eq
      alpha_eq := h.alpha_eq
      arrival_eq := rfl
      average_eq := fun _ => rfl
      w1_tracks := h.w1_push
      w2_tracks := h.w2_push
      deltas_tracks := h.deltas_push }

/-- The invariant holds after any number of heartbeats.

**Proof sketch.** Induction on the number of heartbeats, from the initialised structure by
`estimateNextDelay_tracked`. -/
lemma feed_tracked (mem : UnsetTimeoutMemory) (a : ℕ → ℚ) (k : ℕ) :
    Tracked a k (feed mem a k) := by
  induction k with
  | zero => exact initAdaptiveTimeoutStruct_tracked mem a
  | succ k ih => exact estimateNextDelay_tracked ih

/-- The timeout armed at the first heartbeat. -/
lemma feed_one_nextTimeout (mem : UnsetTimeoutMemory) (a : ℕ → ℚ) :
    (feed mem a 1).nextTimeout = 2 * heartbeatInterval := by
  have h := estimateNextDelay_eq (feed_tracked mem a 0)
  simp only [feed] at h ⊢
  rw [h]
  simp only [if_true, elapsed_zero]
  ring

/-- The results of the estimator after heartbeat `k ≥ 1` are the windowed ones. -/
lemma feed_windowed (mem : UnsetTimeoutMemory) (a : ℕ → ℚ) {k : ℕ} (hk : 1 ≤ k) :
    (feed mem a (k + 1)).averageHeartbeatTimeMs = windowedAverage a k ∧
      (feed mem a (k + 1)).estimatedArrivalMs =
        max (windowedArrival a w1WindowSize k) (windowedArrival a w2WindowSize k) ∧
      (feed mem a (k + 1)).nextTimeout =
        max (windowedArrival a w1WindowSize k) (windowedArrival a w2WindowSize k) +
          heartbeatInterval - elapsed a k := by
  have h := estimateNextDelay_eq (feed_tracked mem a k)
  have hk0 : k ≠ 0 := by omega
  simp only [feed, h, if_neg hk0, and_self]

/-- The timeout runs from the arrival of the heartbeat to the freshness point. -/
lemma feed_freshnessPoint (mem : UnsetTimeoutMemory) (a : ℕ → ℚ) (k : ℕ) :
    (feed mem a (k + 1)).freshnessPoint = elapsed a k + (feed mem a (k + 1)).nextTimeout := by
  simp only [feed, estimateNextDelay_eq (feed_tracked mem a k)]
  ring

/-- Two runs over the same arrival times, on differently filled memory, agree from the first
heartbeat on in every field outside the buffers.

**Proof sketch.** Induction on the heartbeats: by `estimateNextDelay_eq` each such field is the
direct value, or is determined by the invariant, except for the flag of the one-time notice,
which is carried over from the heartbeat before. -/
lemma feed_scalars (mem mem' : UnsetTimeoutMemory) (a : ℕ → ℚ) (k : ℕ) :
    (feed mem a (k + 1)).scalars = (feed mem' a (k + 1)).scalars := by
  have hflag : (feed mem a k).notifiedWindowsFull = (feed mem' a k).notifiedWindowsFull := by
    induction k with
    | zero => rfl
    | succ k ih =>
      simp only [feed, estimateNextDelay_eq (feed_tracked mem a k),
        estimateNextDelay_eq (feed_tracked mem' a k), ih]
  have h := feed_tracked mem a k
  have h' := feed_tracked mem' a k
  simp only [feed, estimateNextDelay_eq h, estimateNextDelay_eq h',
    AdaptiveTimeoutStruct.scalars, h.first_eq, h'.first_eq, h.alpha_eq, h'.alpha_eq,
    h.w1_push.sum_eq, h'.w1_push.sum_eq, h.w2_push.sum_eq, h'.w2_push.sum_eq,
    h.deltas_push.sum_eq, h'.deltas_push.sum_eq, hflag]

/-- **The rolling estimator equals its definition.** After heartbeat `k ≥ 1` the average, the
estimated arrival and the timeout are the windowed ones, whatever the allocated memory contained
before; and no field outside the buffers depends on what it contained. -/
theorem feed_eq_windowed_estimate (mem : UnsetTimeoutMemory) (a : ℕ → ℚ) (k : ℕ) (hk : 1 ≤ k) :
    (feed mem a (k + 1)).averageHeartbeatTimeMs = windowedAverage a k ∧
      (feed mem a (k + 1)).estimatedArrivalMs =
        max (windowMean a w1WindowSize k + (k + 1) * windowedAverage a k)
          (windowMean a w2WindowSize k + (k + 1) * windowedAverage a k) ∧
      (feed mem a (k + 1)).nextTimeout =
        (feed mem a (k + 1)).estimatedArrivalMs + heartbeatInterval - elapsed a k ∧
      ∀ mem', (feed mem' a (k + 1)).scalars = (feed mem a (k + 1)).scalars := by
  obtain ⟨havg, hest, hnext⟩ := feed_windowed mem a hk
  refine ⟨havg, hest, ?_, fun mem' => feed_scalars mem' mem a k⟩
  rw [hnext, hest]

/-- The second of two heartbeats `60` ms apart, on zeroed memory: the average is `60`. -/
theorem feed_eq_windowed_estimate_two :
    (feed ⟨0, 0, 0, 0, 0⟩ (fun i => 60 * i) 2).averageHeartbeatTimeMs = 60 := by
  have h := (feed_eq_windowed_estimate ⟨0, 0, 0, 0, 0⟩ (fun i => 60 * i) 1 le_rfl).1
  rw [h]
  simp [windowedAverage, elapsed, w2WindowSize]

end FailureDetector
