import FailureDetector.AdaptiveDelay.EqualGaps
import FailureDetector.Detector.Model
import FailureDetector.Timer.List

set_option relaxedAutoImplicit false
set_option autoImplicit false

/-!
# The timeout as an interval of a timer

`main` converts the timeout to `unsigned int` and hands it to `start_timer`. Below `1` it becomes
zero, which leaves the new timer disarmed, and a negative timeout cannot be converted at all.
Nothing in the estimator keeps the timeout above that. The timeout that a heartbeat leaves grows
with the time at which the heartbeat arrives, all else being equal: it moves the average and both
means by more than it takes from the time that is left. So a heartbeat leaves a usable timeout if
and only if it does not arrive too early, and how early that is can be read off the estimator's
state before the heartbeat.

## Main definitions

* `FailureDetector.AdaptiveTimeoutStruct.earliestArrival` — the time from which on a heartbeat
  leaves a given timeout or more.
* `FailureDetector.UsableInterval` — the timeout arms a timer.

## Main results

* `FailureDetector.AdaptiveTimeoutStruct.nextTimeout_eq_max` — the timeout as a function of the
  time of arrival.
* `FailureDetector.timeout_usable_iff` — when the timeout is usable.
* `FailureDetector.timeout_not_usable` — it need not be.
* `FailureDetector.periodic_peer_interval` — the interval of a periodic peer's timer.
-/

namespace FailureDetector

open RollingSum

/-! ### The timeout and the time of arrival -/

namespace AdaptiveTimeoutStruct

/-- What a window estimates beyond the time of arrival grows by this factor of the latter. -/
def gain (m : AdaptiveTimeoutStruct) (w : ℕ) : ℚ :=
  1 / numberOfSamples (m.seqNum + 1) w +
    ((m.seqNum + 1 : ℤ) + 1) / numberOfSamples (m.seqNum + 1) w2WindowSize - 1

/-- The timeout by a window, if the next heartbeat arrived at the same time as the first one. -/
def offset (m : AdaptiveTimeoutStruct) {w : ℕ} [NeZero w] (s : Window w ℚ) : ℚ :=
  (s.rest (m.seqNum + 1).toNat - (m.seqNum + 1 : ℤ) * m.averageHeartbeatTimeMs) /
      numberOfSamples (m.seqNum + 1) w +
    ((m.seqNum + 1 : ℤ) + 1) * (m.deltas.rest (m.seqNum + 1).toNat - m.arrivalTimeMs) /
      numberOfSamples (m.seqNum + 1) w2WindowSize +
    m.alpha

/-- The time at which the next heartbeat has to arrive for a timeout of `timeout` by a window. -/
def arrivalFor (m : AdaptiveTimeoutStruct) {w : ℕ} [NeZero w] (s : Window w ℚ) (timeout : ℚ) : ℚ :=
  m.firstHeartbeatArrivalMs + (timeout - m.offset s) / m.gain w

/-- The time from which on the next heartbeat leaves a timeout of at least `timeout`. -/
def earliestArrival (m : AdaptiveTimeoutStruct) (timeout : ℚ) : ℚ :=
  min (m.arrivalFor m.w1 timeout) (m.arrivalFor m.w2 timeout)

variable {m : AdaptiveTimeoutStruct}

/-- After the first heartbeat a window has at least one sample. -/
lemma numberOfSamples_pos {k : ℤ} (hk : 1 ≤ k) (w : ℕ) [NeZero w] : 1 ≤ numberOfSamples k w := by
  have hw := NeZero.pos w
  unfold numberOfSamples
  split <;> omega

/-- The later the heartbeat, the larger the timeout: the average alone moves the expected arrival
by at least as much as the heartbeat, and the window moves it further. -/
lemma gain_pos (hk : 0 ≤ m.seqNum) (w : ℕ) [NeZero w] : 0 < m.gain w := by
  have hk : 1 ≤ m.seqNum + 1 := by omega
  have hw : (1 : ℚ) ≤ numberOfSamples (m.seqNum + 1) w := by
    exact_mod_cast numberOfSamples_pos hk w
  have hw2 : (1 : ℚ) ≤ numberOfSamples (m.seqNum + 1) w2WindowSize := by
    exact_mod_cast numberOfSamples_pos hk w2WindowSize
  have hle : (numberOfSamples (m.seqNum + 1) w2WindowSize : ℚ) ≤ (m.seqNum + 1 : ℤ) := by
    have : numberOfSamples (m.seqNum + 1) w2WindowSize ≤ m.seqNum + 1 := by
      unfold numberOfSamples
      split <;> omega
    exact_mod_cast this
  have hwindow : 0 < 1 / (numberOfSamples (m.seqNum + 1) w : ℚ) := by positivity
  have haverage : 1 ≤ (((m.seqNum + 1 : ℤ) : ℚ) + 1) /
      numberOfSamples (m.seqNum + 1) w2WindowSize := by
    rw [le_div_iff₀ (by linarith)]
    linarith
  rw [gain]
  linarith

/-- **The timeout as a function of the time of arrival.** -/
lemma nextTimeout_eq_max (hk : 0 ≤ m.seqNum) (currentArrivalTime : ℚ) :
    (estimateNextDelay m currentArrivalTime).nextTimeout =
      max (m.gain w1WindowSize * (currentArrivalTime - m.firstHeartbeatArrivalMs) + m.offset m.w1)
        (m.gain w2WindowSize * (currentArrivalTime - m.firstHeartbeatArrivalMs) +
          m.offset m.w2) := by
  have hk : m.seqNum + 1 ≠ 0 := by omega
  simp only [estimateNextDelay, if_pos hk, ite_gt_eq_max, Window.push_sum]
  rw [add_sub_assoc, ← max_add_add_right]
  congr 1
  · rw [gain, offset]
    ring
  · rw [gain, offset]
    ring

/-- The timeout by a window reaches `timeout` when the heartbeat arrives late enough. -/
lemma arrivalFor_le_iff (hk : 0 ≤ m.seqNum) {w : ℕ} [NeZero w] (s : Window w ℚ)
    (timeout currentArrivalTime : ℚ) :
    m.arrivalFor s timeout ≤ currentArrivalTime ↔
      timeout ≤ m.gain w * (currentArrivalTime - m.firstHeartbeatArrivalMs) + m.offset s := by
  rw [arrivalFor, ← le_sub_iff_add_le', div_le_iff₀ (gain_pos hk w), mul_comm (m.gain w),
    sub_le_iff_le_add]

/-- **A heartbeat leaves a timeout of at least `timeout`** if and only if it does not arrive before
the earliest time for it. -/
lemma le_nextTimeout_iff (hk : 0 ≤ m.seqNum) (timeout currentArrivalTime : ℚ) :
    timeout ≤ (estimateNextDelay m currentArrivalTime).nextTimeout ↔
      m.earliestArrival timeout ≤ currentArrivalTime := by
  rw [nextTimeout_eq_max hk, le_max_iff, earliestArrival, min_le_iff, arrivalFor_le_iff hk,
    arrivalFor_le_iff hk]

end AdaptiveTimeoutStruct

/-- Heartbeat `k` does not arrive before the time from which on it leaves a timeout of at least `1`.
The first heartbeat always leaves the same timeout. -/
def ArrivesLateEnough (mem : UnsetTimeoutMemory) (a : ℕ → ℚ) (k : ℕ) : Prop :=
  k = 0 ∨ (feed mem a k).earliestArrival 1 ≤ a k

/-- Heartbeat `k` arrives before the time from which on it leaves a timeout above `UINT_MAX`. -/
def ArrivesEarlyEnough (mem : UnsetTimeoutMemory) (a : ℕ → ℚ) (k : ℕ) : Prop :=
  k = 0 ∨ a k < (feed mem a k).earliestArrival 4294967296

/-- The sequence number before heartbeat `k ≥ 1`. -/
lemma feed_seqNum_nonneg (mem : UnsetTimeoutMemory) (a : ℕ → ℚ) {k : ℕ} (hk : 1 ≤ k) :
    0 ≤ (feed mem a k).seqNum := by
  rw [(feed_tracked mem a k).seqNum_eq]
  omega

/-- **When the timeout is at least `1`.** -/
lemma one_le_nextTimeout_iff (mem : UnsetTimeoutMemory) (a : ℕ → ℚ) (k : ℕ) :
    1 ≤ (feed mem a (k + 1)).nextTimeout ↔ ArrivesLateEnough mem a k := by
  rcases Nat.eq_zero_or_pos k with rfl | hk
  · rw [feed_one_nextTimeout]
    refine iff_of_true ?_ (Or.inl rfl)
    norm_num [heartbeatInterval]
  · rw [ArrivesLateEnough, or_iff_right (by omega), feed]
    exact AdaptiveTimeoutStruct.le_nextTimeout_iff (feed_seqNum_nonneg mem a hk) 1 (a k)

/-- **When the timeout is below the maximum** of `unsigned int`. -/
lemma nextTimeout_lt_iff (mem : UnsetTimeoutMemory) (a : ℕ → ℚ) (k : ℕ) :
    (feed mem a (k + 1)).nextTimeout < 4294967296 ↔ ArrivesEarlyEnough mem a k := by
  rcases Nat.eq_zero_or_pos k with rfl | hk
  · rw [feed_one_nextTimeout]
    refine iff_of_true ?_ (Or.inl rfl)
    norm_num [heartbeatInterval]
  · rw [ArrivesEarlyEnough, or_iff_right (by omega), feed, ← not_le, ← not_le]
    exact not_congr
      (AdaptiveTimeoutStruct.le_nextTimeout_iff (feed_seqNum_nonneg mem a hk) _ (a k))

/-! ### The conversion and the timer -/

/-- A `double` in the range of `unsigned int` is truncated. -/
lemma unsignedOfDouble_of_lt {x : ℚ} (h0 : -1 < x) (hx : x < 4294967296) (outOfRange : UInt32) :
    unsignedOfDouble outOfRange x = ⌊x⌋.toNat := if_pos ⟨h0, hx⟩

/-- It becomes zero exactly below `1`. -/
lemma unsignedOfDouble_ne_zero {x : ℚ} (h0 : -1 < x) (hx : x < 4294967296) (outOfRange : UInt32) :
    unsignedOfDouble outOfRange x ≠ 0 ↔ 1 ≤ x := by
  rw [unsignedOfDouble_of_lt h0 hx, ← Nat.pos_iff_ne_zero, Int.pos_iff_toNat_pos.symm,
    Int.floor_pos]

/-- The settings of a timer arm it exactly if the interval is not zero. -/
lemma timerSpec_armed {intervalMs : ℕ} {type : TTimer} :
    (timerSpec intervalMs type).armed = true ↔ intervalMs ≠ 0 := by
  rw [Itimerspec.armed, decide_eq_true_iff]
  cases type <;> simp only [timerSpec] <;> omega

/-- A timer that could be started has the settings for its interval. -/
lemma fds_of_startTimer {env : TimerEnv} {t t' : TimerManager} {intervalMs timerId : ℕ}
    {type : TTimer} {userData : IpString}
    (h : startTimer env t intervalMs type userData = (t', timerId)) (h0 : timerId ≠ 0) :
    ∃ node, t'.heap timerId = some node ∧
      t'.fds node.data.fd = some (timerSpec intervalMs type) := by
  unfold startTimer startTimerNode at h
  split at h
  · cases h
    exact absurd rfl h0
  · split at h
    · cases h
      exact absurd rfl h0
    · next fd _ =>
      cases h
      exact ⟨_, Function.update_self _ _ _, Function.update_self _ _ _⟩

/-- The timeout can be used as the interval of a timer: it is at least `1` and in the range of
`unsigned int`, so that it is converted to an interval that is not zero, and every timer that is
started with that interval is armed. -/
structure UsableInterval (outOfRange : UInt32) (nextTimeout : ℚ) : Prop where
  one_le : 1 ≤ nextTimeout
  defined : -1 < nextTimeout ∧ nextTimeout < 4294967296
  ne_zero : unsignedOfDouble outOfRange nextTimeout ≠ 0
  arms : ∀ env t type userData t' timerId,
    startTimer env t (unsignedOfDouble outOfRange nextTimeout) type userData = (t', timerId) →
    timerId ≠ 0 → ∃ node, t'.heap timerId = some node ∧ t'.Armed node.data

/-- A timeout of at least `1` that can be converted is usable. -/
lemma usableInterval_of_le {nextTimeout : ℚ} (h1 : 1 ≤ nextTimeout) (hlt : nextTimeout < 4294967296)
    (outOfRange : UInt32) : UsableInterval outOfRange nextTimeout := by
  have h0 : -1 < nextTimeout := by linarith
  have hne := (unsignedOfDouble_ne_zero h0 hlt outOfRange).mpr h1
  refine ⟨h1, ⟨h0, hlt⟩, hne, ?_⟩
  intro env t type userData t' timerId hstart hid
  obtain ⟨node, hnode, hfds⟩ := fds_of_startTimer hstart hid
  exact ⟨node, hnode, _, hfds, timerSpec_armed.mpr hne⟩

/-- **When the timeout is usable.** After heartbeat `k` the timeout is at least `1` if and only if
the heartbeat does not arrive too early, and the timer can be armed with it if and only if the
heartbeat does not arrive so late either that the timeout leaves the range of `unsigned int`. How
early and how late that is follows from the estimator's state before the heartbeat. -/
theorem timeout_usable_iff (mem : UnsetTimeoutMemory) (outOfRange : UInt32) (a : ℕ → ℚ) (k : ℕ) :
    (1 ≤ (feed mem a (k + 1)).nextTimeout ↔ ArrivesLateEnough mem a k) ∧
    (UsableInterval outOfRange (feed mem a (k + 1)).nextTimeout ↔
      ArrivesLateEnough mem a k ∧ ArrivesEarlyEnough mem a k) := by
  refine ⟨one_le_nextTimeout_iff mem a k, ?_⟩
  constructor
  · intro h
    exact ⟨(one_le_nextTimeout_iff mem a k).mp h.one_le,
      (nextTimeout_lt_iff mem a k).mp h.defined.2⟩
  · rintro ⟨hlate, hearly⟩
    exact usableInterval_of_le ((one_le_nextTimeout_iff mem a k).mpr hlate)
      ((nextTimeout_lt_iff mem a k).mpr hearly) outOfRange

/-- The timeout after a second heartbeat that arrives together with the first. -/
lemma feed_two_nextTimeout (mem : UnsetTimeoutMemory) :
    (feed mem (fun _ => 0) 2).nextTimeout = 0 := by
  have hmean : ∀ w, 1 ≤ w → windowMean (fun _ => 0) w 1 = -heartbeatInterval := by
    intro w hw
    refine windowMean_const hw le_rfl ?_
    intro i hi
    rw [Finset.mem_Ico] at hi
    rw [show i = 1 by omega, normalized, elapsed, windowedAverage]
    norm_num
  have havg : windowedAverage (fun _ => 0) 1 = 0 := by simp [windowedAverage, elapsed]
  rw [(feed_windowed mem _ le_rfl).2.2, windowedArrival, windowedArrival, hmean _ (by decide),
    hmean _ (by decide), max_self, havg, elapsed]
  ring

/-- **The timeout need not be usable**: when the first two heartbeats arrive together it is zero,
and the timer started with it is not armed. -/
theorem timeout_not_usable :
    (¬ ∀ (mem : UnsetTimeoutMemory) (a : ℕ → ℚ), Monotone a → ∀ k,
      1 ≤ (feed mem a (k + 1)).nextTimeout) ∧
    ∀ mem outOfRange env t type userData t' timerId,
      startTimer env t (unsignedOfDouble outOfRange (feed mem (fun _ => 0) 2).nextTimeout) type
        userData = (t', timerId) → timerId ≠ 0 →
      ∃ node, t'.heap timerId = some node ∧ ¬ t'.Armed node.data := by
  constructor
  · intro h
    have hle := h ⟨0, 0, 0, 0, 0⟩ (fun _ => 0) monotone_const 1
    rw [feed_two_nextTimeout] at hle
    norm_num at hle
  · intro mem outOfRange env t type userData t' timerId hstart hid
    rw [feed_two_nextTimeout] at hstart
    obtain ⟨node, hnode, hfds⟩ := fds_of_startTimer hstart hid
    refine ⟨node, hnode, ?_⟩
    rintro ⟨spec, hspec, harmed⟩
    rw [hfds, Option.some.injEq] at hspec
    rw [← hspec, timerSpec_armed] at harmed
    refine harmed ?_
    by_contra hne
    have := (unsignedOfDouble_ne_zero (by norm_num) (by norm_num) outOfRange).mp hne
    norm_num at this

/-! ### A periodic peer -/

/-- A truncated timeout of twice the period is zero or not below the period. -/
lemma floor_two_mul {P : ℚ} (hP : 0 < P) : ⌊2 * P⌋ = 0 ∨ P ≤ ⌊2 * P⌋ := by
  have hlt := Int.lt_floor_add_one (2 * P)
  rcases (Int.floor_nonneg.mpr (by linarith : 0 ≤ 2 * P)).eq_or_lt with h | h
  · exact Or.inl h.symm
  · have h1 : (1 : ℚ) ≤ ⌊2 * P⌋ := by exact_mod_cast h
    refine Or.inr ?_
    rcases le_total P 1 with hle | hle
    · exact hle.trans h1
    · linarith

/-- **The interval of a periodic peer's timer**, if it is in the range of `unsigned int`, is zero or
not below the period: the peer's timer does not expire before the next heartbeat.

**Proof sketch.** From the third heartbeat on the timeout exceeds the period by more than the
conversion can take away, and after the second it is twice the period. -/
theorem periodic_peer_interval (mem : UnsetTimeoutMemory) (outOfRange : UInt32) (a₀ P : ℚ)
    (hP : 0 < P) (k : ℕ) (hk : 1 ≤ k)
    (hlt : (feed mem (fun i : ℕ => a₀ + i * P) (k + 1)).nextTimeout < 4294967296) :
    let interval := unsignedOfDouble outOfRange
      (feed mem (fun i : ℕ => a₀ + i * P) (k + 1)).nextTimeout
    interval = 0 ∨ P ≤ interval := by
  intro interval
  set x := (feed mem (fun i : ℕ => a₀ + i * P) (k + 1)).nextTimeout with hx
  have hle : P ≤ x := le_nextTimeout_periodic mem hP hk
  have hinterval : (interval : ℤ) = ⌊x⌋ := by
    have hfloor : 0 ≤ ⌊x⌋ := Int.floor_nonneg.mpr (by linarith)
    rw [show interval = ⌊x⌋.toNat from unsignedOfDouble_of_lt (by linarith) hlt outOfRange]
    exact Int.toNat_of_nonneg hfloor
  have hcast : (interval : ℚ) = (⌊x⌋ : ℚ) := by exact_mod_cast hinterval
  rw [hcast, ← Nat.cast_inj (R := ℤ), hinterval, Nat.cast_zero]
  rcases hk.eq_or_lt with rfl | hk
  · have hdouble : x = 2 * P := by
      rw [hx, nextTimeout_periodic mem le_rfl, windowMean_periodic_of_le le_rfl (by decide),
        windowMean_periodic_of_le le_rfl (by decide), max_self]
      push_cast
      ring
    rw [hdouble]
    exact floor_two_mul hP
  · have hq : (2 : ℚ) ≤ k := by exact_mod_cast hk
    have hshare : heartbeatInterval / k ≤ 25 := by
      rw [div_le_iff₀ (by linarith), heartbeatInterval]
      linarith
    have hmargin : P + heartbeatInterval - heartbeatInterval / k ≤ x :=
      sub_div_le_nextTimeout_periodic mem hP (by omega)
    have hlt' := Int.lt_floor_add_one x
    rw [heartbeatInterval] at hmargin hshare
    exact Or.inr (by linarith)

end FailureDetector
