import Mathlib.Data.Rat.Floor
import FailureDetector.Lib.RollingSum

set_option relaxedAutoImplicit false
set_option autoImplicit false

/-!
# The adaptive delay model (`adaptive_delay_model.c`)

For every peer the failure detector keeps an `adaptive_timeout_struct`, updated by
`estimate_next_delay` at each heartbeat of the peer. The next arrival is estimated twice, from
the mean of the last `W1_WINDOW_SIZE` and of the last `W2_WINDOW_SIZE` normalised arrival times,
and the larger estimate plus the safety margin `alpha` gives the timeout of the peer's timer.

Times are in milliseconds; the `double` fields are exact rationals. The fields `delay`, `var` and
`error` are set once and never read, `node_ip` is only printed, and all three are left out.

## Main definitions

* `FailureDetector.AdaptiveTimeoutStruct` — the estimator's state for one peer.
* `FailureDetector.initAdaptiveTimeoutStruct` — `init_adaptive_timeout_struct`.
* `FailureDetector.estimateNextDelay` — `estimate_next_delay`.
* `FailureDetector.feed` — the state after the first `k` heartbeats of a sequence.
-/

namespace FailureDetector

open RollingSum

/-- `W1_WINDOW_SIZE`. -/
def w1WindowSize : ℕ := 10

/-- `W2_WINDOW_SIZE`. -/
def w2WindowSize : ℕ := 10000

/-- `HEARTBEAT_INTERVAL`. -/
def heartbeatInterval : ℚ := 50

instance : NeZero w1WindowSize := ⟨by decide⟩

instance : NeZero w2WindowSize := ⟨by decide⟩

/-- `adaptive_timeout_struct`. -/
structure AdaptiveTimeoutStruct where
  freshnessPoint : ℚ
  arrivalTimeMs : ℚ
  firstHeartbeatArrivalMs : ℚ
  pastArrivalTimeDifferencesW1Ms : Fin w1WindowSize → ℚ
  pastArrivalTimeDifferencesW2Ms : Fin w2WindowSize → ℚ
  deltasBetweenMessages : Fin w2WindowSize → ℚ
  estimatedArrivalMs : ℚ
  alpha : ℚ
  seqNum : ℤ
  sumW1 : ℚ
  sumW2 : ℚ
  sumTimeDeltas : ℚ
  nextTimeout : ℚ
  averageHeartbeatTimeMs : ℚ
  notifiedWindowsFull : Bool

/-- The contents of the memory that `init_adaptive_timeout_struct` allocates and leaves unset:
two fields and the three buffers. -/
structure UnsetTimeoutMemory where
  nextTimeout : ℚ
  averageHeartbeatTimeMs : ℚ
  pastArrivalTimeDifferencesW1Ms : Fin w1WindowSize → ℚ
  pastArrivalTimeDifferencesW2Ms : Fin w2WindowSize → ℚ
  deltasBetweenMessages : Fin w2WindowSize → ℚ

/-- `init_adaptive_timeout_struct`: the sequence number starts at `-1`, the sums at `0`. -/
def initAdaptiveTimeoutStruct (mem : UnsetTimeoutMemory) (firstHeartbeatMs : ℚ) :
    AdaptiveTimeoutStruct where
  freshnessPoint := 0
  arrivalTimeMs := 0
  firstHeartbeatArrivalMs := firstHeartbeatMs
  pastArrivalTimeDifferencesW1Ms := mem.pastArrivalTimeDifferencesW1Ms
  pastArrivalTimeDifferencesW2Ms := mem.pastArrivalTimeDifferencesW2Ms
  deltasBetweenMessages := mem.deltasBetweenMessages
  estimatedArrivalMs := 0
  alpha := heartbeatInterval
  seqNum := -1
  sumW1 := 0
  sumW2 := 0
  sumTimeDeltas := 0
  nextTimeout := mem.nextTimeout
  averageHeartbeatTimeMs := mem.averageHeartbeatTimeMs
  notifiedWindowsFull := false

namespace AdaptiveTimeoutStruct

/-- `sum_w1` with its buffer. -/
def w1 (m : AdaptiveTimeoutStruct) : Window w1WindowSize ℚ :=
  ⟨m.sumW1, m.pastArrivalTimeDifferencesW1Ms⟩

/-- `sum_w2` with its buffer. -/
def w2 (m : AdaptiveTimeoutStruct) : Window w2WindowSize ℚ :=
  ⟨m.sumW2, m.pastArrivalTimeDifferencesW2Ms⟩

/-- `sum_time_deltas` with its buffer. -/
def deltas (m : AdaptiveTimeoutStruct) : Window w2WindowSize ℚ :=
  ⟨m.sumTimeDeltas, m.deltasBetweenMessages⟩

/-- Every field but the three buffers. -/
def scalars (m : AdaptiveTimeoutStruct) : List ℚ × ℤ × Bool :=
  ([m.freshnessPoint, m.arrivalTimeMs, m.firstHeartbeatArrivalMs, m.estimatedArrivalMs, m.alpha,
    m.sumW1, m.sumW2, m.sumTimeDeltas, m.nextTimeout, m.averageHeartbeatTimeMs],
    m.seqNum, m.notifiedWindowsFull)

end AdaptiveTimeoutStruct

/-- The number of samples a window of `w` cells divides by at sequence number `k`
(`k < w ? k : w`). -/
def numberOfSamples (k : ℤ) (w : ℕ) : ℤ := if k < w then k else w

/-- `estimate_next_delay`, for a heartbeat arriving at `currentArrivalTime`. -/
def estimateNextDelay (m : AdaptiveTimeoutStruct) (currentArrivalTime : ℚ) :
    AdaptiveTimeoutStruct :=
  let k := m.seqNum + 1
  let t := currentArrivalTime - m.firstHeartbeatArrivalMs
  let timeFromLastHeartbeat := t - m.arrivalTimeMs
  let normalizedArrivalTimeDiff := t - k * m.averageHeartbeatTimeMs
  let estimated₀ := if k = 0 then heartbeatInterval else m.estimatedArrivalMs
  let average₀ := if k = 0 then heartbeatInterval else m.averageHeartbeatTimeMs
  let w1 := m.w1.push k.toNat normalizedArrivalTimeDiff
  let w2 := m.w2.push k.toNat normalizedArrivalTimeDiff
  let deltas := m.deltas.push k.toNat timeFromLastHeartbeat
  let average := if k ≠ 0 then deltas.sum / numberOfSamples k w2WindowSize else average₀
  let estimatedArrivalW1 :=
    1 / numberOfSamples k w1WindowSize * w1.sum + (k + 1) * average
  let estimatedArrivalW2 :=
    1 / numberOfSamples k w2WindowSize * w2.sum + (k + 1) * average
  let estimated :=
    if k ≠ 0 then
      if estimatedArrivalW1 > estimatedArrivalW2 then estimatedArrivalW1 else estimatedArrivalW2
    else estimated₀
  { m with
    seqNum := k
    arrivalTimeMs := t
    sumW1 := w1.sum
    pastArrivalTimeDifferencesW1Ms := w1.buf
    sumW2 := w2.sum
    pastArrivalTimeDifferencesW2Ms := w2.buf
    sumTimeDeltas := deltas.sum
    -- stored a second time, after the windows have been updated
    deltasBetweenMessages :=
      Function.update deltas.buf (Window.cell w2WindowSize k.toNat) timeFromLastHeartbeat
    averageHeartbeatTimeMs := average
    estimatedArrivalMs := estimated
    notifiedWindowsFull :=
      m.notifiedWindowsFull || (decide (k ≥ w1WindowSize) && decide (k ≥ w2WindowSize))
    freshnessPoint := estimated + m.alpha
    nextTimeout := estimated + m.alpha - t }

/-- The state after the first `k` heartbeats of a peer, which arrive at `a 0, a 1, …`: the main
loop initialises the structure with the first arrival time and then estimates at every one. -/
def feed (mem : UnsetTimeoutMemory) (a : ℕ → ℚ) : ℕ → AdaptiveTimeoutStruct
  | 0 => initAdaptiveTimeoutStruct mem (a 0)
  | k + 1 => estimateNextDelay (feed mem a k) (a k)

end FailureDetector
