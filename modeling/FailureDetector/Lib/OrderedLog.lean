import Mathlib.Data.List.Basic
import Mathlib.Logic.Function.Basic

set_option relaxedAutoImplicit false
set_option autoImplicit false

/-!
# Parties that read one log

Parties propose values. A log grows by proposed values, each with its sender, and every party reads
the log from its beginning, in its own time. Nothing is assumed about which of the proposed values
are decided, how often, or in which order.

A party that is interested in the others has the last entry of another party for its view. Parties
that have read the same part of the log have the same view, but for the sender of the last entry.

## Main definitions

* `OrderedLog.State`, `OrderedLog.Step` — the parties and the log.
* `OrderedLog.Valid` — parties have read a part of the log, and the log holds proposed values.
* `OrderedLog.lastOther`, `OrderedLog.State.view` — the last entry of another party.

## Main results

* `OrderedLog.Step.valid` — `Valid` is kept by every step.
* `OrderedLog.Valid.hasRead_eq` — parties that have read equally many entries have read the same.
* `OrderedLog.lastOther_concat` — the view after one more entry.
* `OrderedLog.lastOther_eq_of_ne` — the views of the parties that did not send the last entry.
-/

namespace OrderedLog

variable {ι ν : Type*}

/-- The parties `ι` and the log. -/
structure State (ι ν : Type*) where
  /-- The values that a party has proposed. -/
  proposed : ι → List ν
  log : List (ι × ν)
  /-- How many entries a party has read. -/
  position : ι → ℕ

/-- What a party has read. -/
def State.hasRead (s : State ι ν) (i : ι) : List (ι × ν) := s.log.take (s.position i)

/-- No party has read more than there is, and what is in the log has been proposed by its sender. -/
structure Valid (s : State ι ν) : Prop where
  position_le : ∀ i, s.position i ≤ s.log.length
  proposed : ∀ e ∈ s.log, e.2 ∈ s.proposed e.1

/-- **Parties that have read equally many entries have read the same**, also at different times. -/
lemma Valid.hasRead_eq {s s' : State ι ν} (hs : Valid s) (hlog : s.log <+: s'.log) {i j : ι}
    (hposition : s.position i = s'.position j) : s.hasRead i = s'.hasRead j := by
  obtain ⟨rest, hrest⟩ := hlog
  rw [State.hasRead, State.hasRead, ← hrest, ← hposition,
    List.take_append_of_le_length (hs.position_le i)]

variable [DecidableEq ι]

/-- One step: a party proposes some values, or a proposed value is decided, or a party reads the
next entry. -/
inductive Step (s : State ι ν) : State ι ν → Prop
  | propose (i : ι) (vs : List ν) :
      Step s { s with proposed := Function.update s.proposed i (s.proposed i ++ vs) }
  | decide (i : ι) (v : ν) (proposed : v ∈ s.proposed i) :
      Step s { s with log := s.log ++ [(i, v)] }
  | read (i : ι) (unread : s.position i < s.log.length) :
      Step s { s with position := Function.update s.position i (s.position i + 1) }

/-- The last entry that is not from `i`. -/
def lastOther (i : ι) (log : List (ι × ν)) : Option (ι × ν) := (log.filter (·.1 ≠ i)).getLast?

/-- The last entry from another party that a party has read. -/
def State.view (s : State ι ν) (i : ι) : Option (ι × ν) := lastOther i (s.hasRead i)

/-! ### Steps -/

section Step

variable {s s' : State ι ν}

/-- **`Valid` is kept by every step.** -/
lemma Step.valid (h : Step s s') (hs : Valid s) : Valid s' := by
  cases h with
  | propose i vs =>
    refine ⟨hs.position_le, fun e he => ?_⟩
    have hmem := hs.proposed e he
    dsimp only
    by_cases hi : e.1 = i
    · rw [hi, Function.update_self]
      exact List.mem_append_left _ (hi ▸ hmem)
    · rwa [Function.update_of_ne hi]
  | decide i v proposed =>
    refine ⟨fun j => ?_, fun e he => ?_⟩
    · have hle := hs.position_le j
      simp only [List.length_append, List.length_singleton]
      omega
    · dsimp only at he ⊢
      rcases List.mem_append.mp he with hold | hnew
      · exact hs.proposed e hold
      · rw [List.mem_singleton.mp hnew]
        exact proposed
  | read i unread =>
    refine ⟨fun j => ?_, hs.proposed⟩
    dsimp only
    by_cases hj : j = i
    · rw [hj, Function.update_self]
      omega
    · rw [Function.update_of_ne hj]
      exact hs.position_le j

/-- The log is only added to. -/
lemma Step.log_extends (h : Step s s') : s.log <+: s'.log := by
  cases h with
  | propose => exact List.prefix_refl _
  | decide => exact List.prefix_append _ _
  | read => exact List.prefix_refl _

end Step

/-! ### Views -/

section Views

variable {i j : ι} {log : List (ι × ν)} {e : ι × ν}

/-- **The view after one more entry.** -/
lemma lastOther_concat (i : ι) (log : List (ι × ν)) (e : ι × ν) :
    lastOther i (log ++ [e]) = if e.1 = i then lastOther i log else some e := by
  rw [lastOther, List.filter_append]
  split
  · next h => simp [h, lastOther]
  · next h => simp [h]

/-- A view is an entry of the log from another party. -/
lemma mem_of_lastOther (h : lastOther i log = some e) : e ∈ log ∧ e.1 ≠ i := by
  obtain ⟨hmem, hne⟩ := List.mem_filter.mp (List.mem_of_getLast? h)
  exact ⟨hmem, of_decide_eq_true hne⟩

/-- **The parties that did not send the last entry have the same view.** -/
lemma lastOther_eq_of_ne (hi : e.1 ≠ i) (hj : e.1 ≠ j) :
    lastOther i (log ++ [e]) = lastOther j (log ++ [e]) := by
  rw [lastOther_concat, lastOther_concat, if_neg hi, if_neg hj]

end Views

end OrderedLog
