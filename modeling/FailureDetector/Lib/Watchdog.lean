import Mathlib.Data.List.Nodup
import Mathlib.Data.Set.Basic
import Mathlib.Logic.Function.Basic

set_option relaxedAutoImplicit false
set_option autoImplicit false

/-!
# Watchdog timers

Keys are watched by one-shot timers. Hearing from a key replaces its timer by a new one, and a key
whose timer expires is removed. The expiry takes two steps: the timer is picked up with its key,
and later a callback removes that key, whichever timer is recorded for it by then.

Each step of the system is described by what may happen to the timers at most, so that an
implementation need not say exactly which timers can still expire.

## Main definitions

* `Watchdog.Watch` — the timers recorded for the keys, and the timers that exist.
* `Watchdog.Step` — the steps.
* `Watchdog.Watch.Current` — a timer that can remove a key is the one recorded for it.
* `Watchdog.Watch.Matched`, `Watchdog.Watch.Strict` — timers and keys match one to one, with and
  without the exception of the timer that has been picked up.

## Main results

* `Watchdog.Step.current` — `Current` is kept unless a key is heard from between the two steps of
  its expiry.
* `Watchdog.Step.strict` — `Strict` is kept as long as timers can be started and no key is removed.
* `Watchdog.Step.overtaken` — what happens if a key is heard from between the two steps.
* `Watchdog.Step.not_matched` — a step that removes a key leaves its timer behind.
-/

namespace Watchdog

/-- The state of the timers. -/
structure Watch (κ : Type*) where
  /-- The timer recorded for a key; `0` if none could be started. -/
  timer : κ → Option ℕ
  /-- The timers that exist, each with the key that it was started for. -/
  live : List (ℕ × κ)
  /-- The timers that may still expire. -/
  armed : Set ℕ
  /-- The timer that has been picked up and whose callback has not run. -/
  pending : Option (ℕ × κ)

/-- What a step is a reaction to. -/
inductive Label (κ : Type*)
  | quiet
  | heard (k : κ)
  | expire
  | callback

variable {κ : Type*}

namespace Watch

/-- An id that no timer has. -/
structure Unused (w : Watch κ) (id : ℕ) : Prop where
  live : id ∉ w.live.map Prod.fst
  pending : ∀ k, w.pending ≠ some (id, k)

/-- The timers that exist, except the one that is recorded for `k`. -/
def others (w : Watch κ) (k : κ) : List (ℕ × κ) := w.live.filter fun p => some p.1 ≠ w.timer k

/-- A timer that can expire is recorded for its key, and so is one that has been picked up. -/
structure Current (w : Watch κ) : Prop where
  armed : ∀ p ∈ w.live, p.1 ∈ w.armed → w.timer p.2 = some p.1
  pending : ∀ id k, w.pending = some (id, k) → w.timer k = some id ∧ id ∉ w.armed

/-- Timers and keys match one to one: every key has its own timer, and every timer is recorded for
its key or has been picked up. -/
structure Matched (w : Watch κ) : Prop where
  nodup : (w.live.map Prod.fst).Nodup
  owned : ∀ k id, w.timer k = some id → (id, k) ∈ w.live
  no_other : ∀ p ∈ w.live, w.timer p.2 = some p.1 ∨ w.pending = some p

/-- Timers and keys match one to one, without exception. -/
structure Strict (w : Watch κ) : Prop where
  nodup : (w.live.map Prod.fst).Nodup
  owned : ∀ k id, w.timer k = some id → (id, k) ∈ w.live
  recorded : ∀ p ∈ w.live, w.timer p.2 = some p.1

/-- A strict match is a match. -/
lemma Strict.matched {w : Watch κ} (h : w.Strict) : w.Matched :=
  ⟨h.nodup, h.owned, fun p hp => Or.inl (h.recorded p hp)⟩

/-- The other timers are the timers with other ids. -/
lemma mem_others {w : Watch κ} {k : κ} {p : ℕ × κ} :
    p ∈ w.others k ↔ p ∈ w.live ∧ w.timer k ≠ some p.1 := by
  rw [others, List.mem_filter, decide_eq_true_iff]
  exact and_congr_right fun _ => ne_comm

end Watch

open Watch

/-- The steps. -/
inductive Step [DecidableEq κ] : Watch κ → Label κ → Watch κ → Prop
  /-- Nothing happens. -/
  | idle (w : Watch κ) : Step w .quiet w
  /-- A key is heard from, and its timer is replaced. -/
  | restart (w : Watch κ) (k : κ) (id : ℕ) (armed : Set ℕ) (hunused : w.Unused id)
      (harmed : ∀ i ∈ armed, i = id ∨ i ∈ w.armed) :
      Step w (.heard k)
        ⟨Function.update w.timer k (some id), (id, k) :: w.others k, armed, w.pending⟩
  /-- A key is heard from, and no timer can be started. -/
  | fail (w : Watch κ) (k : κ) (armed : Set ℕ) (hunused : w.Unused 0)
      (harmed : ∀ i ∈ armed, i ∈ w.armed) :
      Step w (.heard k) ⟨Function.update w.timer k (some 0), w.others k, armed, w.pending⟩
  /-- A timer expires and is picked up. -/
  | expire (w : Watch κ) (id : ℕ) (k : κ) (armed : Set ℕ) (hlive : (id, k) ∈ w.live)
      (hid : id ∈ w.armed) (hpending : w.pending = none)
      (harmed : ∀ i ∈ armed, i ∈ w.armed ∧ i ≠ id) :
      Step w .expire ⟨w.timer, w.live, armed, some (id, k)⟩
  /-- The callback removes the key of the timer. -/
  | remove (w : Watch κ) (id : ℕ) (k : κ) (hpending : w.pending = some (id, k))
      (hk : w.timer k ≠ none) :
      Step w .callback ⟨Function.update w.timer k none, w.live, w.armed, none⟩
  /-- The callback does not remove a key. -/
  | drop (w : Watch κ) : Step w .callback ⟨w.timer, w.live, w.armed, none⟩

variable [DecidableEq κ] {w w' : Watch κ} {l : Label κ}

/-- After a key has been heard from, the timers that can expire are still recorded for their
keys: the key's own old timers are recorded for it, so that they do not exist any more. -/
lemma recorded_of_heard (hc : w.Current) {k : κ} {id : ℕ} {timer : Option ℕ} {p : ℕ × κ}
    (hp : p ∈ w.others k) (hpid : p.1 ≠ id) {armed : Set ℕ}
    (harmed : ∀ i ∈ armed, i = id ∨ i ∈ w.armed) (hmem : p.1 ∈ armed) :
    Function.update w.timer k timer p.2 = some p.1 := by
  obtain ⟨hlive, hne⟩ := mem_others.mp hp
  have hrec : w.timer p.2 = some p.1 :=
    hc.armed p hlive ((harmed p.1 hmem).resolve_left hpid)
  rw [Function.update_of_ne, hrec]
  rintro rfl
  exact hne hrec

/-- **`Current` is kept** by every step but one that hears from the key of the timer that has been
picked up. -/
lemma Step.current (h : Step w l w') (hc : w.Current)
    (hl : ∀ k id, l = .heard k → w.pending ≠ some (id, k)) : w'.Current := by
  cases h with
  | idle => exact hc
  | restart k id armed hunused harmed =>
    refine ⟨fun p hp hmem => ?_, fun i k' hpending => ?_⟩
    · rcases List.mem_cons.mp hp with rfl | hp
      · exact Function.update_self _ _ _
      · have hpid : p.1 ≠ id := fun heq =>
          hunused.live (heq ▸ List.mem_map_of_mem (mem_others.mp hp).1)
        exact recorded_of_heard hc hp hpid harmed hmem
    · obtain ⟨hrec, hnot⟩ := hc.pending i k' hpending
      have hk : k' ≠ k := fun heq => hl k i rfl (heq ▸ hpending)
      refine ⟨(Function.update_of_ne hk _ _).trans hrec, fun hmem => ?_⟩
      rcases harmed i hmem with rfl | hmem
      · exact hunused.pending k' hpending
      · exact hnot hmem
  | fail k armed hunused harmed =>
    refine ⟨fun p hp hmem => ?_, fun i k' hpending => ?_⟩
    · have hpid : p.1 ≠ 0 := fun heq =>
        hunused.live (heq ▸ List.mem_map_of_mem (mem_others.mp hp).1)
      exact recorded_of_heard hc hp hpid (fun i hi => Or.inr (harmed i hi)) hmem
    · obtain ⟨hrec, hnot⟩ := hc.pending i k' hpending
      have hk : k' ≠ k := fun heq => hl k i rfl (heq ▸ hpending)
      exact ⟨(Function.update_of_ne hk _ _).trans hrec, fun hmem => hnot (harmed i hmem)⟩
  | expire id k armed hlive hid hpending harmed =>
    refine ⟨fun p hp hmem => hc.armed p hp (harmed p.1 hmem).1, fun i k' heq => ?_⟩
    cases heq
    exact ⟨hc.armed (id, k) hlive hid, fun hmem => (harmed id hmem).2 rfl⟩
  | remove id k hpending hk =>
    obtain ⟨hrec, hnot⟩ := hc.pending id k hpending
    refine ⟨fun p hp hmem => ?_, fun i k' heq => absurd heq.symm (Option.some_ne_none _)⟩
    have hold := hc.armed p hp hmem
    show Function.update w.timer k none p.2 = some p.1
    rw [Function.update_of_ne, hold]
    -- another armed timer of the removed key would be recorded for it, but that one has expired
    rintro rfl
    rw [hrec, Option.some.injEq] at hold
    exact hnot (hold ▸ hmem)
  | drop => exact ⟨hc.armed, fun i k heq => absurd heq.symm (Option.some_ne_none _)⟩

/-- **`Strict` is kept** by every step that does not fail to start a timer and does not remove a
key. -/
lemma Step.strict (h : Step w l w') (hs : w.Strict) (hstart : ∀ k, w'.timer k ≠ some 0)
    (hkeep : ∀ k, w.timer k ≠ none → w'.timer k ≠ none) : w'.Strict := by
  cases h with
  | idle => exact hs
  | restart k id armed hunused harmed =>
    have hothers : (w.others k).Sublist w.live := List.filter_sublist
    refine ⟨?_, fun k' i hi => ?_, fun p hp => ?_⟩
    · rw [List.map_cons, List.nodup_cons]
      refine ⟨fun hmem => hunused.live ((hothers.map _).subset hmem), ?_⟩
      exact hs.nodup.sublist (hothers.map _)
    · change Function.update w.timer k (some id) k' = some i at hi
      by_cases hk : k' = k
      · subst hk
        rw [Function.update_self, Option.some.injEq] at hi
        rw [hi]
        exact List.mem_cons_self
      · rw [Function.update_of_ne hk] at hi
        refine List.mem_cons_of_mem _ (mem_others.mpr ⟨hs.owned k' i hi, fun heq => hk ?_⟩)
        have hsame := List.inj_on_of_nodup_map hs.nodup (hs.owned k' i hi) (hs.owned k i heq) rfl
        exact congrArg Prod.snd hsame
    · rcases List.mem_cons.mp hp with rfl | hp
      · exact Function.update_self _ _ _
      · obtain ⟨hlive, hne⟩ := mem_others.mp hp
        have hrec := hs.recorded p hlive
        show Function.update w.timer k (some id) p.2 = some p.1
        rw [Function.update_of_ne, hrec]
        rintro rfl
        exact hne hrec
  | fail k armed hunused harmed => exact absurd (Function.update_self _ _ _) (hstart k)
  | expire id k armed hlive hid hpending harmed => exact ⟨hs.nodup, hs.owned, hs.recorded⟩
  | remove id k hpending hk => exact absurd (Function.update_self _ _ _) (hkeep k hk)
  | drop => exact ⟨hs.nodup, hs.owned, hs.recorded⟩

/-- Recording a timer removes no key. -/
lemma update_ne_none {timer : κ → Option ℕ} {k k' : κ} {id : ℕ} (hk : timer k ≠ none) :
    Function.update timer k' (some id) k ≠ none := by
  by_cases heq : k = k'
  · rw [heq, Function.update_self]
    exact Option.some_ne_none id
  · rwa [Function.update_of_ne heq]

/-- Only a callback removes a key. -/
lemma Step.keeps (h : Step w l w') (hl : l ≠ .callback) {k : κ} (hk : w.timer k ≠ none) :
    w'.timer k ≠ none := by
  cases h with
  | idle => exact hk
  | restart => exact update_ne_none hk
  | fail => exact update_ne_none hk
  | expire => exact hk
  | remove => exact absurd rfl hl
  | drop => exact absurd rfl hl

/-- **A key that is heard from while its timer is picked up** keeps being held by that timer, which
is not recorded for it any more. -/
lemma Step.overtaken {k : κ} {id : ℕ} (h : Step w (.heard k) w')
    (hpending : w.pending = some (id, k)) :
    w'.pending = some (id, k) ∧ w'.timer k ≠ none ∧ w'.timer k ≠ some id := by
  cases h with
  | restart _ i armed hunused harmed =>
    have hself : Function.update w.timer k (some i) k = some i := Function.update_self _ _ _
    refine ⟨hpending, fun hnone => ?_, fun hsome => ?_⟩
    · exact Option.some_ne_none i (hself.symm.trans hnone)
    · have hid : i = id := Option.some.inj (hself.symm.trans hsome)
      exact hunused.pending k (hid ▸ hpending)
  | fail _ armed hunused harmed =>
    have hself : Function.update w.timer k (some 0) k = some 0 := Function.update_self _ _ _
    refine ⟨hpending, fun hnone => ?_, fun hsome => ?_⟩
    · exact Option.some_ne_none 0 (hself.symm.trans hnone)
    · have hid : 0 = id := Option.some.inj (hself.symm.trans hsome)
      exact hunused.pending k (hid ▸ hpending)

/-- **A step that removes a key leaves its timer behind**: timers and keys do not match after it. -/
lemma Step.not_matched (h : Step w l w') (hm : w.Matched) {k : κ} (hk : w.timer k ≠ none)
    (hk' : w'.timer k = none) : ¬ w'.Matched := by
  obtain ⟨i, hi⟩ := Option.ne_none_iff_exists'.mp hk
  have hlive := hm.owned k i hi
  by_cases hl : l = .callback
  · subst hl
    cases h with
    | remove id k₁ hpending hk₁ =>
      intro hm'
      rcases hm'.no_other (i, k) hlive with hrec | hpend
      · exact absurd (hrec.symm.trans hk') (Option.some_ne_none i)
      · cases hpend
    | drop => exact absurd hk' hk
  · exact absurd hk' (h.keeps hl hk)

end Watchdog
