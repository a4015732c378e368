import Mathlib.Order.Defs.PartialOrder
import FailureDetector.Lib.Watchdog

set_option relaxedAutoImplicit false
set_option autoImplicit false

/-!
# Deadlines of watchdog timers

Hearing from a key sets its deadline, and the new timer of the key is due at the deadline. A timer
is not picked up before it is due. So a key is not removed before its deadline, unless it has been
heard from between the two steps of an expiry; and a key whose timers are not picked up at or after
its deadline is not removed at all.

Times are the elements of any preorder. A greatest time is the deadline of a key that need not be
heard from again.

## Main definitions

* `Watchdog.TimedWatch`, `Watchdog.TimedStep` — watchdog timers with deadlines, and their steps.
* `Watchdog.TimedWatch.OnTime` — no timer has been picked up before the deadline of its key.
* `Watchdog.TimedWatch.Guarded` — a key that cannot be removed before its deadline.

## Main results

* `Watchdog.TimedStep.onTime` — `OnTime` is kept unless an expiry is overtaken.
* `Watchdog.TimedStep.guarded` — `Guarded` is kept as long as no timer is picked up at or after the
  deadline.
-/

namespace Watchdog

variable {κ τ : Type*}

/-- Watchdog timers with deadlines. -/
structure TimedWatch (κ τ : Type*) where
  watch : Watch κ
  /-- When a timer is due. -/
  due : ℕ → τ
  /-- Until when a key has to be heard from. -/
  deadline : κ → τ

namespace TimedWatch

/-- The timers that can still expire are due at the deadlines of their keys, and a timer that has
been picked up by the time `t` was due. -/
structure OnTime [LE τ] (w : TimedWatch κ τ) (t : τ) : Prop where
  armed : ∀ p ∈ w.watch.live, p.1 ∈ w.watch.armed → w.due p.1 = w.deadline p.2
  pending : ∀ id k, w.watch.pending = some (id, k) → w.deadline k ≤ t

/-- The timers of `k` that can still expire are recorded for it and due at its deadline, and none
has been picked up. -/
structure Guarded (w : TimedWatch κ τ) (k : κ) : Prop where
  recorded : ∀ id, (id, k) ∈ w.watch.live → id ∈ w.watch.armed → w.watch.timer k = some id
  due : ∀ id, (id, k) ∈ w.watch.live → id ∈ w.watch.armed → w.due id = w.deadline k
  pending : ∀ id, w.watch.pending ≠ some (id, k)

/-- If all timers are recorded and on time, a key is guarded as long as none of its timers has been
picked up. -/
lemma OnTime.guarded [LE τ] {w : TimedWatch κ τ} {t : τ} (h : w.OnTime t) (hc : w.watch.Current)
    {k : κ} (hk : ∀ id, w.watch.pending ≠ some (id, k)) : w.Guarded k :=
  ⟨fun id hlive hid => hc.armed (id, k) hlive hid,
    fun id hlive hid => h.armed (id, k) hlive hid, hk⟩

end TimedWatch

open Watch TimedWatch

variable [DecidableEq κ]

/-- A step at the time `t`: a new timer is due at the deadline of its key, and nothing else is given
another time. -/
structure TimedStep [LE τ] (w : TimedWatch κ τ) (l : Label κ) (t : τ) (w' : TimedWatch κ τ) :
    Prop where
  step : Step w.watch l w'.watch
  due : ∀ p ∈ w'.watch.live, p.1 ∈ w'.watch.armed → l ≠ .heard p.2 → w'.due p.1 = w.due p.1
  deadline : ∀ k, l ≠ .heard k → w'.deadline k = w.deadline k
  started : ∀ id k, l = .heard k → (id, k) ∈ w'.watch.live → id ∈ w'.watch.armed →
    w'.watch.timer k = some id → w'.due id = w'.deadline k
  expire : ∀ id k, l = .expire → w'.watch.pending = some (id, k) → w.due id ≤ t

section Step

variable {w w' : Watch κ} {l : Label κ} {k : κ}

/-- A timer that can expire could before, unless its key has been heard from. -/
lemma Step.armed_of_ne (h : Step w l w') {p : ℕ × κ} (hlive : p ∈ w'.live) (hp : p.1 ∈ w'.armed)
    (hl : l ≠ .heard p.2) : p ∈ w.live ∧ p.1 ∈ w.armed := by
  cases h with
  | idle => exact ⟨hlive, hp⟩
  | restart k id armed hunused harmed =>
    rcases List.mem_cons.mp hlive with rfl | hmem
    · exact absurd rfl hl
    · have hmem' := (mem_others.mp hmem).1
      rcases harmed p.1 hp with rfl | hp'
      · exact absurd (List.mem_map_of_mem hmem') hunused.live
      · exact ⟨hmem', hp'⟩
  | fail k armed hunused harmed => exact ⟨(mem_others.mp hlive).1, harmed p.1 hp⟩
  | expire id k armed _ _ _ harmed => exact ⟨hlive, (harmed p.1 hp).1⟩
  | remove => exact ⟨hlive, hp⟩
  | drop => exact ⟨hlive, hp⟩

/-- A timer that has been picked up had been before, or it is picked up now. -/
lemma Step.pending_cases (h : Step w l w') {id : ℕ} (hpending : w'.pending = some (id, k)) :
    w.pending = some (id, k) ∨ (l = .expire ∧ (id, k) ∈ w.live ∧ id ∈ w.armed) := by
  cases h with
  | idle => exact Or.inl hpending
  | restart => exact Or.inl hpending
  | fail => exact Or.inl hpending
  | expire i k' armed hlive hid =>
    cases hpending
    exact Or.inr ⟨rfl, hlive, hid⟩
  | remove => cases hpending
  | drop => cases hpending

/-- A timer is picked up only when there is none that has been picked up. -/
lemma Step.pending_of_expire (h : Step w .expire w') : w.pending = none := by
  cases h with
  | expire _ _ _ _ _ hpending => exact hpending

/-- A key is removed by a callback of a timer that has been picked up for it. -/
lemma Step.pending_of_removed (h : Step w l w') (hk : w.timer k ≠ none) (hk' : w'.timer k = none) :
    l = .callback ∧ ∃ id, w.pending = some (id, k) := by
  by_cases hl : l = .callback
  · refine ⟨hl, ?_⟩
    subst hl
    cases h with
    | remove id k₁ hpending _ =>
      by_cases heq : k = k₁
      · exact ⟨id, heq ▸ hpending⟩
      · exact absurd ((Function.update_of_ne heq _ _).symm.trans hk') hk
    | drop => exact absurd hk' hk
  · exact absurd hk' (h.keeps hl hk)

/-- The timers of a key that can still expire are recorded for it after a step if they were before,
and none has been picked up. -/
lemma Step.recorded_at (h : Step w l w')
    (hrec : ∀ id, (id, k) ∈ w.live → id ∈ w.armed → w.timer k = some id)
    (hidle : ∀ id, w.pending ≠ some (id, k)) {id : ℕ} (hlive : (id, k) ∈ w'.live)
    (hid : id ∈ w'.armed) : w'.timer k = some id := by
  have hold : l ≠ .heard k → w.timer k = some id := fun hl =>
    hrec id (h.armed_of_ne hlive hid hl).1 (h.armed_of_ne hlive hid hl).2
  cases h with
  | idle => exact hrec id hlive hid
  | restart k' i armed hunused harmed =>
    show Function.update w.timer k' (some i) k = some id
    by_cases hk : k = k'
    · subst hk
      rw [Function.update_self]
      rcases List.mem_cons.mp hlive with heq | hmem
      · cases heq
        rfl
      -- another timer of `k` that can expire was recorded for it, so that it has been stopped
      · obtain ⟨hmem', hne⟩ := mem_others.mp hmem
        rcases harmed id hid with rfl | hid'
        · rfl
        · exact absurd (hrec id hmem' hid') hne
    · rw [Function.update_of_ne hk]
      apply hold
      rintro ⟨⟩
      exact hk rfl
  | fail k' armed hunused harmed =>
    show Function.update w.timer k' (some 0) k = some id
    obtain ⟨hmem, hne⟩ := mem_others.mp hlive
    have hsome := hrec id hmem (harmed id hid)
    by_cases hk : k = k'
    · subst hk
      exact absurd hsome hne
    · rw [Function.update_of_ne hk, hsome]
  | expire => exact hold (by rintro ⟨⟩)
  | remove i k' hpending =>
    have hk : k ≠ k' := by
      rintro rfl
      exact hidle i hpending
    show Function.update w.timer k' none k = some id
    rw [Function.update_of_ne hk]
    exact hrec id hlive hid
  | drop => exact hrec id hlive hid

end Step

variable {w w' : TimedWatch κ τ} {l : Label κ} {t t' : τ}

/-- **`OnTime` is kept** by every step but one that hears from the key of the timer that has been
picked up. -/
lemma TimedStep.onTime [Preorder τ] (h : TimedStep w l t' w') (hc : w.watch.Current)
    (ho : w.OnTime t) (hle : t ≤ t')
    (hl : ∀ k id, l = .heard k → w.watch.pending ≠ some (id, k)) : w'.OnTime t' := by
  constructor
  · intro p hlive hp
    have hrec := (h.step.current hc hl).armed p hlive hp
    by_cases heard : l = .heard p.2
    · exact h.started p.1 p.2 heard hlive hp hrec
    · obtain ⟨hlive', hp'⟩ := h.step.armed_of_ne hlive hp heard
      rw [h.due p hlive hp heard, h.deadline p.2 heard]
      exact ho.armed p hlive' hp'
  · intro id k hpending
    rcases h.step.pending_cases hpending with hold | ⟨rfl, hlive, hid⟩
    · rw [h.deadline k fun heard => hl k id heard hold]
      exact (ho.pending id k hold).trans hle
    · rw [h.deadline k (by rintro ⟨⟩), ← ho.armed (id, k) hlive hid]
      exact h.expire id k rfl hpending

/-- **A guarded key stays guarded** as long as no timer is picked up at or after its deadline. -/
lemma TimedStep.guarded [Preorder τ] {k : κ} (h : TimedStep w l t w') (hg : w.Guarded k)
    (hl : l = .expire → t < w.deadline k) : w'.Guarded k := by
  have hrec : ∀ id, (id, k) ∈ w'.watch.live → id ∈ w'.watch.armed → w'.watch.timer k = some id :=
    fun id => h.step.recorded_at hg.recorded hg.pending
  refine ⟨hrec, fun id hlive hid => ?_, fun id hpending => ?_⟩
  · by_cases heard : l = .heard k
    · exact h.started id k heard hlive hid (hrec id hlive hid)
    · obtain ⟨hlive', hid'⟩ := h.step.armed_of_ne hlive hid heard
      rw [h.due (id, k) hlive hid heard, h.deadline k heard]
      exact hg.due id hlive' hid'
  · rcases h.step.pending_cases hpending with hold | ⟨rfl, hlive, hid⟩
    · exact hg.pending id hold
    · have hdue := h.expire id k rfl hpending
      rw [hg.due id hlive hid] at hdue
      exact absurd (lt_of_le_of_lt hdue (hl rfl)) (lt_irrefl _)

/-- A guarded key is not removed. -/
lemma TimedStep.not_removed [LE τ] {k : κ} (h : TimedStep w l t w') (hg : w.Guarded k)
    (hk : w.watch.timer k ≠ none) : w'.watch.timer k ≠ none := by
  intro hk'
  obtain ⟨-, id, hpending⟩ := h.step.pending_of_removed hk hk'
  exact hg.pending id hpending

end Watchdog
