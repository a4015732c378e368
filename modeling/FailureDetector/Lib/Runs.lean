import Mathlib.Data.List.Basic

set_option relaxedAutoImplicit false
set_option autoImplicit false

/-!
# Runs of a transition system

A transition system is given by a partial step function: a state and an action determine the next
state, if the action is possible. A run is a sequence of actions that are possible one after the
other.

## Main definitions

* `Runs.run` — the state after a sequence of actions, if it is a run.
* `Runs.Along` — a property of every action of a run and the state before it.
* `Runs.countAlong` — how many actions of a run have such a property.

## Main results

* `Runs.run_invariant` — what every step preserves holds after every run.
* `Runs.run_invariant_along` — the same for runs whose steps all meet a condition.
* `Runs.exists_run_along` — when a run of such steps is possible.
* `Runs.exists_last_step` — the step of a run in which something stops holding.
* `Runs.run_simulates` — a run whose steps are simulated is simulated.
* `Runs.exists_run_to` — a run to a state in which something holds.
-/

namespace Runs

variable {σ α : Type*} (step : σ → α → Option σ)

/-- The state after a sequence of actions, if each is possible after those before it. -/
def run (s : σ) : List α → Option σ
  | [] => some s
  | a :: as => (step s a).bind fun s' => run s' as

variable {step} {s s' : σ} {a : α} {as bs : List α}

/-- A run of one action. -/
lemma run_singleton : run step s [a] = step s a := Option.bind_fun_some _

/-- A run that begins with `a`. -/
lemma run_cons_eq_some : run step s (a :: as) = some s' ↔
    ∃ t, step s a = some t ∧ run step t as = some s' := Option.bind_eq_some_iff

/-- A run continues from the state that its first part leads to. -/
lemma run_append : run step s (as ++ bs) = (run step s as).bind fun t => run step t bs := by
  induction as generalizing s with
  | nil => rfl
  | cons a as ih =>
    rw [List.cons_append, run, run]
    cases h : step s a with
    | none => rfl
    | some t => exact ih

/-- A run that ends with `a`. -/
lemma run_concat_eq_some : run step s (as ++ [a]) = some s' ↔
    ∃ t, run step s as = some t ∧ step t a = some s' := by
  rw [run_append, Option.bind_eq_some_iff]
  simp only [run_singleton]

/-- A run in two parts. -/
lemma run_append_eq_some : run step s (as ++ bs) = some s' ↔
    ∃ t, run step s as = some t ∧ run step t bs = some s' := by
  rw [run_append, Option.bind_eq_some_iff]

/-- **What every step preserves holds after every run**, for steps with actions that satisfy
`ok`. -/
lemma run_invariant (inv : σ → Prop) {ok : α → Prop}
    (hstep : ∀ s a s', inv s → ok a → step s a = some s' → inv s') (hs : inv s)
    (hok : ∀ a ∈ as, ok a) (hrun : run step s as = some s') : inv s' := by
  induction as generalizing s with
  | nil =>
    cases hrun
    exact hs
  | cons a as ih =>
    obtain ⟨t, ht, hrun⟩ := run_cons_eq_some.mp hrun
    exact ih (hstep s a t hs (hok a List.mem_cons_self) ht)
      (fun b hb => hok b (List.mem_cons_of_mem _ hb)) hrun

variable (step) in
/-- A property of every action of a run and the state before it. -/
def Along (P : σ → α → Prop) (s : σ) (as : List α) : Prop :=
  ∀ pre a post t, as = pre ++ a :: post → run step s pre = some t → P t a

/-- There is no action in an empty run. -/
lemma along_nil {P : σ → α → Prop} : Along step P s [] := by
  intro pre a post t heq
  exact absurd heq.symm (List.append_ne_nil_of_right_ne_nil _ (List.cons_ne_nil _ _))

/-- A property along a run holds of the first action, and along the rest. -/
lemma along_cons {P : σ → α → Prop} :
    Along step P s (a :: as) ↔ P s a ∧ ∀ t, step s a = some t → Along step P t as := by
  constructor
  · intro h
    refine ⟨h [] a as s rfl rfl, fun t ht pre b post u heq hrun => ?_⟩
    refine h (a :: pre) b post u (by rw [heq, List.cons_append]) ?_
    exact run_cons_eq_some.mpr ⟨t, ht, hrun⟩
  · rintro ⟨ha, hrest⟩ pre b post u heq hrun
    cases pre with
    | nil =>
      cases heq
      cases hrun
      exact ha
    | cons c pre =>
      cases heq
      obtain ⟨t, ht, hrun⟩ := run_cons_eq_some.mp hrun
      exact hrest t ht pre b post u rfl hrun

/-- Where a sequence with one more action splits at an action: at the last one or before it. -/
lemma concat_eq_append_cons {c : α} {pre post : List α} :
    as ++ [c] = pre ++ a :: post ↔
      (as = pre ∧ c = a ∧ post = []) ∨ ∃ post', as = pre ++ a :: post' ∧ post = post' ++ [c] := by
  constructor
  · intro h
    rcases List.eq_nil_or_concat post with rfl | ⟨post', b, rfl⟩
    · obtain ⟨rfl, hca⟩ := List.append_inj' h rfl
      exact Or.inl ⟨rfl, List.singleton_inj.mp hca, rfl⟩
    · rw [List.concat_eq_append, ← List.cons_append, ← List.append_assoc] at h
      obtain ⟨rfl, hcb⟩ := List.append_inj' h rfl
      obtain rfl := List.singleton_inj.mp hcb
      exact Or.inr ⟨post', rfl, List.concat_eq_append⟩
  · rintro (⟨rfl, rfl, rfl⟩ | ⟨post', rfl, rfl⟩)
    · rfl
    · rw [List.append_assoc, List.cons_append]

/-- A property along a run with one more action holds along the run and of that action. -/
lemma along_concat {P : σ → α → Prop} :
    Along step P s (as ++ [a]) ↔
      Along step P s as ∧ ∀ t, run step s as = some t → P t a := by
  constructor
  · intro h
    refine ⟨fun pre b post t heq hrun => h pre b (post ++ [a]) t ?_ hrun, fun t hrun => ?_⟩
    · rw [heq, List.append_assoc, List.cons_append]
    · exact h as a [] t rfl hrun
  · rintro ⟨has, ha⟩ pre b post t heq hrun
    rcases concat_eq_append_cons.mp heq with ⟨rfl, rfl, -⟩ | ⟨post', heq', -⟩
    · exact ha t hrun
    · exact has pre b post' t heq' hrun

/-- A property along a run holds along its first part. -/
lemma Along.of_append {P : σ → α → Prop} (h : Along step P s (as ++ bs)) : Along step P s as := by
  rintro pre a post t rfl hrun
  exact h pre a (post ++ bs) t (List.append_assoc _ _ _) hrun

/-- **What every step that meets the condition `P` preserves** holds after every run along which
`P` holds. -/
lemma run_invariant_along (inv : σ → Prop) {P : σ → α → Prop}
    (hstep : ∀ s a s', inv s → P s a → step s a = some s' → inv s') (hs : inv s)
    (halong : Along step P s as) (hrun : run step s as = some s') : inv s' := by
  induction as generalizing s with
  | nil =>
    cases hrun
    exact hs
  | cons a as ih =>
    obtain ⟨t, ht, hrun⟩ := run_cons_eq_some.mp hrun
    obtain ⟨hP, hrest⟩ := along_cons.mp halong
    exact ih (hstep s a t hs hP ht) (hrest t ht) hrun

/-- **A run along which `P` holds is possible** if every step that meets `P` is, in the states that
such steps lead to. -/
lemma exists_run_along (inv : σ → Prop) {P : σ → α → Prop}
    (hstep : ∀ s a, inv s → P s a → ∃ s', step s a = some s' ∧ inv s') (hs : inv s)
    (halong : Along step P s as) : ∃ s', run step s as = some s' ∧ inv s' := by
  induction as generalizing s with
  | nil => exact ⟨s, rfl, hs⟩
  | cons a as ih =>
    obtain ⟨hP, hrest⟩ := along_cons.mp halong
    obtain ⟨t, ht, hinv⟩ := hstep s a hs hP
    obtain ⟨s', hrun, hinv'⟩ := ih hinv (hrest t ht)
    exact ⟨s', run_cons_eq_some.mpr ⟨t, ht, hrun⟩, hinv'⟩

/-- **What holds before a run and not after it** stops holding in one of its steps. -/
lemma exists_last_step (P : σ → Prop) (hs : P s) (hs' : ¬ P s') (hrun : run step s as = some s') :
    ∃ pre a post t t', as = pre ++ a :: post ∧ run step s pre = some t ∧ step t a = some t' ∧
      P t ∧ ¬ P t' := by
  induction as generalizing s with
  | nil =>
    cases hrun
    exact absurd hs hs'
  | cons a as ih =>
    obtain ⟨t, ht, hrest⟩ := run_cons_eq_some.mp hrun
    by_cases hP : P t
    · obtain ⟨pre, b, post, u, u', rfl, hpre, hb, hu, hu'⟩ := ih hP hrest
      exact ⟨a :: pre, b, post, u, u', rfl, run_cons_eq_some.mpr ⟨t, ht, hpre⟩, hb, hu, hu'⟩
    · exact ⟨[], a, as, s, t, rfl, rfl, ht, hs, hP⟩

/-- **A run is simulated by another system** if each of its steps that meet `P` leaves every related
state related, or is simulated there by a step that meets `Q`. -/
lemma run_simulates {τ β : Type*} {step' : τ → β → Option τ} (R : σ → τ → Prop)
    {P : σ → α → Prop} {Q : τ → β → Prop}
    (hstep : ∀ s t a s', R s t → P s a → step s a = some s' →
      R s' t ∨ ∃ b t', Q t b ∧ step' t b = some t' ∧ R s' t')
    {t : τ} (hR : R s t) (halong : Along step P s as) (hrun : run step s as = some s') :
    ∃ bs t', run step' t bs = some t' ∧ Along step' Q t bs ∧ R s' t' := by
  induction as generalizing s t with
  | nil =>
    cases hrun
    exact ⟨[], t, rfl, along_nil, hR⟩
  | cons a as ih =>
    obtain ⟨s₁, hs₁, hrun⟩ := run_cons_eq_some.mp hrun
    obtain ⟨hP, hrest⟩ := along_cons.mp halong
    rcases hstep s t a s₁ hR hP hs₁ with hR₁ | ⟨b, t₁, hQ, ht₁, hR₁⟩
    · exact ih hR₁ (hrest s₁ hs₁) hrun
    · obtain ⟨bs, t', hbs, hQs, hR'⟩ := ih hR₁ (hrest s₁ hs₁) hrun
      refine ⟨b :: bs, t', run_cons_eq_some.mpr ⟨t₁, ht₁, hbs⟩,
        along_cons.mpr ⟨hQ, fun u hu => ?_⟩, hR'⟩
      obtain rfl := Option.some.inj (ht₁.symm.trans hu)
      exact hQs

/-- **What decreases comes to an end**: if from every state that satisfies `inv`, but not `goal`, an
action that satisfies `ok` leads to one in which `inv` holds and `left` is smaller, then such
actions lead to a state that satisfies `goal`. -/
lemma exists_run_to (inv goal : σ → Prop) {ok : α → Prop} (left : σ → ℕ)
    (hstep : ∀ s, inv s → ¬ goal s →
      ∃ a s', ok a ∧ step s a = some s' ∧ inv s' ∧ left s' < left s) (hs : inv s) :
    ∃ as s', (∀ a ∈ as, ok a) ∧ run step s as = some s' ∧ inv s' ∧ goal s' := by
  induction hleft : left s using Nat.strongRecOn generalizing s with
  | ind n ih =>
    by_cases hgoal : goal s
    · exact ⟨[], s, fun _ ha => absurd ha List.not_mem_nil, rfl, hs, hgoal⟩
    · obtain ⟨a, t, ha, ht, hinv, hlt⟩ := hstep s hs hgoal
      obtain ⟨as, s', has, hrun, hs', hgoal'⟩ := ih (left t) (hleft ▸ hlt) hinv rfl
      refine ⟨a :: as, s', fun b hb => ?_, run_cons_eq_some.mpr ⟨t, ht, hrun⟩, hs', hgoal'⟩
      rcases List.mem_cons.mp hb with rfl | hb
      · exact ha
      · exact has b hb

/-! ### Counting -/

variable (step) in
/-- The number of actions in a run that satisfy `p` in the state before them. -/
def countAlong (p : σ → α → Bool) (s : σ) : List α → ℕ
  | [] => 0
  | a :: as => (p s a).toNat + ((step s a).map fun s' => countAlong p s' as).getD 0

/-- A run with one more action. -/
lemma countAlong_concat {p : σ → α → Bool} (hrun : run step s as = some s') :
    countAlong step p s (as ++ [a]) = countAlong step p s as + (p s' a).toNat := by
  induction as generalizing s with
  | nil =>
    cases hrun
    rw [List.nil_append, countAlong, countAlong, Nat.zero_add]
    cases step s' a with
    | none => rfl
    | some t => exact Nat.add_zero _
  | cons b as ih =>
    obtain ⟨t, ht, hrun⟩ := run_cons_eq_some.mp hrun
    rw [List.cons_append, countAlong, countAlong, ht, Option.map_some, Option.getD_some,
      Option.map_some, Option.getD_some, ih hrun, Nat.add_assoc]

/-- There are no more of them than actions. -/
lemma countAlong_le_length (p : σ → α → Bool) (s : σ) (as : List α) :
    countAlong step p s as ≤ as.length := by
  induction as generalizing s with
  | nil => exact Nat.le_refl 0
  | cons a as ih =>
    have hone := Bool.toNat_le (p s a)
    rw [countAlong, List.length_cons]
    cases step s a with
    | none =>
      rw [Option.map_none, Option.getD_none]
      omega
    | some t =>
      have := ih t
      rw [Option.map_some, Option.getD_some]
      omega

end Runs
