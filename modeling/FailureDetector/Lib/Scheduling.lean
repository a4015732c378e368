import FailureDetector.Lib.Locking
import Mathlib.Algebra.BigOperators.Ring.Finset
import Mathlib.Algebra.Order.BigOperators.Group.Finset

set_option relaxedAutoImplicit false
set_option autoImplicit false

/-!
# Threads that are scheduled

Every thread has a list of actions to take. The first thread creates the others, and in the end it
cancels each of them and waits for it. Whenever it is a thread's turn, it takes its next action if
that is possible. A mutex is taken in two moves: the thread calls for it, and is given it once
nobody holds it. A thread can be cancelled where it is at a cancellation point, and not while it
waits for a mutex.

Initialising and destroying a mutex says nothing about who holds it, so a mutex that is used before
it is initialised, or after it was destroyed, works as any other.

## Main definitions

* `Locking.Sched` — how far the threads have come, and who holds the mutexes.
* `Locking.Sched.step` — the moves.
* `Locking.WellSpawned` — threads are created by the first one, and before it waits for them.
* `Locking.Sched.Underway` — what holds of all states of a schedule.
* `Locking.Sched.StuckWith` — a thread waits for a mutex that it holds itself.

## Main results

* `Locking.Sched.run_underway` — every state of a schedule is underway.
* `Locking.Sched.length_le_of_run` — no schedule goes on for ever.
* `Locking.Sched.run_private` — whether a mutex that one thread uses is held follows from what that
  thread has done.
* `Locking.Sched.StuckWith.run` — a thread that waits for a mutex of its own never goes on.
-/

namespace Locking

open Runs

variable {τ μ : Type*}

/-- How far the threads have come, and who holds the mutexes. -/
structure Sched (τ μ : Type*) where
  /-- What has happened. -/
  trace : Trace τ μ
  /-- What each thread still has to do. -/
  rest : τ → List (Op τ μ)
  created : τ → Bool
  /-- Whether a thread has called for the mutex that it locks next. -/
  called : τ → Bool
  owner : μ → Option τ

/-- What the scheduler lets happen. -/
inductive Move (τ : Type*)
  /-- A thread calls for the mutex that it locks next. -/
  | call (t : τ)
  /-- A thread takes its next action. -/
  | act (t : τ)
  /-- A thread is cancelled. -/
  | cancel (t : τ)
  deriving DecidableEq

section Definitions

variable [DecidableEq τ] [DecidableEq μ]

/-- Only the first thread exists, and nothing has happened. -/
def Sched.start (first : τ) (code : τ → List (Op τ μ)) : Sched τ μ where
  trace := []
  rest := code
  created := fun t => decide (t = first)
  called := fun _ => false
  owner := fun _ => none

/-- Whether a thread can take an action. -/
def Sched.enabled (s : Sched τ μ) (t : τ) : Op τ μ → Bool
  | .lock m => s.called t && (s.owner m).isNone
  | .join t' => (s.rest t').isEmpty
  | _ => true

/-- Who holds the mutexes after an action. -/
def ownerStep (owner : μ → Option τ) (t : τ) : Op τ μ → μ → Option τ
  | .lock m => Function.update owner m (some t)
  | .unlock m => Function.update owner m none
  | _ => owner

/-- Which threads exist after an action. -/
def createdStep (created : τ → Bool) : Op τ μ → τ → Bool
  | .create t => Function.update created t true
  | _ => created

/-- A thread has taken an action, and the others follow. -/
def Sched.advance (s : Sched τ μ) (t : τ) (op : Op τ μ) (ops : List (Op τ μ)) : Sched τ μ where
  trace := s.trace ++ [(t, op)]
  rest := Function.update s.rest t ops
  created := createdStep s.created op
  called := Function.update s.called t false
  owner := ownerStep s.owner t op

/-- One move. The first thread cancels a thread before it waits for it, and `point` says where a
thread can be cancelled. -/
def Sched.step (first : τ) (point : τ → List (Op τ μ) → Bool) (s : Sched τ μ) :
    Move τ → Option (Sched τ μ)
  | .call t =>
    match s.rest t with
    | .lock _ :: _ =>
      if s.created t = true ∧ s.called t = false then
        some { s with called := Function.update s.called t true }
      else none
    | _ => none
  | .act t =>
    match s.rest t with
    | [] => none
    | op :: ops =>
      if s.created t = true ∧ s.enabled t op = true then some (s.advance t op ops) else none
  | .cancel t =>
    if (s.rest first).head? = some (.join t) ∧ s.called t = false ∧ (s.rest t).isEmpty = false ∧
        point t (s.rest t) = true then
      some { s with rest := Function.update s.rest t [] }
    else none

/-- Threads are created by the first one, which creates others only, and before it waits for
them. -/
structure WellSpawned (first : τ) (code : τ → List (Op τ μ)) : Prop where
  others : ∀ t ≠ first, ∀ t', .create t' ∉ code t ∧ .join t' ∉ code t
  created : ∀ pre t post, code first = pre ++ .join t :: post → .create t ∈ pre
  ne_first : .create first ∉ code first

/-- **What holds of all states of a schedule.** -/
structure Sched.Underway (first : τ) (code : τ → List (Op τ μ)) (s : Sched τ μ) : Prop where
  /-- A thread has done a part of what it was to do, and the rest remains unless it was
  cancelled. -/
  done : ∀ t, opsOf t s.trace ++ s.rest t = code t ∨
    (s.rest t = [] ∧ opsOf t s.trace <+: code t)
  doneFirst : opsOf first s.trace ++ s.rest first = code first
  called : ∀ t, s.called t = true → ∃ m ops, s.rest t = .lock m :: ops
  created : ∀ t, s.created t = true ↔ t = first ∨ (first, .create t) ∈ s.trace
  joined : ∀ t, (first, .join t) ∈ s.trace → s.rest t = []
  locked : ∀ m t, s.owner m = some t → (t, .lock m) ∈ s.trace
  spawned : Spawned first s.trace

/-- A mutex is held after one more action of the only thread that uses it. -/
def privateStep (m : μ) (held : Bool) : Op τ μ → Option Bool
  | .lock m' => if m' = m then (if held then none else some true) else some held
  | .unlock m' => if m' = m then some false else some held
  | _ => some held

/-- A thread waits for a mutex that it holds itself, and nobody else would release. -/
structure Sched.StuckWith (t : τ) (m : μ) (s : Sched τ μ) : Prop where
  called : s.called t = true
  rest : ∃ ops, s.rest t = .lock m :: ops
  owner : s.owner m = some t
  others : ∀ t' ≠ t, .unlock m ∉ s.rest t'

/-- A thread can call for the mutex it needs, or take its next action. -/
def Sched.CanMove (first : τ) (point : τ → List (Op τ μ) → Bool) (s : Sched τ μ) (t : τ) : Prop :=
  (s.step first point (.call t)).isSome ∨ (s.step first point (.act t)).isSome

end Definitions

/-! ### Traces with one more action -/

/-- Threads act while they are spawned, after one more action. -/
lemma Spawned.concat {first : τ} {trace : Trace τ μ} (h : Spawned first trace) {t : τ} {op : Op τ μ}
    (ht : t = first ∨ ((first, .create t) ∈ trace ∧ (first, .join t) ∉ trace)) :
    Spawned first (trace ++ [(t, op)]) := by
  intro pre t' op' post heq
  rcases concat_eq_append_cons.mp heq with ⟨rfl, hlast, -⟩ | ⟨post', heq', -⟩
  · cases hlast
    exact ht
  · exact h pre t' op' post' heq'

/-- What a thread has done after one more action. -/
lemma opsOf_concat [DecidableEq τ] (t t' : τ) (op : Op τ μ) (trace : Trace τ μ) :
    opsOf t' (trace ++ [(t, op)]) = opsOf t' trace ++ if t = t' then [op] else [] := by
  rw [opsOf_append]
  by_cases h : t = t'
  · subst h
    rw [opsOf_cons_self, if_pos rfl]
    rfl
  · rw [if_neg h]
    simp [opsOf, h]

/-! ### All states of a schedule -/

/-- An action of a thread that is not the first one creates nothing and waits for nothing. -/
lemma WellSpawned.op_of_ne {first : τ} {code : τ → List (Op τ μ)}
    (hcode : WellSpawned first code) {t : τ} (ht : t ≠ first) {op : Op τ μ}
    (hop : op ∈ code t) : ∀ t', op ≠ .create t' ∧ op ≠ .join t' := by
  intro t'
  obtain ⟨hcreate, hjoin⟩ := hcode.others t ht t'
  constructor
  · rintro rfl
    exact hcreate hop
  · rintro rfl
    exact hjoin hop

section States

variable [DecidableEq τ] {first : τ} {code : τ → List (Op τ μ)} {s : Sched τ μ}

/-- At the start. -/
lemma Sched.underway_start (first : τ) (code : τ → List (Op τ μ)) :
    (Sched.start first code).Underway first code where
  done := fun t => Or.inl rfl
  doneFirst := rfl
  called := by
    intro t h
    cases h
  created := by
    intro t
    simp [Sched.start]
  joined := by
    intro t h
    cases h
  locked := by
    intro m t h
    cases h
  spawned := by
    intro pre t op post heq
    exact absurd heq.symm (List.append_ne_nil_of_right_ne_nil _ (List.cons_ne_nil _ _))

/-- What a thread does next is among what it is to do. -/
lemma Sched.Underway.mem_code (h : s.Underway first code) {t : τ} {op : Op τ μ}
    (hop : op ∈ s.rest t) : op ∈ code t := by
  rcases h.done t with hdone | ⟨hnil, -⟩
  · rw [← hdone]
    exact List.mem_append_right _ hop
  · rw [hnil] at hop
    cases hop

/-- What a thread has done is among what it was to do. -/
lemma Sched.Underway.mem_code_of_trace (h : s.Underway first code) {t : τ} {op : Op τ μ}
    (hop : (t, op) ∈ s.trace) : op ∈ code t := by
  have hmem : op ∈ opsOf t s.trace := mem_opsOf.mpr hop
  rcases h.done t with hdone | ⟨-, hpre⟩
  · rw [← hdone]
    exact List.mem_append_left _ hmem
  · exact hpre.subset hmem

/-- The first thread waits only for others that it has created. -/
lemma Sched.Underway.created_of_join (h : s.Underway first code) (hcode : WellSpawned first code)
    {t : τ} {ops : List (Op τ μ)} (hrest : s.rest first = .join t :: ops) :
    t ≠ first ∧ s.created t = true := by
  have hdone := h.doneFirst
  rw [hrest] at hdone
  have hcreate := hcode.created _ t ops hdone.symm
  constructor
  · rintro rfl
    refine hcode.ne_first ?_
    rw [← hdone]
    exact List.mem_append_left _ hcreate
  · exact (h.created t).mpr (Or.inr (mem_opsOf.mp hcreate))

/-- A thread that has something to do has done the rest. -/
lemma Sched.Underway.done_of_ne_nil (h : s.Underway first code) {t : τ} (ht : s.rest t ≠ []) :
    opsOf t s.trace ++ s.rest t = code t := by
  rcases h.done t with hdone | ⟨hnil, -⟩
  · exact hdone
  · exact absurd hnil ht

/-- Cancelling a thread keeps what holds of all states of a schedule. -/
lemma Sched.Underway.cancel (hcode : WellSpawned first code) (h : s.Underway first code) {t : τ}
    {ops : List (Op τ μ)} (hfirst : s.rest first = .join t :: ops) (hcalled : s.called t = false) :
    Sched.Underway first code { s with rest := Function.update s.rest t [] } := by
  obtain ⟨ht, -⟩ := h.created_of_join hcode hfirst
  constructor
  · intro t'
    show opsOf t' s.trace ++ Function.update s.rest t [] t' = code t' ∨
      (Function.update s.rest t [] t' = [] ∧ opsOf t' s.trace <+: code t')
    by_cases ht' : t' = t
    · subst ht'
      rw [Function.update_self]
      refine Or.inr ⟨rfl, ?_⟩
      rcases h.done t' with hdone | ⟨-, hpre⟩
      · exact ⟨_, hdone⟩
      · exact hpre
    · rw [Function.update_of_ne ht']
      exact h.done t'
  · show opsOf first s.trace ++ Function.update s.rest t [] first = code first
    rw [Function.update_of_ne (Ne.symm ht)]
    exact h.doneFirst
  · intro t' ht'
    obtain ⟨m, ops', hrest'⟩ := h.called t' ht'
    have hne : t' ≠ t := by
      rintro rfl
      rw [hcalled] at ht'
      cases ht'
    exact ⟨m, ops', (Function.update_of_ne hne _ _).trans hrest'⟩
  · exact h.created
  · intro t' hjoin
    show Function.update s.rest t [] t' = []
    by_cases ht' : t' = t
    · subst ht'
      rw [Function.update_self]
    · rw [Function.update_of_ne ht']
      exact h.joined t' hjoin
  · exact h.locked
  · exact h.spawned

end States

/-! ### Moves -/

section Moves

variable [DecidableEq τ] [DecidableEq μ] {first : τ} {point : τ → List (Op τ μ) → Bool}
  {code : τ → List (Op τ μ)} {s s' : Sched τ μ}

/-- What a move can do. -/
inductive Sched.Moved (first : τ) (point : τ → List (Op τ μ) → Bool) (s : Sched τ μ) :
    Move τ → Sched τ μ → Prop
  | call (t : τ) (m : μ) (ops : List (Op τ μ)) (hrest : s.rest t = .lock m :: ops)
      (hcreated : s.created t = true) (hcalled : s.called t = false) :
      Sched.Moved first point s (.call t) { s with called := Function.update s.called t true }
  | act (t : τ) (op : Op τ μ) (ops : List (Op τ μ)) (hrest : s.rest t = op :: ops)
      (hcreated : s.created t = true) (henabled : s.enabled t op = true) :
      Sched.Moved first point s (.act t) (s.advance t op ops)
  | cancel (t : τ) (ops : List (Op τ μ)) (hfirst : s.rest first = .join t :: ops)
      (hcalled : s.called t = false) (hrest : s.rest t ≠ [])
      (hpoint : point t (s.rest t) = true) :
      Sched.Moved first point s (.cancel t) { s with rest := Function.update s.rest t [] }

/-- A step is one of these moves. -/
lemma Sched.moved_of_step {mv : Move τ} (h : s.step first point mv = some s') :
    s.Moved first point mv s' := by
  cases mv with
  | call t =>
    rw [Sched.step] at h
    split at h
    · next m ops hrest =>
      rw [Option.ite_none_right_eq_some] at h
      obtain ⟨⟨hcreated, hcalled⟩, hs'⟩ := h
      cases hs'
      exact Moved.call t m ops hrest hcreated hcalled
    · cases h
  | act t =>
    rw [Sched.step] at h
    split at h
    · cases h
    · next op ops hrest =>
      rw [Option.ite_none_right_eq_some] at h
      obtain ⟨⟨hcreated, henabled⟩, hs'⟩ := h
      cases hs'
      exact Moved.act t op ops hrest hcreated henabled
  | cancel t =>
    rw [Sched.step, Option.ite_none_right_eq_some] at h
    obtain ⟨⟨hfirst, hcalled, hrest, hpoint⟩, hs'⟩ := h
    cases hs'
    obtain ⟨ops, hfirst⟩ := List.head?_eq_some_iff.mp hfirst
    exact Moved.cancel t ops hfirst hcalled (by simpa using hrest) hpoint

/-- A thread that exists and need not wait can move. -/
lemma Sched.canMove_of_enabled {t : τ} {op : Op τ μ} {ops : List (Op τ μ)}
    (hcreated : s.created t = true) (hrest : s.rest t = op :: ops)
    (henabled : s.enabled t op = true) : s.CanMove first point t := by
  right
  rw [Sched.step, hrest]
  simp [hcreated, henabled]

/-- A thread that has not called for the mutex it needs can move. -/
lemma Sched.canMove_of_not_called {t : τ} {m : μ} {ops : List (Op τ μ)}
    (hcreated : s.created t = true) (hrest : s.rest t = .lock m :: ops)
    (hcalled : s.called t = false) : s.CanMove first point t := by
  left
  rw [Sched.step, hrest]
  simp [hcreated, hcalled]

/-- A thread that can move where it waits for another one need not wait. -/
lemma Sched.CanMove.rest_of_join {t t' : τ} (h : s.CanMove first point t)
    (hrest : (s.rest t).head? = some (.join t')) : s.rest t' = [] := by
  obtain ⟨ops, hrest⟩ := List.head?_eq_some_iff.mp hrest
  rcases h with hcall | hact
  · rw [Sched.step, hrest] at hcall
    cases hcall
  · rw [Sched.step, hrest] at hact
    obtain ⟨s', hact⟩ := Option.isSome_iff_exists.mp hact
    rw [Option.ite_none_right_eq_some] at hact
    exact List.isEmpty_iff.mp hact.1.2

/-- What a thread still has to do only gets less. -/
lemma Sched.Moved.rest_subset {mv : Move τ} (h : s.Moved first point mv s') (t : τ) :
    s'.rest t ⊆ s.rest t := by
  cases h with
  | call t' m ops => exact List.Subset.refl _
  | act t' op ops hrest =>
    show Function.update s.rest t' ops t ⊆ s.rest t
    by_cases ht : t = t'
    · subst ht
      rw [Function.update_self, hrest]
      exact List.subset_cons_self _ _
    · rw [Function.update_of_ne ht]
      exact List.Subset.refl _
  | cancel t' ops hfirst hcalled hrest =>
    show Function.update s.rest t' [] t ⊆ s.rest t
    by_cases ht : t = t'
    · subst ht
      rw [Function.update_self]
      exact List.nil_subset _
    · rw [Function.update_of_ne ht]
      exact List.Subset.refl _

/-- What a thread has done and what it still has to do stay the same together. -/
lemma Sched.done_advance {t : τ} {op : Op τ μ} {ops : List (Op τ μ)} (hrest : s.rest t = op :: ops)
    (t' : τ) : opsOf t' (s.advance t op ops).trace ++ (s.advance t op ops).rest t' =
      opsOf t' s.trace ++ s.rest t' := by
  show opsOf t' (s.trace ++ [(t, op)]) ++ Function.update s.rest t ops t' =
    opsOf t' s.trace ++ s.rest t'
  by_cases ht : t' = t
  · subst ht
    rw [opsOf_concat, if_pos rfl, Function.update_self, hrest, List.append_assoc]
    rfl
  · rw [opsOf_concat, if_neg (Ne.symm ht), List.append_nil, Function.update_of_ne ht]

/-- **An action** keeps what holds of all states of a schedule. -/
lemma Sched.Underway.advance (hcode : WellSpawned first code) (h : s.Underway first code) {t : τ}
    {op : Op τ μ} {ops : List (Op τ μ)} (hrest : s.rest t = op :: ops)
    (hcreated : s.created t = true) (henabled : s.enabled t op = true) :
    (s.advance t op ops).Underway first code := by
  have hop : op ∈ code t := h.mem_code (by simp [hrest])
  have hne : s.rest t ≠ [] := by simp [hrest]
  have hdone : ∀ t', s.rest t' = [] → t' ≠ t := by
    rintro t' hnil rfl
    exact hne hnil
  constructor
  · intro t'
    rw [done_advance hrest]
    refine (h.done t').imp id fun ⟨hnil, hpre⟩ => ?_
    have ht' := hdone t' hnil
    refine ⟨(Function.update_of_ne ht' _ _).trans hnil, ?_⟩
    show opsOf t' (s.trace ++ [(t, op)]) <+: code t'
    rw [opsOf_concat, if_neg (Ne.symm ht'), List.append_nil]
    exact hpre
  · rw [done_advance hrest]
    exact h.doneFirst
  · intro t' (hcalled : Function.update s.called t false t' = true)
    have ht' : t' ≠ t := by
      rintro rfl
      simp at hcalled
    obtain ⟨m, ops', hrest'⟩ := h.called t' (by simpa [ht'] using hcalled)
    exact ⟨m, ops', (Function.update_of_ne ht' _ _).trans hrest'⟩
  · intro t'
    show createdStep s.created op t' = true ↔
      t' = first ∨ (first, .create t') ∈ s.trace ++ [(t, op)]
    have hold := h.created t'
    cases op with
    | create t'' =>
      have ht : t = first := by
        by_contra ht
        exact (hcode.op_of_ne ht hop t'').1 rfl
      subst ht
      by_cases ht'' : t' = t''
      · subst ht''
        simp [createdStep]
      · simp [createdStep, ht'', hold]
    | init m => simp [createdStep, hold]
    | destroy m => simp [createdStep, hold]
    | lock m => simp [createdStep, hold]
    | unlock m => simp [createdStep, hold]
    | join t'' => simp [createdStep, hold]
  · intro t' hjoin
    show Function.update s.rest t ops t' = []
    have hnil : s.rest t' = [] := by
      rcases List.mem_append.mp hjoin with hjoin | hjoin
      · exact h.joined t' hjoin
      · cases List.mem_singleton.mp hjoin
        simpa [Sched.enabled] using henabled
    rw [Function.update_of_ne (hdone t' hnil)]
    exact hnil
  · intro m t' howner
    show (t', Op.lock m) ∈ s.trace ++ [(t, op)]
    have hold : s.owner m = some t' → (t', Op.lock m) ∈ s.trace ++ [(t, op)] :=
      fun h' => List.mem_append_left _ (h.locked m t' h')
    cases op with
    | lock m' =>
      by_cases hm : m = m'
      · subst hm
        have ht : t = t' := by simpa [Sched.advance, ownerStep] using howner
        subst ht
        simp
      · refine hold ?_
        simpa [Sched.advance, ownerStep, hm] using howner
    | unlock m' =>
      by_cases hm : m = m'
      · subst hm
        simp [Sched.advance, ownerStep] at howner
      · refine hold ?_
        simpa [Sched.advance, ownerStep, hm] using howner
    | init m' => exact hold howner
    | destroy m' => exact hold howner
    | create t'' => exact hold howner
    | join t'' => exact hold howner
  · refine h.spawned.concat ?_
    rcases (h.created t).mp hcreated with hfirst | hcreate
    · exact Or.inl hfirst
    · exact Or.inr ⟨hcreate, fun hjoin => hne (h.joined t hjoin)⟩

/-- **A move** keeps what holds of all states of a schedule. -/
lemma Sched.Underway.step (hcode : WellSpawned first code) (h : s.Underway first code)
    {mv : Move τ} (hmoved : s.Moved first point mv s') : s'.Underway first code := by
  cases hmoved with
  | call t m ops hrest =>
    refine ⟨h.done, h.doneFirst, ?_, h.created, h.joined, h.locked, h.spawned⟩
    intro t' (hcalled : Function.update s.called t true t' = true)
    by_cases ht : t' = t
    · subst ht
      exact ⟨m, ops, hrest⟩
    · exact h.called t' (by simpa [ht] using hcalled)
  | act t op ops hrest hcreated henabled => exact h.advance hcode hrest hcreated henabled
  | cancel t ops hfirst hcalled => exact h.cancel hcode hfirst hcalled

/-- **Every state of a schedule is underway.** -/
lemma Sched.run_underway (hcode : WellSpawned first code) {moves : List (Move τ)}
    (h : s.Underway first code) (hrun : run (Sched.step first point) s moves = some s') :
    s'.Underway first code :=
  run_invariant (fun s => s.Underway first code)
    (fun _ _ _ h (_ : True) hstep => h.step hcode (moved_of_step hstep)) h (fun _ _ => trivial) hrun

/-- A thread that is not cancelled has done what it does not have to do any more. -/
lemma Sched.run_done {t : τ} {moves : List (Move τ)} (hmoves : .cancel t ∉ moves)
    (hrun : run (Sched.step first point) s moves = some s') :
    opsOf t s'.trace ++ s'.rest t = opsOf t s.trace ++ s.rest t := by
  refine run_invariant (fun s'' => opsOf t s''.trace ++ s''.rest t = opsOf t s.trace ++ s.rest t)
    (fun s₁ mv s₂ h (hne : mv ≠ .cancel t) hstep => ?_) rfl ?_ hrun
  · rw [← h]
    cases moved_of_step hstep with
    | call t' m ops => rfl
    | act t' op ops hrest => exact done_advance hrest t
    | cancel t' ops =>
      have ht : t ≠ t' := by
        rintro rfl
        exact hne rfl
      show opsOf t s₁.trace ++ Function.update s₁.rest t' [] t = opsOf t s₁.trace ++ s₁.rest t
      rw [Function.update_of_ne ht]
  · rintro mv hmv rfl
    exact hmoves hmv

/-! ### The length of a schedule -/

section Length

variable [Fintype τ]

/-- How many moves the threads can still make at most. -/
def Sched.left (s : Sched τ μ) : ℕ :=
  ∑ t, (2 * (s.rest t).length - if s.called t = true then 1 else 0)

/-- Every move leaves less to do. -/
lemma Sched.Moved.left_lt {mv : Move τ} (h : s.Moved first point mv s') : s'.left < s.left := by
  cases h with
  | call t m ops hrest _ hcalled =>
    refine Finset.sum_lt_sum (fun t' _ => ?_) ⟨t, Finset.mem_univ t, ?_⟩
    · by_cases ht : t' = t
      · subst ht
        simp [hcalled]
      · simp [ht]
    · simp only [hcalled, hrest, Function.update_self, List.length_cons, if_true,
        Bool.false_eq_true, if_false]
      omega
  | act t op ops hrest =>
    have hlt : 2 * ops.length < 2 * (s.rest t).length - if s.called t = true then 1 else 0 := by
      rw [hrest, List.length_cons]
      split <;> omega
    refine Finset.sum_lt_sum (fun t' _ => ?_) ⟨t, Finset.mem_univ t, ?_⟩
    · by_cases ht : t' = t
      · subst ht
        simpa [Sched.advance] using hlt.le
      · simp [Sched.advance, ht]
    · simpa [Sched.advance] using hlt
  | cancel t ops _ hcalled hrest =>
    have hpos : 0 < (s.rest t).length := List.length_pos_iff.mpr hrest
    refine Finset.sum_lt_sum (fun t' _ => ?_) ⟨t, Finset.mem_univ t, ?_⟩
    · by_cases ht : t' = t
      · subst ht
        simp
      · simp [ht]
    · simp [hcalled, hpos]

/-- The moves of a schedule and what is left after it. -/
lemma Sched.length_add_left_le {moves : List (Move τ)}
    (hrun : run (Sched.step first point) s moves = some s') :
    moves.length + s'.left ≤ s.left := by
  induction moves generalizing s with
  | nil =>
    cases hrun
    simp
  | cons mv moves ih =>
    obtain ⟨t, hstep, hrun⟩ := run_cons_eq_some.mp hrun
    have hlt := (moved_of_step hstep).left_lt
    have hle := ih hrun
    rw [List.length_cons]
    omega

/-- **No schedule goes on for ever**: it has at most two moves for every action of a thread. -/
lemma Sched.length_le_of_run {moves : List (Move τ)}
    (hrun : run (Sched.step first point) (Sched.start first code) moves = some s') :
    moves.length ≤ 2 * ∑ t, (code t).length := by
  have hle := length_add_left_le hrun
  have hstart : (Sched.start first code).left = 2 * ∑ t, (code t).length := by
    rw [Finset.mul_sum]
    rfl
  omega

end Length

/-! ### Mutexes of one thread -/

/-- **A mutex that one thread uses.** Whether it is held follows from what that thread has done.

**Proof sketch.** The other threads neither lock nor unlock it, and the thread itself is given it
only if nobody holds it. -/
lemma Sched.run_private (hcode : WellSpawned first code) {t : τ} {m : μ}
    (hothers : ∀ t' ≠ t, .lock m ∉ code t' ∧ .unlock m ∉ code t') {moves : List (Move τ)}
    (hrun : run (Sched.step first point) (Sched.start first code) moves = some s) :
    ∃ held, run (privateStep m) false (opsOf t s.trace) = some held ∧
      s.owner m = if held = true then some t else none := by
  refine (run_invariant (fun s => s.Underway first code ∧
    ∃ held, run (privateStep m) false (opsOf t s.trace) = some held ∧
      s.owner m = if held = true then some t else none)
    (fun s mv s' hinv (_ : True) hstep => ?_) ⟨underway_start first code, false, rfl, rfl⟩
    (fun _ _ => trivial) hrun).2
  obtain ⟨hunder, held, hheld, howner⟩ := hinv
  have hmoved := moved_of_step hstep
  refine ⟨hunder.step hcode hmoved, ?_⟩
  cases hmoved with
  | call t' m' ops => exact ⟨held, hheld, howner⟩
  | cancel t' ops => exact ⟨held, hheld, howner⟩
  | act t' op ops hrest _ henabled =>
    show ∃ held, run (privateStep m) false (opsOf t (s.trace ++ [(t', op)])) = some held ∧
      ownerStep s.owner t' op m = if held = true then some t else none
    have hop : op ∈ code t' := hunder.mem_code (by simp [hrest])
    by_cases ht : t' = t
    · subst ht
      rw [opsOf_concat, if_pos rfl]
      simp only [run_concat_eq_some, hheld, Option.some.injEq, exists_eq_left']
      cases op with
      | lock m' =>
        by_cases hm : m' = m
        · subst hm
          have hfree : held = false := by
            cases held with
            | false => rfl
            | true => simp [Sched.enabled, howner] at henabled
          exact ⟨true, by simp [privateStep, hfree], by simp [ownerStep]⟩
        · exact ⟨held, by simp [privateStep, hm], by simpa [ownerStep, Ne.symm hm] using howner⟩
      | unlock m' =>
        by_cases hm : m' = m
        · subst hm
          exact ⟨false, by simp [privateStep], by simp [ownerStep]⟩
        · exact ⟨held, by simp [privateStep, hm], by simpa [ownerStep, Ne.symm hm] using howner⟩
      | init m' => exact ⟨held, rfl, howner⟩
      | destroy m' => exact ⟨held, rfl, howner⟩
      | create t'' => exact ⟨held, rfl, howner⟩
      | join t'' => exact ⟨held, rfl, howner⟩
    · rw [opsOf_concat, if_neg ht, List.append_nil]
      obtain ⟨hlock, hunlock⟩ := hothers t' ht
      have hsame : ownerStep s.owner t' op m = s.owner m := by
        cases op with
        | lock m' =>
          have hm : m ≠ m' := by
            rintro rfl
            exact hlock hop
          simp [ownerStep, hm]
        | unlock m' =>
          have hm : m ≠ m' := by
            rintro rfl
            exact hunlock hop
          simp [ownerStep, hm]
        | init m' => rfl
        | destroy m' => rfl
        | create t'' => rfl
        | join t'' => rfl
      rw [hsame]
      exact ⟨held, hheld, howner⟩

/-- A thread that waits for a mutex of its own waits for it after every move. -/
lemma Sched.StuckWith.step {t : τ} {m : μ} (h : s.StuckWith t m) {mv : Move τ}
    (hmoved : s.Moved first point mv s') : s'.StuckWith t m := by
  obtain ⟨ops', hops'⟩ := h.rest
  have hothers : ∀ t' ≠ t, .unlock m ∉ s'.rest t' :=
    fun t' ht' hmem => h.others t' ht' (hmoved.rest_subset t' hmem)
  cases hmoved with
  | call t' m' ops hrest hcreated hcalled =>
    refine ⟨?_, h.rest, h.owner, h.others⟩
    show Function.update s.called t' true t = true
    by_cases ht : t = t'
    · rw [ht, Function.update_self]
    · rw [Function.update_of_ne ht]
      exact h.called
  | act t' op ops hrest hcreated henabled =>
    have ht : t ≠ t' := by
      rintro rfl
      obtain ⟨rfl, -⟩ := List.cons.inj (hops'.symm.trans hrest)
      simp [Sched.enabled, h.owner] at henabled
    refine ⟨?_, ⟨ops', ?_⟩, ?_, hothers⟩
    · show Function.update s.called t' false t = true
      rw [Function.update_of_ne ht]
      exact h.called
    · show Function.update s.rest t' ops t = .lock m :: ops'
      rw [Function.update_of_ne ht]
      exact hops'
    · show ownerStep s.owner t' op m = some t
      have howner := h.owner
      cases op with
      | lock m' =>
        have hm : m ≠ m' := by
          rintro rfl
          simp [Sched.enabled, howner] at henabled
        simpa [ownerStep, hm] using howner
      | unlock m' =>
        have hm : m ≠ m' := by
          rintro rfl
          exact h.others t' (Ne.symm ht) (by simp [hrest])
        simpa [ownerStep, hm] using howner
      | init m' => exact howner
      | destroy m' => exact howner
      | create t'' => exact howner
      | join t'' => exact howner
  | cancel t' ops hfirst hcalled hrest =>
    have ht : t ≠ t' := by
      rintro rfl
      rw [h.called] at hcalled
      cases hcalled
    refine ⟨h.called, ⟨ops', ?_⟩, h.owner, hothers⟩
    show Function.update s.rest t' [] t = .lock m :: ops'
    rw [Function.update_of_ne ht]
    exact hops'

/-- **A thread that waits for a mutex of its own never goes on.** -/
lemma Sched.StuckWith.run {t : τ} {m : μ} (h : s.StuckWith t m) {moves : List (Move τ)}
    (hrun : Runs.run (Sched.step first point) s moves = some s') : s'.StuckWith t m :=
  run_invariant (fun s => s.StuckWith t m)
    (fun _ _ _ h (_ : True) hstep => h.step (moved_of_step hstep)) h (fun _ _ => trivial) hrun

end Moves

end Locking
