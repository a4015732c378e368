import FailureDetector.Lib.Runs
import Mathlib.Data.Finset.Basic

set_option relaxedAutoImplicit false
set_option autoImplicit false

/-!
# Mutex discipline

Threads initialise, lock, unlock and destroy mutexes. A trace lists what they do in the order in
which it happens, and locking is listed when it succeeds. The discipline is that a mutex is locked
and unlocked only during its lifetime, and unlocked only by a thread that holds it. A piece of code
is balanced if it keeps to the second part and returns with the mutexes it was entered with.

## Main definitions

* `Locking.Op`, `Locking.Trace` — what threads do, and in which order.
* `Locking.Disciplined` — the mutex discipline.
* `Locking.Spawned` — threads act only between their creation and the end of waiting for them.
* `Locking.Balanced` — code that returns with the mutexes it was entered with.

## Main results

* `Locking.not_disciplined_cons_lock` — locking comes first in no disciplined trace.
* `Locking.alive_of_mem` — a mutex that was initialised and not destroyed is alive.
* `Locking.balanced_append`, `Locking.balanced_critical`, `Locking.balanced_flatten` — balanced code
  composed of balanced code.
-/

namespace Locking

open Runs

variable {τ μ : Type*}

/-- What a thread does with the mutexes `μ` and the other threads `τ`. -/
inductive Op (τ μ : Type*)
  | init (m : μ)
  | destroy (m : μ)
  /-- Locking that succeeds. -/
  | lock (m : μ)
  | unlock (m : μ)
  | create (t : τ)
  /-- The end of waiting for a thread. -/
  | join (t : τ)
  deriving DecidableEq

/-- What the threads do, in the order in which it happens. -/
abbrev Trace (τ μ : Type*) := List (τ × Op τ μ)

section Definitions

variable [DecidableEq τ] [DecidableEq μ]

/-- What one of the threads does. -/
def opsOf (t : τ) (trace : Trace τ μ) : List (Op τ μ) :=
  trace.filterMap fun e => if e.1 = t then some e.2 else none

/-! ### Lifetimes -/

/-- Whether a mutex is initialised and not destroyed, after one more action. -/
def aliveStep (m : μ) (alive : Bool) (e : τ × Op τ μ) : Bool :=
  match e.2 with
  | .init m' => if m' = m then true else alive
  | .destroy m' => if m' = m then false else alive
  | _ => alive

/-- Whether a mutex is initialised and not destroyed after some actions. -/
def alive (m : μ) (trace : Trace τ μ) : Bool := trace.foldl (aliveStep m) false

/-- The action locks or unlocks the mutex. -/
def Uses (m : μ) (e : τ × Op τ μ) : Prop := e.2 = .lock m ∨ e.2 = .unlock m

/-- The mutex is used only while it is alive. -/
def InLifetime (m : μ) (trace : Trace τ μ) : Prop :=
  ∀ pre e post, trace = pre ++ e :: post → Uses m e → alive m pre = true

/-! ### Holders -/

/-- The mutexes that a thread holds after one more action, if it may take it: it waits for ever for
a mutex that it holds itself, and must not unlock one that it does not hold. -/
def heldStep (held : Finset μ) : Op τ μ → Option (Finset μ)
  | .lock m => if m ∈ held then none else some (insert m held)
  | .unlock m => if m ∈ held then some (held.erase m) else none
  | _ => some held

/-- A thread unlocks only mutexes that it holds. -/
def HoldsWhatItUnlocks (ops : List (Op τ μ)) : Prop := ∃ held, run heldStep ∅ ops = some held

/-- **The mutex discipline**: mutexes are used only while they are alive, and unlocked only by a
thread that holds them. -/
structure Disciplined (trace : Trace τ μ) : Prop where
  lifetime : ∀ m, InLifetime m trace
  holds : ∀ t, HoldsWhatItUnlocks (opsOf t trace)

/-- Every thread but the first one acts only after it has been created by that, and before it has
been joined. -/
def Spawned (first : τ) (trace : Trace τ μ) : Prop :=
  ∀ pre t op post, trace = pre ++ (t, op) :: post →
    t = first ∨ ((first, .create t) ∈ pre ∧ (first, .join t) ∉ pre)

/-- **Balanced code** may be entered holding anything it does not lock itself, unlocks only what it
holds, and returns holding what it was entered with. -/
def Balanced (ops : List (Op τ μ)) : Prop :=
  ∀ held : Finset μ, (∀ m ∈ held, .lock m ∉ ops) → run heldStep held ops = some held

end Definitions

/-! ### Traces -/

/-- The first thread acts first. -/
lemma Spawned.head {first : τ} {e : τ × Op τ μ} {trace : Trace τ μ}
    (h : Spawned first (e :: trace)) : e.1 = first := by
  rcases h [] e.1 e.2 trace rfl with heq | ⟨hmem, -⟩
  · exact heq
  · cases hmem

section Traces

variable [DecidableEq τ]

/-- The actions of a thread in two parts of a trace. -/
lemma opsOf_append (t : τ) (trace trace' : Trace τ μ) :
    opsOf t (trace ++ trace') = opsOf t trace ++ opsOf t trace' := List.filterMap_append

/-- The actions of a thread from one of its own on. -/
lemma opsOf_cons_self (t : τ) (op : Op τ μ) (trace : Trace τ μ) :
    opsOf t ((t, op) :: trace) = op :: opsOf t trace := by
  simp [opsOf]

/-- What a thread does is in the trace. -/
lemma mem_opsOf {t : τ} {trace : Trace τ μ} {op : Op τ μ} :
    op ∈ opsOf t trace ↔ (t, op) ∈ trace := by
  rw [opsOf, List.mem_filterMap]
  constructor
  · rintro ⟨⟨t', op'⟩, hmem, heq⟩
    split at heq
    · next ht =>
      cases ht
      cases heq
      exact hmem
    · cases heq
  · intro h
    exact ⟨(t, op), h, if_pos rfl⟩

/-- A thread that acts alone does what is in the trace. -/
lemma opsOf_map (t : τ) (ops : List (Op τ μ)) : opsOf t (ops.map (Prod.mk t)) = ops := by
  rw [opsOf, List.filterMap_map]
  simp

/-- A thread that acts alone keeps the others from doing anything. -/
lemma opsOf_map_of_ne {t t' : τ} (h : t ≠ t') (ops : List (Op τ μ)) :
    opsOf t' (ops.map (Prod.mk t)) = [] := by
  rw [opsOf, List.filterMap_map, List.filterMap_eq_nil_iff]
  intro op _
  exact if_neg h

/-- Nothing happens without the first thread. -/
lemma Spawned.eq_nil {first : τ} {trace : Trace τ μ} (h : Spawned first trace)
    (hops : opsOf first trace = []) : trace = [] := by
  cases trace with
  | nil => rfl
  | cons e trace =>
    have hmem : e.2 ∈ opsOf first (e :: trace) := by
      rw [mem_opsOf, ← h.head]
      exact List.mem_cons_self
    rw [hops] at hmem
    cases hmem

end Traces

/-! ### Discipline -/

section Discipline

variable [DecidableEq τ] [DecidableEq μ]

/-- Nothing happening is disciplined. -/
lemma disciplined_nil : Disciplined ([] : Trace τ μ) where
  lifetime := by
    intro m pre e post heq
    exact absurd heq.symm (List.append_ne_nil_of_right_ne_nil _ (List.cons_ne_nil _ _))
  holds := fun _ => ⟨∅, rfl⟩

/-- **Locking comes first in no disciplined trace.** -/
lemma not_disciplined_cons_lock (t : τ) (m : μ) (trace : Trace τ μ) :
    ¬ Disciplined ((t, .lock m) :: trace) := by
  intro h
  have halive := h.lifetime m [] (t, .lock m) trace rfl (Or.inl rfl)
  cases halive

end Discipline

section Code

variable [DecidableEq μ]

/-- **A mutex is alive** once it has been initialised, as long as it is not destroyed. -/
lemma alive_of_mem {m : μ} {t : τ} {trace : Trace τ μ} (hinit : (t, .init m) ∈ trace)
    (hdestroy : ∀ t', (t', .destroy m) ∉ trace) : alive m trace = true := by
  induction trace using List.reverseRecOn with
  | nil => cases hinit
  | append_singleton trace e ih =>
    rw [alive, List.foldl_append]
    show aliveStep m (alive m trace) e = true
    have hlast : e.2 ≠ .destroy m := by
      intro heq
      refine hdestroy e.1 ?_
      rw [← heq]
      simp
    rcases List.mem_append.mp hinit with hmem | hmem
    · have halive := ih hmem fun t' hmem' => hdestroy t' (List.mem_append_left _ hmem')
      rw [halive]
      obtain ⟨t', op⟩ := e
      cases op with
      | init m' => simp [aliveStep]
      | destroy m' =>
        have hne : m' ≠ m := by
          rintro rfl
          exact hlast rfl
        simp [aliveStep, hne]
      | lock m' => rfl
      | unlock m' => rfl
      | create t' => rfl
      | join t' => rfl
    · obtain rfl := List.mem_singleton.mp hmem
      simp [aliveStep]

/-! ### Balanced code -/

/-- Code that does nothing is balanced. -/
lemma balanced_nil : Balanced ([] : List (Op τ μ)) := fun _ _ => rfl

/-- Two pieces of balanced code, one after the other. -/
lemma balanced_append {ops ops' : List (Op τ μ)} (h : Balanced ops) (h' : Balanced ops') :
    Balanced (ops ++ ops') := by
  intro held hfree
  rw [run_append, h held fun m hm hmem => hfree m hm (List.mem_append_left _ hmem)]
  exact h' held fun m hm hmem => hfree m hm (List.mem_append_right _ hmem)

/-- Balanced pieces of code, one after the other. -/
lemma balanced_flatten {opss : List (List (Op τ μ))} (h : ∀ ops ∈ opss, Balanced ops) :
    Balanced opss.flatten := by
  induction opss with
  | nil => exact balanced_nil
  | cons ops opss ih =>
    exact balanced_append (h ops List.mem_cons_self)
      (ih fun ops' hmem => h ops' (List.mem_cons_of_mem _ hmem))

/-- A critical section around balanced code. -/
lemma balanced_critical {m : μ} {ops : List (Op τ μ)} (h : Balanced ops) (hm : .lock m ∉ ops) :
    Balanced (.lock m :: ops ++ [.unlock m]) := by
  intro held hfree
  have hnot : m ∉ held := fun hmem => hfree m hmem (by simp)
  have hinner : ∀ m' ∈ insert m held, .lock m' ∉ ops := by
    intro m' hm' hmem
    rcases Finset.mem_insert.mp hm' with rfl | hheld
    · exact hm hmem
    · exact hfree m' hheld (by simp [hmem])
  rw [run_append, run_cons_eq_some.mpr ⟨insert m held, if_neg hnot, h _ hinner⟩]
  rw [Option.bind_some, run_singleton, heldStep, if_pos (Finset.mem_insert_self _ _),
    Finset.erase_insert hnot]

/-- Locking and unlocking is balanced. -/
lemma balanced_pair (m : μ) : Balanced ([.lock m, .unlock m] : List (Op τ μ)) :=
  balanced_critical balanced_nil (List.not_mem_nil)

/-- Other actions in front of balanced code. -/
lemma balanced_cons {op : Op τ μ} {ops : List (Op τ μ)} (h : Balanced ops)
    (hop : ∀ m, op ≠ .lock m ∧ op ≠ .unlock m) : Balanced (op :: ops) := by
  intro held hfree
  have hstep : heldStep held op = some held := by
    cases op with
    | lock m => exact absurd rfl (hop m).1
    | unlock m => exact absurd rfl (hop m).2
    | init m => rfl
    | destroy m => rfl
    | create t => rfl
    | join t => rfl
  exact run_cons_eq_some.mpr ⟨held, hstep, h held fun m hm hmem =>
    hfree m hm (List.mem_cons_of_mem _ hmem)⟩

/-- Locking without unlocking is not balanced. -/
lemma not_balanced_lock (m : μ) : ¬ Balanced ([.lock m] : List (Op τ μ)) := by
  intro h
  have hrun := h ∅ (by simp)
  rw [run_singleton, heldStep, if_neg (Finset.notMem_empty _)] at hrun
  exact Finset.insert_ne_empty m ∅ (Option.some.inj hrun)

/-- Unlocking without locking is not balanced. -/
lemma not_balanced_unlock (m : μ) : ¬ Balanced ([.unlock m] : List (Op τ μ)) := by
  intro h
  have hrun := h ∅ (by simp)
  rw [run_singleton, heldStep, if_neg (Finset.notMem_empty _)] at hrun
  cases hrun

/-- The beginning of balanced code unlocks only what it holds. -/
lemma Balanced.holds {ops ops' : List (Op τ μ)} (h : Balanced ops) (hpre : ops' <+: ops) :
    HoldsWhatItUnlocks ops' := by
  obtain ⟨rest, rfl⟩ := hpre
  obtain ⟨held, hrun, -⟩ := run_append_eq_some.mp (h ∅ (by simp))
  exact ⟨held, hrun⟩

end Code

end Locking
