import FailureDetector.Lib.Scheduling
import Mathlib.Data.Finset.Insert

set_option relaxedAutoImplicit false
set_option autoImplicit false

/-!
# Lock order

Every mutex has a rank. Code is ordered if it locks only mutexes that rank above all those it holds,
unlocks only what it holds, holds nothing while it waits for a thread, and returns without a mutex.
Then no schedule of such threads gets stuck: the mutex that a thread waits for is held by a thread
that can go on, or waits for a mutex of higher rank.

A thread that is cancelled keeps the mutexes it holds, so none of them may be locked afterwards. The
end of a thread's code need not be ordered: then nothing is said once a thread has got there.

## Main definitions

* `Locking.orderStep`, `Locking.Ordered`, `Locking.OrderedUpTo` — ordered code.
* `Locking.Sched.Safe` — the mutexes that the threads hold are in order, and those of cancelled
  threads are not needed any more.
* `Locking.Sched.Past` — a thread has got past the ordered part of its code.
* `Locking.Sched.CancelSafe` — threads are cancelled only where their mutexes are not needed any
  more.

## Main results

* `Locking.Sched.Safe.step`, `Locking.Sched.run_safe` — every state of a schedule of ordered threads
  is safe.
* `Locking.Sched.Safe.progress` — as long as a thread has something to do, a thread can move.
-/

namespace Locking

open Runs

variable {τ μ : Type*}

section Definitions

variable [DecidableEq μ]

/-- The mutexes that a thread holds after one more action, if that is in order. -/
def orderStep (rank : μ → ℕ) (held : Finset μ) : Op τ μ → Option (Finset μ)
  | .lock m => if ∀ m' ∈ held, rank m' < rank m then some (insert m held) else none
  | .unlock m => if m ∈ held then some (held.erase m) else none
  | .join _ => if held = ∅ then some held else none
  | _ => some held

/-- **Ordered code.** -/
def Ordered (rank : μ → ℕ) (ops : List (Op τ μ)) : Prop := run (orderStep rank) ∅ ops = some ∅

/-- Code that is ordered up to its end, which is `tail` unless it has ended before, where some
mutexes are held already. -/
def OrderedUpTo (rank : μ → ℕ) (tail : List (Op τ μ)) (held : Finset μ) (ops : List (Op τ μ)) :
    Prop := ∃ ops', (ops = ops' ∨ ops = ops' ++ tail) ∧ run (orderStep rank) held ops' = some ∅

/-- The mutexes that the threads hold are in order, and those of cancelled threads are not needed
any more. -/
structure Sched.Safe (rank : μ → ℕ) (tail : τ → List (Op τ μ)) (held : τ → Finset μ)
    (s : Sched τ μ) : Prop where
  owner : ∀ m t, s.owner m = some t ↔ m ∈ held t
  idle : ∀ t, s.created t = false → held t = ∅
  ordered : ∀ t, OrderedUpTo rank (tail t) (held t) (s.rest t) ∨
    (s.rest t = [] ∧ ∀ m ∈ held t, ∀ t', .lock m ∉ s.rest t')

/-- A thread has got past the ordered part of its code. -/
def Sched.Past [DecidableEq τ] (code tail : τ → List (Op τ μ)) (s : Sched τ μ) : Prop :=
  ∃ t pre op ops, code t = pre ++ op :: ops ∧ tail t = op :: ops ∧ pre ++ [op] <+: opsOf t s.trace

/-- The mutexes of a thread are not needed any more where it can be cancelled. -/
def Sched.CancelSafe [DecidableEq τ] (rank : μ → ℕ) (tail : τ → List (Op τ μ)) (first : τ)
    (point : τ → List (Op τ μ) → Bool) (code : τ → List (Op τ μ)) : Prop :=
  ∀ (s : Sched τ μ) held t ops, s.Underway first code → s.Safe rank tail held →
    s.rest first = .join t :: ops → s.rest t ≠ [] → point t (s.rest t) = true →
    ∀ m ∈ held t, ∀ t' ≠ t, .lock m ∉ s.rest t'

end Definitions

/-! ### Ordered code -/

section Code

variable [DecidableEq μ] {rank : μ → ℕ}

/-- Code that does nothing is ordered. -/
lemma ordered_nil : Ordered rank ([] : List (Op τ μ)) := rfl

/-- Two pieces of ordered code, one after the other. -/
lemma ordered_append {ops ops' : List (Op τ μ)} (h : Ordered rank ops) (h' : Ordered rank ops') :
    Ordered rank (ops ++ ops') := run_append_eq_some.mpr ⟨∅, h, h'⟩

/-- Ordered pieces of code, one after the other. -/
lemma ordered_flatten {opss : List (List (Op τ μ))} (h : ∀ ops ∈ opss, Ordered rank ops) :
    Ordered rank opss.flatten := by
  induction opss with
  | nil => exact ordered_nil
  | cons ops opss ih =>
    exact ordered_append (h ops List.mem_cons_self)
      (ih fun ops' hmem => h ops' (List.mem_cons_of_mem _ hmem))

/-- Other actions in front of ordered code. -/
lemma ordered_cons {op : Op τ μ} {ops : List (Op τ μ)} (h : Ordered rank ops)
    (hop : ∀ m, op ≠ .lock m ∧ op ≠ .unlock m) : Ordered rank (op :: ops) := by
  refine run_cons_eq_some.mpr ⟨∅, ?_, h⟩
  cases op with
  | lock m => exact absurd rfl (hop m).1
  | unlock m => exact absurd rfl (hop m).2
  | init m => rfl
  | destroy m => rfl
  | create t => rfl
  | join t => rfl

/-- A critical section. -/
lemma ordered_pair (m : μ) : Ordered rank ([.lock m, .unlock m] : List (Op τ μ)) := by
  simp [Ordered, run, orderStep]

/-- A critical section in another one. -/
lemma ordered_nested {m m' : μ} (hlt : rank m < rank m') :
    Ordered rank ([.lock m, .lock m', .unlock m', .unlock m] : List (Op τ μ)) := by
  have hne : m ≠ m' := by
    rintro rfl
    exact lt_irrefl _ hlt
  have herase : (insert m' ({m} : Finset μ)).erase m' = {m} :=
    Finset.erase_insert (by simpa using Ne.symm hne)
  simp [Ordered, run, orderStep, hlt, herase]

/-- The end of code need not be ordered. -/
lemma orderedUpTo_tail (rank : μ → ℕ) (tail : List (Op τ μ)) : OrderedUpTo rank tail ∅ tail :=
  ⟨[], Or.inr rfl, rfl⟩

/-- Ordered code is ordered up to whatever end. -/
lemma Ordered.upTo {ops : List (Op τ μ)} (h : Ordered rank ops) (tail : List (Op τ μ)) :
    OrderedUpTo rank tail ∅ ops := ⟨ops, Or.inl rfl, h⟩

/-- Ordered code in front. -/
lemma OrderedUpTo.append {tail ops ops' : List (Op τ μ)} (h' : OrderedUpTo rank tail ∅ ops')
    (h : Ordered rank ops) : OrderedUpTo rank tail ∅ (ops ++ ops') := by
  obtain ⟨ops'', hops'', horder⟩ := h'
  refine ⟨ops ++ ops'', hops''.imp ?_ ?_, run_append_eq_some.mpr ⟨∅, h, horder⟩⟩
  · rintro rfl
    rfl
  · rintro rfl
    exact (List.append_assoc _ _ _).symm

/-- Other actions in front. -/
lemma OrderedUpTo.cons {tail ops : List (Op τ μ)} {op : Op τ μ} (h : OrderedUpTo rank tail ∅ ops)
    (hop : ∀ m, op ≠ .lock m ∧ op ≠ .unlock m) : OrderedUpTo rank tail ∅ (op :: ops) :=
  h.append (ordered_cons ordered_nil hop)

/-- What is done next is in order, unless the code gets to its end. -/
lemma OrderedUpTo.next {tail ops : List (Op τ μ)} {held : Finset μ} {op : Op τ μ}
    (h : OrderedUpTo rank tail held (op :: ops)) :
    tail = op :: ops ∨
      ∃ held', orderStep rank held op = some held' ∧ OrderedUpTo rank tail held' ops := by
  obtain ⟨ops', hops', horder⟩ := h
  cases ops' with
  | nil =>
    left
    exact (hops'.resolve_left (List.cons_ne_nil _ _)).symm
  | cons op' ops' =>
    obtain ⟨held', hstep, hrun⟩ := run_cons_eq_some.mp horder
    right
    rcases hops' with heq | heq
    · obtain ⟨rfl, rfl⟩ := List.cons.inj heq
      exact ⟨held', hstep, ops, Or.inl rfl, hrun⟩
    · obtain ⟨rfl, hops⟩ := List.cons.inj (heq.trans List.cons_append)
      exact ⟨held', hstep, ops', Or.inr hops, hrun⟩

/-- Before a mutex of lowest rank is locked, nothing is held. -/
lemma eq_empty_of_lock {m : μ} {held held' : Finset μ} (hrank : rank m = 0)
    (hstep : orderStep (τ := τ) rank held (.lock m) = some held') : held = ∅ := by
  rw [orderStep, Option.ite_none_right_eq_some] at hstep
  refine Finset.eq_empty_of_forall_notMem fun m' hm' => ?_
  have hlt := hstep.1 m' hm'
  omega

end Code

/-! ### Safe states -/

namespace Sched

/-- A thread that does not exist after an action did not exist before. -/
lemma created_of_createdStep [DecidableEq τ] {created : τ → Bool} {op : Op τ μ} {t : τ}
    (h : createdStep created op t = false) : created t = false := by
  cases op with
  | create t' =>
    by_cases ht : t = t'
    · subst ht
      simp [createdStep] at h
    · simpa [createdStep, ht] using h
  | init m => exact h
  | destroy m => exact h
  | lock m => exact h
  | unlock m => exact h
  | join t' => exact h

/-- A thread that holds a mutex which another one needs has something to do. -/
lemma Safe.exists_rest [DecidableEq μ] {rank : μ → ℕ} {tail : τ → List (Op τ μ)}
    {held : τ → Finset μ} {s : Sched τ μ} (h : s.Safe rank tail held) {t t' : τ} {m : μ}
    (howner : s.owner m = some t') (hlock : .lock m ∈ s.rest t) :
    s.created t' = true ∧ ∃ op ops held', s.rest t' = op :: ops ∧
      orderStep rank (held t') op = some held' := by
  have hmem := (h.owner m t').mp howner
  constructor
  · cases hcreated : s.created t' with
    | true => rfl
    | false =>
      rw [h.idle t' hcreated] at hmem
      simp at hmem
  · rcases h.ordered t' with ⟨ops, hops, horder⟩ | ⟨-, hfree⟩
    · cases ops with
      | nil =>
        rw [Option.some.inj horder] at hmem
        simp at hmem
      | cons op ops =>
        obtain ⟨held', hstep, -⟩ := run_cons_eq_some.mp horder
        rcases hops with hrest | hrest
        · exact ⟨op, ops, held', hrest, hstep⟩
        · exact ⟨op, ops ++ tail t', held', hrest, hstep⟩
    · exact absurd hlock (hfree m hmem t)

/-- What a thread does next is in order, unless it gets past the ordered part of its code. -/
lemma Safe.next [DecidableEq μ] {rank : μ → ℕ} {tail : τ → List (Op τ μ)} {held : τ → Finset μ}
    {s : Sched τ μ} (h : s.Safe rank tail held) {t : τ} {op : Op τ μ} {ops : List (Op τ μ)}
    (hrest : s.rest t = op :: ops) :
    tail t = op :: ops ∨ ∃ held', orderStep rank (held t) op = some held' ∧
      OrderedUpTo rank (tail t) held' ops := by
  rcases h.ordered t with hops | ⟨hnil, -⟩
  · exact (hrest ▸ hops).next
  · rw [hnil] at hrest
    cases hrest

variable [DecidableEq τ] [DecidableEq μ] {rank : μ → ℕ} {first : τ}
  {point : τ → List (Op τ μ) → Bool} {code tail : τ → List (Op τ μ)} {held : τ → Finset μ}
  {s s' : Sched τ μ}

/-- At the start nothing is held. -/
lemma safe_start (hordered : ∀ t, OrderedUpTo rank (tail t) ∅ (code t)) :
    (Sched.start first code).Safe rank tail fun _ => ∅ where
  owner := by simp [Sched.start]
  idle := fun _ _ => rfl
  ordered := fun t => Or.inl (hordered t)

/-- A thread does not get back. -/
lemma Past.step {mv : Move τ} (h : s.Past code tail) (hmoved : s.Moved first point mv s') :
    s'.Past code tail := by
  obtain ⟨t, pre, op, ops, hcode, htail, hpast⟩ := h
  refine ⟨t, pre, op, ops, hcode, htail, hpast.trans ?_⟩
  cases hmoved with
  | call => exact List.prefix_rfl
  | cancel => exact List.prefix_rfl
  | act t' op' ops' =>
    show opsOf t s.trace <+: opsOf t (s.trace ++ [(t', op')])
    rw [opsOf_append]
    exact List.prefix_append _ _

/-- Who holds the mutexes after an action that is in order. -/
lemma ownerStep_iff (howner : ∀ m t, s.owner m = some t ↔ m ∈ held t) {t : τ} {op : Op τ μ}
    {held' : Finset μ} (hstep : orderStep rank (held t) op = some held')
    (henabled : s.enabled t op = true) (m : μ) (t' : τ) :
    ownerStep s.owner t op m = some t' ↔ m ∈ Function.update held t held' t' := by
  have hsame : held' = held t → (s.owner m = some t' ↔ m ∈ Function.update held t held' t') := by
    rintro rfl
    rw [Function.update_eq_self]
    exact howner m t'
  cases op with
  | lock m' =>
    rw [orderStep, Option.ite_none_right_eq_some] at hstep
    obtain ⟨-, hheld'⟩ := hstep
    cases hheld'
    have hfree : s.owner m' = none := by
      simp only [Sched.enabled, Bool.and_eq_true, Option.isNone_iff_eq_none] at henabled
      exact henabled.2
    by_cases ht : t' = t
    · subst ht
      by_cases hm : m = m'
      · subst hm
        simp [ownerStep]
      · simp [ownerStep, hm, howner]
    · by_cases hm : m = m'
      · subst hm
        have hnot : m ∉ held t' := by
          rw [← howner, hfree]
          simp
        simp [ownerStep, ht, hnot, Ne.symm ht]
      · simp [ownerStep, hm, ht, howner]
  | unlock m' =>
    rw [orderStep, Option.ite_none_right_eq_some] at hstep
    obtain ⟨hmem, hheld'⟩ := hstep
    cases hheld'
    by_cases ht : t' = t
    · subst ht
      by_cases hm : m = m'
      · subst hm
        simp [ownerStep]
      · simp [ownerStep, hm, howner]
    · by_cases hm : m = m'
      · subst hm
        have hnot : m ∉ held t' := by
          rw [← howner, (howner m t).mpr hmem]
          simpa using Ne.symm ht
        simp [ownerStep, ht, hnot]
      · simp [ownerStep, hm, ht, howner]
  | join t'' =>
    rw [orderStep, Option.ite_none_right_eq_some] at hstep
    exact hsame (Option.some.inj hstep.2).symm
  | init m' => exact hsame (Option.some.inj hstep).symm
  | destroy m' => exact hsame (Option.some.inj hstep).symm
  | create t'' => exact hsame (Option.some.inj hstep).symm

/-- **A move of an ordered schedule** leads to a safe state, unless a thread gets past the ordered
part of its code. -/
lemma Safe.step (hcancel : CancelSafe rank tail first point code)
    (hunder : s.Underway first code) (h : s.Safe rank tail held) {mv : Move τ}
    (hmoved : s.Moved first point mv s') : (∃ held', s'.Safe rank tail held') ∨
      s'.Past code tail := by
  have hsubset := hmoved.rest_subset
  cases hmoved with
  | call t m ops => exact Or.inl ⟨held, h.owner, h.idle, h.ordered⟩
  | act t op ops hrest hcreated henabled =>
    rcases h.next hrest with htail | ⟨held', hstep, hops⟩
    · have hdone := hunder.done_of_ne_nil (t := t) (by simp [hrest])
      rw [hrest] at hdone
      refine Or.inr ⟨t, opsOf t s.trace, op, ops, hdone.symm, htail, ?_⟩
      show _ <+: opsOf t (s.trace ++ [(t, op)])
      rw [opsOf_concat, if_pos rfl]
    · left
      refine ⟨Function.update held t held', ownerStep_iff h.owner hstep henabled, ?_, ?_⟩
      · intro t' hidle
        have hidle' : s.created t' = false := created_of_createdStep hidle
        have ht : t' ≠ t := by
          rintro rfl
          rw [hcreated] at hidle'
          cases hidle'
        rw [Function.update_of_ne ht]
        exact h.idle t' hidle'
      · intro t'
        by_cases ht : t' = t
        · subst ht
          left
          show OrderedUpTo rank (tail t') (Function.update held t' held' t')
            (Function.update s.rest t' ops t')
          rw [Function.update_self, Function.update_self]
          exact hops
        · have hrest' : (s.advance t op ops).rest t' = s.rest t' := Function.update_of_ne ht _ _
          rw [Function.update_of_ne ht, hrest']
          refine (h.ordered t').imp id fun ⟨hnil, hfree⟩ => ⟨hnil, fun m hm t'' hlock => ?_⟩
          exact hfree m hm t'' (hsubset t'' hlock)
  | cancel t ops hfirst hcalled hrest hpoint =>
    refine Or.inl ⟨held, h.owner, h.idle, fun t' => ?_⟩
    by_cases ht : t' = t
    · subst ht
      refine Or.inr ⟨Function.update_self _ _ _, fun m hm t'' hlock => ?_⟩
      by_cases ht' : t'' = t'
      · subst ht'
        have hnil : Function.update s.rest t'' [] t'' = [] := Function.update_self _ _ _
        change .lock m ∈ Function.update s.rest t'' [] t'' at hlock
        rw [hnil] at hlock
        cases hlock
      · exact hcancel s held t' ops hunder h hfirst hrest hpoint m hm t'' ht' (hsubset t'' hlock)
    · have hrest' : Function.update s.rest t [] t' = s.rest t' := Function.update_of_ne ht _ _
      show OrderedUpTo rank (tail t') (held t') (Function.update s.rest t [] t') ∨
        (Function.update s.rest t [] t' = [] ∧
          ∀ m ∈ held t', ∀ t'', .lock m ∉ Function.update s.rest t [] t'')
      rw [hrest']
      refine (h.ordered t').imp id fun ⟨hnil, hfree⟩ => ⟨hnil, fun m hm t'' hlock => ?_⟩
      exact hfree m hm t'' (hsubset t'' hlock)

/-- **Every state of a schedule of ordered threads is safe** until a thread gets past the ordered
part of its code. -/
lemma run_safe (hcode : WellSpawned first code)
    (hordered : ∀ t, OrderedUpTo rank (tail t) ∅ (code t))
    (hcancel : CancelSafe rank tail first point code) {moves : List (Move τ)}
    (hrun : run (Sched.step first point) (Sched.start first code) moves = some s) :
    s.Underway first code ∧ ((∃ held, s.Safe rank tail held) ∨ s.Past code tail) := by
  refine run_invariant (fun s => s.Underway first code ∧
    ((∃ held, s.Safe rank tail held) ∨ s.Past code tail)) ?_
    ⟨underway_start first code, Or.inl ⟨_, safe_start hordered⟩⟩ (fun _ _ => trivial) hrun
  rintro s mv s' ⟨hunder, hstate⟩ (- : True) hstep
  have hmoved := moved_of_step hstep
  refine ⟨hunder.step hcode hmoved, ?_⟩
  rcases hstate with ⟨held, hsafe⟩ | hpast
  · exact hsafe.step hcancel hunder hmoved
  · exact Or.inr (hpast.step hmoved)

/-! ### Progress -/

/-- **A thread that needs a mutex** does not keep all others from moving.

**Proof sketch.** Induction on how far the rank of the mutex is from the highest one. If it is free,
the thread itself can move. Otherwise the thread that holds it can move, or needs a mutex of higher
rank. -/
lemma Safe.exists_canMove_of_lock (h : s.Safe rank tail held) {n : ℕ}
    (hrank : ∀ m, rank m < n) {t : τ} {m : μ} {ops : List (Op τ μ)} (hcreated : s.created t = true)
    (hrest : s.rest t = .lock m :: ops) : ∃ t', s.CanMove first point t' := by
  induction hk : n - rank m using Nat.strong_induction_on generalizing t m ops with
  | _ k ih =>
    cases hcalled : s.called t with
    | false => exact ⟨t, canMove_of_not_called hcreated hrest hcalled⟩
    | true =>
      cases howner : s.owner m with
      | none => exact ⟨t, canMove_of_enabled hcreated hrest (by simp [enabled, hcalled, howner])⟩
      | some t' =>
        obtain ⟨hcreated', op, ops', held', hrest', hstep⟩ :=
          h.exists_rest howner (t := t) (by simp [hrest])
        have hmem := (h.owner m t').mp howner
        cases op with
        | lock m' =>
          rw [orderStep, Option.ite_none_right_eq_some] at hstep
          have hlt := hstep.1 m hmem
          have hn := hrank m'
          exact ih (n - rank m') (by omega) hcreated' hrest' rfl
        | join t'' =>
          rw [orderStep, Option.ite_none_right_eq_some] at hstep
          rw [hstep.1] at hmem
          simp at hmem
        | init m' => exact ⟨t', canMove_of_enabled hcreated' hrest' rfl⟩
        | destroy m' => exact ⟨t', canMove_of_enabled hcreated' hrest' rfl⟩
        | unlock m' => exact ⟨t', canMove_of_enabled hcreated' hrest' rfl⟩
        | create t'' => exact ⟨t', canMove_of_enabled hcreated' hrest' rfl⟩

/-- A thread other than the first one that has something to do does not keep all others from
moving. -/
lemma Safe.exists_canMove_of_ne (h : s.Safe rank tail held) (hcode : WellSpawned first code)
    (hunder : s.Underway first code) {n : ℕ} (hrank : ∀ m, rank m < n) {t : τ} (ht : t ≠ first)
    (hcreated : s.created t = true) (hrest : s.rest t ≠ []) :
    ∃ t', s.CanMove first point t' := by
  cases hops : s.rest t with
  | nil => exact absurd hops hrest
  | cons op ops =>
    have hop : op ∈ code t := hunder.mem_code (by simp [hops])
    cases op with
    | lock m => exact h.exists_canMove_of_lock hrank hcreated hops
    | join t' => exact absurd rfl (hcode.op_of_ne ht hop t').2
    | init m => exact ⟨t, canMove_of_enabled hcreated hops rfl⟩
    | destroy m => exact ⟨t, canMove_of_enabled hcreated hops rfl⟩
    | unlock m => exact ⟨t, canMove_of_enabled hcreated hops rfl⟩
    | create t' => exact ⟨t, canMove_of_enabled hcreated hops rfl⟩

/-- **No schedule of ordered threads gets stuck**: a thread can move, or all have done what they had
to do. -/
lemma Safe.progress (h : s.Safe rank tail held) (hcode : WellSpawned first code)
    (hunder : s.Underway first code) {n : ℕ} (hrank : ∀ m, rank m < n) :
    (∃ t, s.CanMove first point t) ∨ ∀ t, s.created t = true → s.rest t = [] := by
  by_cases hall : ∀ t, s.created t = true → s.rest t = []
  · exact Or.inr hall
  · left
    push Not at hall
    obtain ⟨t, hcreated, hrest⟩ := hall
    by_cases ht : t = first
    · subst ht
      cases hops : s.rest t with
      | nil => exact absurd hops hrest
      | cons op ops =>
        cases op with
        | lock m => exact h.exists_canMove_of_lock hrank hcreated hops
        | join t' =>
          obtain ⟨hne, hcreated'⟩ := hunder.created_of_join hcode hops
          cases hops' : s.rest t' with
          | nil =>
            exact ⟨t, canMove_of_enabled hcreated hops (by simp [enabled, hops'])⟩
          | cons op' ops' =>
            exact h.exists_canMove_of_ne hcode hunder hrank hne hcreated' (by simp [hops'])
        | init m => exact ⟨t, canMove_of_enabled hcreated hops rfl⟩
        | destroy m => exact ⟨t, canMove_of_enabled hcreated hops rfl⟩
        | unlock m => exact ⟨t, canMove_of_enabled hcreated hops rfl⟩
        | create t' => exact ⟨t, canMove_of_enabled hcreated hops rfl⟩
    · exact h.exists_canMove_of_ne hcode hunder hrank ht hcreated hrest

end Sched

end Locking
