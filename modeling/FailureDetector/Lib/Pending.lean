import FailureDetector.Lib.HashTable
import FailureDetector.Lib.Runs
import Mathlib.Data.List.Induction

set_option relaxedAutoImplicit false
set_option autoImplicit false

/-!
# Pending records

Some actions of a sequence open a record, and some close every record with a given key. A record
is pending from the action that opens it to the next one that closes its key.

## Main definitions

* `Pending.pending` — the records that are pending after a sequence of actions.

## Main results

* `Pending.mem_pending` — a record is pending if it was opened and its key not closed since.
* `Pending.nodup_pending` — with distinct keys, no key is pending twice.
-/

namespace Pending

open HashTable (keys)

variable {α κ ρ : Type*} [DecidableEq κ] (key : ρ → κ) (opens : α → Option ρ)
  (closes : α → Option κ)

/-- The pending records after an action: those whose key it does not close, and the one it opens. -/
def afterAction (t : List ρ) (a : α) : List ρ :=
  (match closes a with
    | none => t
    | some k => t.filter fun r => key r ≠ k) ++ (opens a).toList

/-- The records that are pending after a sequence of actions, in the order they were opened. -/
def pending (as : List α) : List ρ := as.foldl (afterAction key opens closes) []

/-- One more action after a sequence of them. -/
lemma pending_concat (as : List α) (a : α) :
    pending key opens closes (as ++ [a]) =
      afterAction key opens closes (pending key opens closes as) a := by
  rw [pending, List.foldl_append]
  rfl

variable {key opens closes}

/-- What is pending after an action. -/
lemma mem_afterAction {t : List ρ} {a : α} {r : ρ} :
    r ∈ afterAction key opens closes t a ↔
      (r ∈ t ∧ closes a ≠ some (key r)) ∨ opens a = some r := by
  rw [afterAction, List.mem_append, Option.mem_toList]
  cases closes a with
  | none => simp
  | some k =>
    have hne : some k ≠ some (key r) ↔ key r ≠ k := by
      rw [Ne, Option.some.injEq, eq_comm]
    rw [hne, List.mem_filter, decide_eq_true_iff]

/-- **A record is pending** exactly if it was opened and its key has not been closed since.

**Proof sketch.** Induction on the actions from the right: the last one either opened the record,
or the record was pending before it. -/
lemma mem_pending {as : List α} {r : ρ} :
    r ∈ pending key opens closes as ↔
      ∃ pre a post, as = pre ++ a :: post ∧ opens a = some r ∧
        ∀ b ∈ post, closes b ≠ some (key r) := by
  induction as using List.reverseRecOn with
  | nil =>
    constructor
    · intro h
      cases h
    · rintro ⟨pre, a, post, heq, -⟩
      cases pre <;> cases heq
  | append_singleton as c ih =>
    rw [pending_concat, mem_afterAction, ih]
    constructor
    · rintro (⟨⟨pre, a, post, rfl, hopen, hpost⟩, hclose⟩ | hopen)
      · refine ⟨pre, a, post ++ [c], by rw [List.append_assoc, List.cons_append], hopen, ?_⟩
        intro b hb
        rcases List.mem_append.mp hb with hb | hb
        · exact hpost b hb
        · rwa [List.mem_singleton.mp hb]
      · exact ⟨as, c, [], rfl, hopen, by simp⟩
    · rintro ⟨pre, a, post, heq, hopen, hpost⟩
      rcases Runs.concat_eq_append_cons.mp heq with ⟨rfl, rfl, rfl⟩ | ⟨post', rfl, rfl⟩
      · exact Or.inr hopen
      · refine Or.inl ⟨⟨pre, a, post', rfl, hopen, fun b hb => hpost b ?_⟩, hpost c ?_⟩
        · exact List.mem_append_left _ hb
        · exact List.mem_append_right _ (List.mem_singleton.mpr rfl)

/-- The key of a pending record has been opened. -/
lemma mem_keys_of_mem_pending {as : List α} {k : κ}
    (h : k ∈ keys key (pending key opens closes as)) :
    k ∈ as.filterMap fun a => (opens a).map key := by
  obtain ⟨r, hr, rfl⟩ := List.mem_map.mp h
  obtain ⟨pre, a, post, rfl, hopen, -⟩ := mem_pending.mp hr
  exact List.mem_filterMap.mpr ⟨a, by simp, by rw [hopen, Option.map_some]⟩

/-- **No key is pending twice** if no two actions open records with the same key. -/
lemma nodup_pending {as : List α} (h : (as.filterMap fun a => (opens a).map key).Nodup) :
    (keys key (pending key opens closes as)).Nodup := by
  induction as using List.reverseRecOn with
  | nil => exact List.nodup_nil
  | append_singleton as c ih =>
    rw [List.filterMap_append, List.nodup_append] at h
    obtain ⟨has, -, hdisj⟩ := h
    have hpending := ih has
    rw [pending_concat]
    have hkept : (keys key (match closes c with
        | none => pending key opens closes as
        | some k => (pending key opens closes as).filter fun r => key r ≠ k)).Sublist
        (keys key (pending key opens closes as)) := by
      cases closes c with
      | none => exact List.Sublist.refl _
      | some k => exact List.filter_sublist.map key
    cases hopen : opens c with
    | none =>
      rw [afterAction, hopen, Option.toList_none, List.append_nil]
      exact hpending.sublist hkept
    | some r =>
      rw [afterAction, hopen, Option.toList_some, keys, List.map_append, List.nodup_append]
      refine ⟨hpending.sublist hkept, List.nodup_singleton _, fun k hk k' hk' => ?_⟩
      exact hdisj k (mem_keys_of_mem_pending (hkept.subset hk)) k' (by simpa [hopen] using hk')

end Pending
