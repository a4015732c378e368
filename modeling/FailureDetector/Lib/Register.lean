import Mathlib.Data.List.Basic
import Mathlib.Data.List.Chain

set_option relaxedAutoImplicit false
set_option autoImplicit false

/-!
# Registers written by a sequence of inputs

A register holds the value of the last input that wrote to it. Writing the value it already holds
does not change it, so the inputs that change it are a part of those that write.

## Main definitions

* `Register.value` — the value after a sequence of inputs.
* `Register.changes` — the inputs that changed the value.

## Main results

* `Register.value_concat`, `Register.changes_concat` — the effect of one more input.
* `Register.isChain_changes` — consecutive changes write different values.
* `Register.value_eq_of_getLast`, `Register.value_eq_of_getLast_filter` — the last input decides if
  it writes.
-/

namespace Register

variable {α β : Type*} (w : α → Option β)

/-- The value after a sequence of inputs, where `w` is what an input writes. -/
def value (init : β) (inputs : List α) : β := (inputs.filterMap w).getLast?.getD init

/-- One more input writes or leaves the value. -/
lemma value_concat (init : β) (inputs : List α) (a : α) :
    value w init (inputs ++ [a]) = (w a).getD (value w init inputs) := by
  unfold value
  rw [List.filterMap_append]
  cases h : w a with
  | none => simp [h]
  | some b => simp [h]

/-- The first input sets the value that the others start from. -/
lemma value_cons (init : β) (a : α) (inputs : List α) :
    value w init (a :: inputs) = value w ((w a).getD init) inputs := by
  induction inputs using List.reverseRecOn with
  | nil => exact value_concat w init [] a
  | append_singleton inputs b ih =>
    rw [← List.cons_append, value_concat, value_concat, ih]

/-- The inputs after some others start from the value that those have written. -/
lemma value_append (init : β) (inputs inputs' : List α) :
    value w init (inputs ++ inputs') = value w (value w init inputs) inputs' := by
  induction inputs' using List.reverseRecOn with
  | nil =>
    rw [List.append_nil, value, value, List.filterMap_nil, List.getLast?_nil, Option.getD_none]
  | append_singleton inputs' b ih => rw [← List.append_assoc, value_concat, value_concat, ih]

/-- The last input decides if it writes. -/
lemma value_eq_of_getLast {init : β} {inputs : List α} {a : α} {b : β}
    (hlast : inputs.getLast? = some a) (hw : w a = some b) : value w init inputs = b := by
  obtain ⟨l, rfl⟩ := List.getLast?_eq_some_iff.mp hlast
  rw [value_concat, hw, Option.getD_some]

/-- The last input with a property decides if it writes and no other input does. -/
lemma value_eq_of_getLast_filter {init : β} {inputs : List α} {a : α} {b : β} {q : α → Bool}
    (hlast : (inputs.filter q).getLast? = some a) (hw : w a = some b)
    (hnone : ∀ x ∈ inputs, q x = false → w x = none) : value w init inputs = b := by
  have hwrites : inputs.filterMap w = (inputs.filter q).filterMap w := by
    rw [List.filterMap_filter]
    refine List.filterMap_congr fun x hx => ?_
    cases hq : q x with
    | false => rw [hnone x hx hq, if_neg Bool.false_ne_true]
    | true => rw [if_pos rfl]
  have hvalue : value w init (inputs.filter q) = b := value_eq_of_getLast w hlast hw
  rwa [value, ← hwrites] at hvalue

/-- The last input with a property is also the last one with a stronger property that it has. -/
lemma getLast?_filter_of_imp {l : List α} {a : α} {p q : α → Bool} (himp : ∀ x, p x → q x)
    (hlast : (l.filter q).getLast? = some a) (ha : p a) : (l.filter p).getLast? = some a := by
  obtain ⟨l', hl'⟩ := List.getLast?_eq_some_iff.mp hlast
  have hfilter : l.filter p = (l.filter q).filter p := by
    rw [List.filter_filter]
    refine List.filter_congr fun x _ => ?_
    cases hp : p x with
    | false => rfl
    | true => rw [himp x hp, Bool.and_true]
  rw [hfilter, hl', List.filter_append, List.filter_cons_of_pos ha, List.filter_nil,
    List.getLast?_concat]

variable [DecidableEq β]

/-- The inputs that changed the value. -/
def changes (init : β) : List α → List α
  | [] => []
  | a :: inputs =>
    match w a with
    | none => changes init inputs
    | some b => if b = init then changes init inputs else a :: changes b inputs

/-- One more input changes the value, or it writes nothing new. -/
lemma changes_concat (init : β) (inputs : List α) (a : α) :
    changes w init (inputs ++ [a]) = changes w init inputs ++
      if value w init (inputs ++ [a]) = value w init inputs then [] else [a] := by
  induction inputs generalizing init with
  | nil =>
    rw [value_concat]
    cases h : w a with
    | none => simp [changes, value, h]
    | some b => by_cases hb : b = init <;> simp [changes, value, h, hb]
  | cons c inputs ih =>
    simp only [List.cons_append, value_cons]
    cases h : w c with
    | none => simpa only [changes, h, Option.getD_none] using ih init
    | some b =>
      by_cases hb : b = init
      · subst hb
        simpa only [changes, h, if_true, Option.getD_some] using ih b
      · simp only [changes, h, hb, if_false, Option.getD_some, List.cons_append]
        rw [ih b]

/-- **Consecutive changes write different values**, and the first differs from the initial value. -/
lemma isChain_changes (init : β) (inputs : List α) :
    (init :: (changes w init inputs).filterMap w).IsChain (· ≠ ·) := by
  induction inputs generalizing init with
  | nil => exact List.isChain_singleton _
  | cons a inputs ih =>
    cases h : w a with
    | none => simpa only [changes, h] using ih init
    | some b =>
      by_cases hb : b = init
      · subst hb
        simpa only [changes, h, if_true] using ih b
      · simp only [changes, h, hb, if_false, List.filterMap_cons]
        exact List.IsChain.cons_cons (Ne.symm hb) (ih b)

end Register
