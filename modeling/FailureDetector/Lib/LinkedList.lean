import Mathlib.Data.List.Basic
import Mathlib.Data.List.Nodup
import Mathlib.Data.List.TakeWhile
import Mathlib.Logic.Function.Basic

set_option relaxedAutoImplicit false
set_option autoImplicit false

/-!
# Singly linked lists on a heap

A heap maps addresses to the nodes allocated there. A list starts at the address of its head and
ends with the address `0`. It stands for the sequence of its addresses and data.

## Main definitions

* `LinkedList.Node`, `LinkedList.Heap` — nodes and heaps.
* `LinkedList.Chain` — the list that starts at an address.
* `LinkedList.search` — the loop that looks for a node.
* `LinkedList.startingAt` — the part of a list from an address on.

## Main results

* `LinkedList.Chain.unique` — an address starts at most one list.
* `LinkedList.Chain.nodup` — a list does not visit an address twice.
* `LinkedList.Chain.push`, `LinkedList.Chain.unlink` — adding a head and taking out an inner node.
* `LinkedList.search_data`, `LinkedList.search_next_of_split`,
  `LinkedList.search_next_of_not_mem` — where searches by data and for a predecessor end.
* `LinkedList.Chain.startingAt_node` — a step of a walk along a list.
-/

namespace LinkedList

variable {δ : Type*}

/-- A node with its data and the address of the next one. -/
structure Node (δ : Type*) where
  data : δ
  next : ℕ

/-- The allocated nodes by address. -/
abbrev Heap (δ : Type*) := ℕ → Option (Node δ)

/-- The list that starts at an address, with the address and the data of every node. -/
inductive Chain (heap : Heap δ) : ℕ → List (ℕ × δ) → Prop
  /-- The address `0` ends a list. -/
  | nil : Chain heap 0 []
  /-- A node is followed by the list at its next address. -/
  | cons {a : ℕ} {n : Node δ} {l : List (ℕ × δ)} (ha : a ≠ 0) (hn : heap a = some n)
      (hl : Chain heap n.next l) : Chain heap a ((a, n.data) :: l)

/-- Look for the first node that satisfies `p`, starting at `tmp`: its address, or `0` if there is
none. The result is undefined if an address is not allocated or if `fuel` nodes are not enough. -/
def search (heap : Heap δ) (p : Node δ → Bool) : ℕ → ℕ → Option ℕ
  | _, 0 => some 0
  | 0, _ + 1 => none
  | fuel + 1, tmp + 1 =>
    match heap (tmp + 1) with
    | none => none
    | some n => if p n then some (tmp + 1) else search heap p fuel n.next

variable {heap : Heap δ} {a b : ℕ} {l l' : List (ℕ × δ)}

namespace Chain

/-- The empty list starts at `0`. -/
lemma head_eq_zero (h : Chain heap a []) : a = 0 := by
  cases h
  rfl

/-- A list that is not empty starts with its head. -/
lemma head_eq {p : ℕ × δ} (h : Chain heap a (p :: l)) : p.1 = a := by
  cases h
  rfl

/-- **An address starts at most one list.** -/
lemma unique (h : Chain heap a l) (h' : Chain heap a l') : l = l' := by
  induction h generalizing l' with
  | nil =>
    cases h' with
    | nil => rfl
    | cons ha => exact absurd rfl ha
  | cons ha hn _ ih =>
    cases h' with
    | nil => exact absurd rfl ha
    | cons _ hn' hl' =>
      rw [hn] at hn'
      cases hn'
      rw [ih hl']

/-- The part of a list from one of its nodes on is the list at the node's address. -/
lemma suffix {p : ℕ × δ} {l₁ l₂ : List (ℕ × δ)} (h : Chain heap a (l₁ ++ p :: l₂)) :
    Chain heap p.1 (p :: l₂) := by
  induction l₁ generalizing a with
  | nil =>
    have ha : p.1 = a := h.head_eq
    rwa [ha]
  | cons q l₁ ih =>
    cases h with
    | cons _ _ hl => exact ih hl

/-- The node at the head of a list. -/
lemma node_of_cons {p : ℕ × δ} (h : Chain heap a (p :: l)) :
    p.1 ≠ 0 ∧ ∃ n, heap p.1 = some n ∧ n.data = p.2 ∧ Chain heap n.next l := by
  obtain ⟨x, d⟩ := p
  cases h with
  | cons ha hn hl => exact ⟨ha, _, hn, rfl, hl⟩

/-- The node at an address of the list. -/
lemma node_of_split {p : ℕ × δ} {l₁ l₂ : List (ℕ × δ)} (h : Chain heap a (l₁ ++ p :: l₂)) :
    p.1 ≠ 0 ∧ ∃ n, heap p.1 = some n ∧ n.data = p.2 ∧ Chain heap n.next l₂ :=
  h.suffix.node_of_cons

/-- The addresses of a list are allocated. -/
lemma node_of_mem {p : ℕ × δ} (h : Chain heap a l) (hp : p ∈ l) :
    p.1 ≠ 0 ∧ ∃ n, heap p.1 = some n ∧ n.data = p.2 := by
  obtain ⟨l₁, l₂, rfl⟩ := List.append_of_mem hp
  obtain ⟨h0, n, hn, hdata, -⟩ := h.node_of_split
  exact ⟨h0, n, hn, hdata⟩

/-- **A list does not visit an address twice.**

**Proof sketch.** If the head's address came up again, the list from there on would be the whole
list, which is longer. -/
lemma nodup (h : Chain heap a l) : (l.map Prod.fst).Nodup := by
  induction h with
  | nil => exact List.nodup_nil
  | @cons a n l ha hn hl ih =>
    rw [List.map_cons, List.nodup_cons]
    refine ⟨fun hmem => ?_, ih⟩
    obtain ⟨⟨_, d⟩, hp, rfl⟩ := List.mem_map.mp hmem
    obtain ⟨l₁, l₂, hsplit⟩ := List.append_of_mem hp
    have hsuffix : Chain heap _ ((_, d) :: l₂) := Chain.suffix (hsplit ▸ hl)
    have heq := congrArg List.length (hsuffix.unique (Chain.cons ha hn hl))
    rw [hsplit] at heq
    simp only [List.length_cons, List.length_append] at heq
    omega

/-- Changing the heap outside of a list keeps the list. -/
lemma congr {heap' : Heap δ} (h : Chain heap a l) (hsame : ∀ p ∈ l, heap' p.1 = heap p.1) :
    Chain heap' a l := by
  induction h with
  | nil => exact Chain.nil
  | cons ha hn _ ih =>
    refine Chain.cons ha ((hsame _ List.mem_cons_self).trans hn) (ih fun p hp => ?_)
    exact hsame p (List.mem_cons_of_mem _ hp)

/-- Changing the heap at an address outside of a list keeps the list. -/
lemma update (h : Chain heap a l) {x : ℕ} (hx : x ∉ l.map Prod.fst) (v : Option (Node δ)) :
    Chain (Function.update heap x v) a l := by
  refine h.congr fun p hp => Function.update_of_ne ?_ _ _
  rintro rfl
  exact hx (List.mem_map_of_mem hp)

/-- **Adding a head** at an address outside of the list. -/
lemma push (h : Chain heap a l) {x : ℕ} (h0 : x ≠ 0) (hx : x ∉ l.map Prod.fst) (d : δ) :
    Chain (Function.update heap x (some ⟨d, a⟩)) x ((x, d) :: l) :=
  Chain.cons (n := ⟨d, a⟩) h0 (Function.update_self _ _ _) (h.update hx _)

/-- **Taking out an inner node**: linking its predecessor to its successor removes it. -/
lemma unlink {p q : ℕ × δ} {l₁ l₂ : List (ℕ × δ)} (h : Chain heap a (l₁ ++ p :: q :: l₂))
    {n m : Node δ} (hn : heap p.1 = some n) (hm : heap q.1 = some m) :
    Chain (Function.update heap p.1 (some ⟨n.data, m.next⟩)) a (l₁ ++ p :: l₂) := by
  have hnodup := h.nodup
  induction l₁ generalizing a with
  | nil =>
    obtain ⟨hp, n', hn', -, hl⟩ := Chain.node_of_split h
    rw [hn] at hn'
    cases hn'
    obtain ⟨-, m', hm', -, hl₂⟩ := hl.node_of_cons
    rw [hm] at hm'
    cases hm'
    simp only [List.nil_append, List.map_cons, List.nodup_cons, List.mem_cons, not_or] at hnodup
    obtain ⟨x, d⟩ := p
    cases h with
    | cons _ hx _ =>
      rw [hx] at hn
      cases hn
      exact hl₂.push hp hnodup.1.2 _
  | cons r l₁ ih =>
    cases h with
    | cons hr hr' hl =>
      rw [List.cons_append, List.map_cons, List.nodup_cons] at hnodup
      refine Chain.cons hr ?_ (ih hl hnodup.2)
      rw [Function.update_of_ne, hr']
      rintro rfl
      exact hnodup.1 (by simp)

end Chain

/-- The search looks at one node after the other. -/
lemma search_succ {p : Node δ → Bool} {n : Node δ} (ha : a ≠ 0) (hn : heap a = some n)
    (fuel : ℕ) :
    search heap p (fuel + 1) a = if p n then some a else search heap p fuel n.next := by
  obtain ⟨tmp, rfl⟩ := Nat.exists_eq_succ_of_ne_zero ha
  rw [search, hn]

/-- **A search by data** finds the first element of the list with such data. -/
lemma search_data (h : Chain heap a l) (q : δ → Bool) {fuel : ℕ} (hfuel : l.length ≤ fuel) :
    search heap (fun n => q n.data) fuel a =
      some (((l.find? fun p => q p.2).map Prod.fst).getD 0) := by
  induction h generalizing fuel with
  | nil => cases fuel <;> rfl
  | @cons a n l ha hn hl ih =>
    obtain ⟨fuel, rfl⟩ := Nat.exists_eq_succ_of_ne_zero (Nat.ne_zero_of_lt hfuel)
    rw [search_succ ha hn, List.find?_cons]
    cases hq : q n.data with
    | true => rfl
    | false => exact ih (Nat.le_of_succ_le_succ hfuel)

/-- **A search for the predecessor** of a node of the list ends there. -/
lemma search_next_of_split {p q : ℕ × δ} {l₁ l₂ : List (ℕ × δ)}
    (h : Chain heap a (l₁ ++ p :: q :: l₂)) {fuel : ℕ} (hfuel : l₁.length < fuel) :
    search heap (fun n => n.next = q.1) fuel a = some p.1 := by
  have hnodup := h.nodup
  induction l₁ generalizing a fuel with
  | nil =>
    cases h with
    | cons ha hn hl =>
      obtain ⟨fuel, rfl⟩ := Nat.exists_eq_succ_of_ne_zero (Nat.ne_zero_of_lt hfuel)
      rw [search_succ ha hn, if_pos (decide_eq_true hl.head_eq.symm)]
  | cons r l₁ ih =>
    cases h with
    | @cons a n _ ha hn hl =>
      obtain ⟨fuel, rfl⟩ := Nat.exists_eq_succ_of_ne_zero (Nat.ne_zero_of_lt hfuel)
      rw [List.cons_append, List.map_cons, List.nodup_cons] at hnodup
      have hnext : n.next ≠ q.1 := by
        have hnodup' := hnodup.2
        cases l₁ with
        | nil =>
          rw [← hl.head_eq]
          simp only [List.nil_append, List.map_cons, List.nodup_cons, List.mem_cons,
            not_or] at hnodup'
          exact hnodup'.1.1
        | cons s l₁ =>
          rw [← hl.head_eq]
          simp only [List.cons_append, List.map_cons, List.nodup_cons] at hnodup'
          exact fun heq => hnodup'.1 (heq ▸ by simp)
      rw [search_succ ha hn, if_neg fun h => hnext (of_decide_eq_true h)]
      exact ih hl (Nat.lt_of_succ_lt_succ hfuel) hnodup.2

/-- **A search for a predecessor** runs off the end of the list if there is none. -/
lemma search_next_of_not_mem {target : ℕ} (h : Chain heap a l) (h0 : target ≠ 0)
    (htarget : target ∉ l.tail.map Prod.fst) {fuel : ℕ} (hfuel : l.length ≤ fuel) :
    search heap (fun n => n.next = target) fuel a = some 0 := by
  induction h generalizing fuel with
  | nil => cases fuel <;> rfl
  | @cons a n l ha hn hl ih =>
    obtain ⟨fuel, rfl⟩ := Nat.exists_eq_succ_of_ne_zero (Nat.ne_zero_of_lt hfuel)
    rw [List.tail_cons] at htarget
    have hnext : n.next ≠ target := by
      cases l with
      | nil => exact hl.head_eq_zero.trans_ne h0.symm
      | cons q l =>
        rw [List.map_cons, List.mem_cons, not_or] at htarget
        exact fun heq => htarget.1 (heq.symm.trans hl.head_eq.symm)
    rw [search_succ ha hn, if_neg fun h => hnext (of_decide_eq_true h)]
    refine ih (fun hmem => htarget ?_) (Nat.le_of_succ_le_succ hfuel)
    obtain ⟨p, hp, hpt⟩ := List.mem_map.mp hmem
    exact List.mem_map.mpr ⟨p, List.mem_of_mem_tail hp, hpt⟩

/-! ### The rest of a list -/

/-- The part of a list from the node at an address on. -/
def startingAt (l : List (ℕ × δ)) (a : ℕ) : List (ℕ × δ) := l.dropWhile fun p => p.1 ≠ a

/-- It begins with the node at the address. -/
lemma startingAt_cons_self (p : ℕ × δ) (l : List (ℕ × δ)) : startingAt (p :: l) p.1 = p :: l :=
  List.dropWhile_cons_of_neg (by simp)

/-- The nodes before the one at the address are left out. -/
lemma startingAt_cons_of_ne {p : ℕ × δ} (h : p.1 ≠ a) : startingAt (p :: l) a = startingAt l a :=
  List.dropWhile_cons_of_pos (decide_eq_true h)

/-- Nothing is left if there is no node at the address. -/
lemma startingAt_of_notMem (ha : a ∉ l.map Prod.fst) : startingAt l a = [] := by
  rw [startingAt, List.dropWhile_eq_nil_iff]
  intro p hp
  refine decide_eq_true fun heq => ha ?_
  exact heq ▸ List.mem_map_of_mem hp

/-- The rest of a list is a part of it. -/
lemma startingAt_sublist (l : List (ℕ × δ)) (a : ℕ) : (startingAt l a).Sublist l :=
  List.dropWhile_sublist _

/-- Taking other nodes out of a list takes them out of its rest. -/
lemma startingAt_filter {q : ℕ × δ → Bool} (h : ∀ p ∈ l, p.1 = a → q p = true) :
    startingAt (l.filter q) a = (startingAt l a).filter q := by
  induction l with
  | nil => rfl
  | cons p l ih =>
    have ih := ih fun p' hp' => h p' (List.mem_cons_of_mem _ hp')
    by_cases hpa : p.1 = a
    · rw [List.filter_cons_of_pos (h p List.mem_cons_self hpa), ← hpa, startingAt_cons_self,
        startingAt_cons_self, List.filter_cons_of_pos (h p List.mem_cons_self hpa)]
    · rw [startingAt_cons_of_ne hpa, ← ih]
      by_cases hq : q p = true
      · rw [List.filter_cons_of_pos hq, startingAt_cons_of_ne hpa]
      · rw [List.filter_cons_of_neg hq]

/-- The rest of a list begins at the address. -/
lemma startingAt_head_eq {p : ℕ × δ} {l' : List (ℕ × δ)} (h : startingAt l a = p :: l') :
    p.1 = a := by
  induction l with
  | nil => cases h
  | cons q l ih =>
    by_cases hq : q.1 = a
    · subst hq
      rw [startingAt_cons_self] at h
      cases h
      rfl
    · rw [startingAt_cons_of_ne hq] at h
      exact ih h

/-- The same without the node at the address. -/
lemma tail_startingAt_filter {q : ℕ × δ → Bool} (h : ∀ p ∈ l, p.1 = a → q p = true) :
    (startingAt (l.filter q) a).tail = (startingAt l a).tail.filter q := by
  rw [startingAt_filter h]
  cases hl : startingAt l a with
  | nil => rfl
  | cons p l' =>
    have hp : p ∈ l := (startingAt_sublist l a).subset (hl ▸ List.mem_cons_self)
    rw [List.filter_cons_of_pos (h p hp (startingAt_head_eq hl)), List.tail_cons, List.tail_cons]

/-- A list without repeated addresses that is split at a node. -/
lemma startingAt_append {p : ℕ × δ} {l₁ l₂ : List (ℕ × δ)}
    (h : ((l₁ ++ p :: l₂).map Prod.fst).Nodup) : startingAt (l₁ ++ p :: l₂) p.1 = p :: l₂ := by
  rw [startingAt, List.dropWhile_append_of_pos]
  · exact startingAt_cons_self p l₂
  · intro q hq
    rw [List.map_append, List.nodup_append] at h
    exact decide_eq_true (h.2.2 _ (List.mem_map_of_mem hq) _ (by simp))

namespace Chain

/-- The whole list is the rest from its head on. -/
lemma startingAt_head (h : Chain heap a l) : startingAt l a = l := by
  cases h with
  | nil => rfl
  | cons => exact startingAt_cons_self ..

/-- No node of a list is at the address `0`. -/
lemma zero_notMem (h : Chain heap a l) : 0 ∉ l.map Prod.fst := by
  intro hmem
  obtain ⟨p, hp, heq⟩ := List.mem_map.mp hmem
  exact (h.node_of_mem hp).1 heq

/-- **A step of a walk**: after a node comes the rest from its successor on. -/
lemma startingAt_node (h : Chain heap b l) (ha : a ∈ l.map Prod.fst) :
    ∃ n, heap a = some n ∧ startingAt l a = (a, n.data) :: startingAt l n.next ∧
      (n.next = 0 ∨ n.next ∈ l.map Prod.fst) := by
  obtain ⟨⟨a, d⟩, hp, rfl⟩ := List.mem_map.mp ha
  obtain ⟨l₁, l₂, rfl⟩ := List.append_of_mem hp
  obtain ⟨-, n, hn, rfl, hl₂⟩ := h.node_of_split
  refine ⟨n, hn, ?_⟩
  rw [startingAt_append h.nodup]
  cases l₂ with
  | nil =>
    have hnext : n.next = 0 := hl₂.head_eq_zero
    rw [hnext, startingAt_of_notMem h.zero_notMem]
    exact ⟨rfl, Or.inl rfl⟩
  | cons r l₃ =>
    have hnext : r.1 = n.next := hl₂.head_eq
    have hsplit : l₁ ++ (a, n.data) :: r :: l₃ = (l₁ ++ [(a, n.data)]) ++ r :: l₃ := by simp
    rw [hsplit] at h ⊢
    rw [← hnext, startingAt_append h.nodup]
    exact ⟨rfl, Or.inr (by simp)⟩

end Chain

end LinkedList
