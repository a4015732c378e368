import Mathlib.Data.Int.Notation
import Mathlib.Data.List.Basic
import Mathlib.Data.List.Nodup
import Mathlib.Data.List.Perm.Basic

set_option relaxedAutoImplicit false
set_option autoImplicit false

/-!
# Intrusive hash tables in application order

A `uthash` table threads its elements on a doubly linked list in the order they were added, and
the table is that list: adding appends, sorting reorders it, and deleting an element connects the
two neighbours that its links name.

Nothing here keeps the keys distinct; that is for the code that adds elements to see to.

## Main definitions

* `HashTable.keys`, `HashTable.find`, `HashTable.add`, `HashTable.sort`, `HashTable.update` — the
  table's operations.
* `HashTable.Links`, `HashTable.links` — the links of an element.
* `HashTable.deleteLinked` — deletion along given links; `HashTable.delete` — along its own.

## Main results

* `HashTable.find_eq_none`, `HashTable.find_eq_some` — what a lookup finds.
* `HashTable.delete_eq_filter` — deleting an element removes it and nothing else.
* `HashTable.keys_sort`, `HashTable.keys_update` — sorting and updating keep the keys.
* `HashTable.find_perm`, `HashTable.find_add`, `HashTable.find_filter`, `HashTable.find_update` —
  lookups after each operation.
-/

namespace HashTable

variable {α κ : Type*} [DecidableEq κ] (key : α → κ)

/-- The keys of a table, in application order. -/
def keys (t : List α) : List κ := t.map key

/-- `HASH_FIND`. -/
def find (t : List α) (k : κ) : Option α := t.find? fun e => key e = k

/-- `HASH_ADD`: the new element becomes the last one. -/
def add (t : List α) (e : α) : List α := t ++ [e]

/-- `HASH_SORT`, by a comparison function with the C convention. -/
def sort (cmp : α → α → ℤ) (t : List α) : List α := t.mergeSort fun a b => cmp a b ≤ 0

/-- Change the element with key `k` in place. -/
def update (t : List α) (k : κ) (f : α → α) : List α := t.map fun e => if key e = k then f e else e

/-- The `prev` and `next` pointers of an element, as the keys of the elements they point to. -/
structure Links (κ : Type*) where
  prev : Option κ
  next : Option κ

/-- The links of the element with key `k`. -/
def links (t : List α) (k : κ) : Links κ where
  prev := (t.takeWhile fun e => key e ≠ k).getLast?.map key
  next := (t.dropWhile fun e => key e ≠ k).tail.head?.map key

/-- `HASH_DELETE_HH`, for an element that holds the links `l`: the element before it is linked to
the element after it. Without an element before it the head moves to the element after it, and
without either the table is gone. -/
def deleteLinked (l : Links κ) (t : List α) : List α :=
  (match l.prev with
    | none => []
    | some p => (t.takeWhile fun e => key e ≠ p) ++ (find key t p).toList) ++
  (match l.next with
    | none => []
    | some n => t.dropWhile fun e => key e ≠ n)

/-- `HASH_DEL` of the element with key `k`. -/
def delete (t : List α) (k : κ) : List α := deleteLinked key (links key t k) t

/-- A lookup finds nothing exactly when the key is not in the table. -/
lemma find_eq_none {t : List α} {k : κ} : find key t k = none ↔ k ∉ keys key t := by
  simp [find, keys]

/-- A lookup finds an element of the table with the key. -/
lemma find_eq_some {t : List α} {k : κ} {e : α} (h : find key t k = some e) :
    e ∈ t ∧ key e = k :=
  ⟨List.mem_of_find?_eq_some h, by simpa using List.find?_some h⟩

/-- The key that a lookup finds is in the table. -/
lemma mem_keys_of_find {t : List α} {k : κ} {e : α} (h : find key t k = some e) :
    k ∈ keys key t := by
  obtain ⟨hmem, rfl⟩ := find_eq_some key h
  exact List.mem_map_of_mem hmem

/-- With distinct keys, a lookup of an element's key finds that element. -/
lemma find_of_mem {t : List α} (hnodup : (keys key t).Nodup) {e : α} (he : e ∈ t) :
    find key t (key e) = some e := by
  cases h : find key t (key e) with
  | none => exact absurd (List.mem_map_of_mem he) ((find_eq_none key).mp h)
  | some e' =>
    obtain ⟨hmem, hkey⟩ := find_eq_some key h
    rw [List.inj_on_of_nodup_map hnodup hmem he hkey]

omit [DecidableEq κ] in
/-- Adding an element adds its key. -/
@[simp] lemma keys_add (t : List α) (e : α) : keys key (add t e) = keys key t ++ [key e] := by
  simp [keys, add]

/-- Sorting keeps the elements. -/
lemma sort_perm (cmp : α → α → ℤ) (t : List α) : (sort cmp t).Perm t := List.mergeSort_perm t _

/-- Only the empty table is empty when sorted. -/
@[simp] lemma sort_eq_nil {cmp : α → α → ℤ} {t : List α} : sort cmp t = [] ↔ t = [] := by
  constructor
  · intro h
    exact (h ▸ sort_perm cmp t).nil_eq.symm
  · rintro rfl
    exact List.mergeSort_nil

omit [DecidableEq κ] in
/-- Sorting keeps the keys. -/
lemma keys_sort (cmp : α → α → ℤ) (t : List α) : (keys key (sort cmp t)).Perm (keys key t) :=
  (sort_perm cmp t).map key

/-- Updating an element keeps the keys, in their order, if it keeps its own. -/
lemma keys_update {t : List α} {k : κ} {f : α → α} (hf : ∀ e, key (f e) = key e) :
    keys key (update key t k f) = keys key t := by
  simp only [keys, update, List.map_map]
  refine List.map_congr_left fun e _ => ?_
  by_cases h : key e = k
  · simp [h, hf]
  · simp [h]

/-- The table up to an element whose key does not occur before it. -/
lemma takeWhile_key {l₁ l₂ : List α} {e : α} (h : key e ∉ keys key l₁) :
    ((l₁ ++ e :: l₂).takeWhile fun x => key x ≠ key e) = l₁ := by
  have hall : ∀ x ∈ l₁, (decide (key x ≠ key e)) = true := by
    intro x hx
    have hne : key x ≠ key e := fun heq => h (heq ▸ List.mem_map_of_mem hx)
    simpa using hne
  rw [List.takeWhile_append_of_pos hall]
  simp

/-- The table from an element whose key does not occur before it. -/
lemma dropWhile_key {l₁ l₂ : List α} {e : α} (h : key e ∉ keys key l₁) :
    ((l₁ ++ e :: l₂).dropWhile fun x => key x ≠ key e) = e :: l₂ := by
  have hall : ∀ x ∈ l₁, (decide (key x ≠ key e)) = true := by
    intro x hx
    have hne : key x ≠ key e := fun heq => h (heq ▸ List.mem_map_of_mem hx)
    simpa using hne
  rw [List.dropWhile_append_of_pos hall]
  simp

/-- With distinct keys, deleting an element takes it out and nothing else.

**Proof sketch.** The links name the last element before and the first element after the deleted
one; cut the table at either. -/
lemma delete_append {l₁ l₂ : List α} {e : α} (h : (keys key (l₁ ++ e :: l₂)).Nodup) :
    delete key (l₁ ++ e :: l₂) (key e) = l₁ ++ l₂ := by
  simp only [keys, List.map_append, List.map_cons, List.nodup_append, List.nodup_cons,
    List.mem_cons] at h
  obtain ⟨h₁, ⟨he₂, h₂⟩, hdisj⟩ := h
  have he₁ : key e ∉ keys key l₁ := fun hmem => hdisj _ hmem _ (Or.inl rfl) rfl
  simp only [delete, deleteLinked, links, takeWhile_key key he₁, dropWhile_key key he₁,
    List.tail_cons]
  congr 1
  · rcases List.eq_nil_or_concat l₁ with rfl | ⟨l, x, rfl⟩
    · rfl
    · have hx : key x ∉ keys key l := by
        simp only [List.concat_eq_append, List.map_append, List.map_cons, List.map_nil] at h₁
        exact fun hmem => (List.nodup_append.mp h₁).2.2 _ hmem _ (List.mem_singleton.mpr rfl) rfl
      have hfind : find key (l ++ x :: e :: l₂) (key x) = some x := by
        have hnone : l.find? (fun y => decide (key y = key x)) = none := by
          simpa [keys] using hx
        rw [find, List.find?_append, hnone]
        simp
      simp only [List.concat_eq_append, List.append_assoc, List.cons_append, List.nil_append,
        List.getLast?_append, List.getLast?_singleton, Option.map_some, Option.some_or]
      rw [takeWhile_key key hx, hfind]
      rfl
  · cases l₂ with
    | nil => rfl
    | cons y l =>
      have hy : key y ∉ keys key (l₁ ++ [e]) := by
        intro hmem
        simp only [keys, List.map_append, List.mem_append, List.map_cons, List.map_nil,
          List.mem_singleton] at hmem
        rcases hmem with hmem | hmem
        · exact hdisj _ hmem _ (Or.inr (List.mem_map_of_mem List.mem_cons_self)) rfl
        · exact he₂ (hmem ▸ List.mem_map_of_mem List.mem_cons_self)
      have hsplit : l₁ ++ e :: y :: l = (l₁ ++ [e]) ++ y :: l := by simp
      simp only [List.head?_cons, Option.map_some]
      rw [hsplit, dropWhile_key key hy]

/-- **Deleting an element removes it and nothing else**, in a table with distinct keys. -/
lemma delete_eq_filter {t : List α} {k : κ} (hnodup : (keys key t).Nodup) (hk : k ∈ keys key t) :
    delete key t k = t.filter fun e => key e ≠ k := by
  obtain ⟨e, he, rfl⟩ := List.mem_map.mp hk
  obtain ⟨l₁, l₂, rfl⟩ := List.append_of_mem he
  rw [delete_append key hnodup]
  simp only [keys, List.map_append, List.map_cons, List.nodup_append, List.nodup_cons,
    List.mem_cons] at hnodup
  obtain ⟨-, ⟨he₂, -⟩, hdisj⟩ := hnodup
  have hl₁ : l₁.filter (fun x => key x ≠ key e) = l₁ := by
    refine List.filter_eq_self.mpr fun x hx => ?_
    simpa using hdisj _ (List.mem_map_of_mem hx) _ (Or.inl rfl)
  have hl₂ : l₂.filter (fun x => key x ≠ key e) = l₂ := by
    refine List.filter_eq_self.mpr fun x hx => ?_
    have hne : key x ≠ key e := fun heq => he₂ (heq ▸ List.mem_map_of_mem hx)
    simpa using hne
  rw [List.filter_append, List.filter_cons_of_neg (by simp), hl₁, hl₂]

/-- Deleting an element removes its key and no other. -/
lemma keys_delete {t : List α} {k : κ} (hnodup : (keys key t).Nodup) (hk : k ∈ keys key t) :
    keys key (delete key t k) = (keys key t).filter (· ≠ k) := by
  rw [delete_eq_filter key hnodup hk, keys, keys, List.filter_map]
  rfl

/-! ### Lookups after an operation -/

/-- A lookup does not depend on the order of elements with distinct keys. -/
lemma find_perm {t t' : List α} (hnodup : (keys key t).Nodup) (hperm : t'.Perm t) (k : κ) :
    find key t' k = find key t k := by
  cases h : find key t' k with
  | none =>
    rw [find_eq_none] at h
    have hk : k ∉ keys key t := fun hmem => h ((hperm.map key).mem_iff.mpr hmem)
    exact ((find_eq_none key).mpr hk).symm
  | some e =>
    obtain ⟨hmem, rfl⟩ := find_eq_some key h
    exact (find_of_mem key hnodup (hperm.mem_iff.mp hmem)).symm

/-- A lookup after an element with a new key has been added. -/
lemma find_add {t : List α} {e : α} (hnew : key e ∉ keys key t) (k : κ) :
    find key (add t e) k = if k = key e then some e else find key t k := by
  rw [find, add, List.find?_append]
  by_cases hk : k = key e
  · have hnone : find key t k = none := (find_eq_none key).mpr (hk ▸ hnew)
    rw [find] at hnone
    rw [hnone, if_pos hk]
    simp [hk]
  · have hne : ¬ key e = k := fun h => hk h.symm
    simp [hk, hne, find]

/-- A lookup after an element has been taken out. -/
lemma find_filter (t : List α) (k k' : κ) :
    find key (t.filter fun e => key e ≠ k) k' = if k' = k then none else find key t k' := by
  by_cases hk : k' = k
  · rw [if_pos hk, find_eq_none, keys, List.mem_map]
    rintro ⟨e, he, heq⟩
    rw [List.mem_filter, decide_eq_true_iff] at he
    exact he.2 (heq.trans hk)
  · rw [if_neg hk, find, find, List.find?_filter]
    congr 1
    funext e
    by_cases he : key e = k'
    · simp [he, hk]
    · simp [he]

/-- A lookup after an element has been changed, but for its key. -/
lemma find_update {t : List α} {f : α → α} (hf : ∀ e, key (f e) = key e) (k k' : κ) :
    find key (update key t k f) k' =
      if k' = k then (find key t k).map f else find key t k' := by
  induction t with
  | nil => simp [find, update]
  | cons e t ih =>
    simp only [find, update, List.map_cons, List.find?_cons] at ih ⊢
    by_cases he : key e = k
    · by_cases hk : k' = k
      · simp [he, hk, hf]
      · have hne : ¬ k = k' := fun h => hk h.symm
        simpa [he, hk, hf, hne] using ih
    · by_cases hk : k' = k
      · simpa [he, hk] using ih
      · by_cases he' : key e = k'
        · simp [he', hk]
        · simpa [he, he', hk] using ih

end HashTable
