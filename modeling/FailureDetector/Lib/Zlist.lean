import Mathlib.Data.List.Basic

set_option relaxedAutoImplicit false
set_option autoImplicit false

/-!
# Lists with a cursor

A `zlist` is a list that remembers the node it was last iterated to. The library that implements it is
known by its documentation only, so code that uses lists takes any implementation of the interface.
What can be seen of a list are its items, from the head, and those from the cursor on, which are none
when the cursor is `NULL`.

A list that is nothing but what can be seen of it is an implementation, and every other one is mapped
to it by an operation at a time. So whatever the code does with the lists of an implementation, it
does with these.

## Main definitions

* `ZlistImpl` — an implementation of the interface.
* `Zlist` — a list with its cursor.
* `ZlistImpl.view` — what can be seen of a list.

## Main results

* `ZlistImpl.view_push`, `ZlistImpl.view_next` and so on — an operation, seen from outside.
-/

/-- **An implementation of `zlist`** with lists of type `L` and items of type `α`, and what its
documentation says. `zlist_first` and `zlist_next` move the cursor and return the item under it, which
is `zlist_item` here. -/
class ZlistImpl (L : Type*) (α : outParam (Type*)) where
  /-- The items, from the head. -/
  items : L → List α
  /-- The items from the cursor on. -/
  cursor : L → List α
  /-- `zlist_new`. -/
  zlistNew : L
  /-- `zlist_size`. -/
  zlistSize : L → ℕ
  /-- `zlist_item`: the item under the cursor, or nothing if the cursor is `NULL`. -/
  zlistItem : L → Option α
  /-- `zlist_first`: move the cursor to the head. -/
  zlistFirst : L → L
  /-- `zlist_next`: move the cursor to the next node, or to the head if it is `NULL`. -/
  zlistNext : L → L
  /-- `zlist_push`: a new head. -/
  zlistPush : L → α → L
  /-- `zlist_append`: a new tail. -/
  zlistAppend : L → α → L
  /-- `zlist_purge`: remove every item. -/
  zlistPurge : L → L
  /-- The cursor is at a node of the list. -/
  cursor_suffix : ∀ l, cursor l <:+ items l
  items_new : items zlistNew = []
  size_eq : ∀ l, zlistSize l = (items l).length
  item_eq : ∀ l, zlistItem l = (cursor l).head?
  items_first : ∀ l, items (zlistFirst l) = items l
  cursor_first : ∀ l, cursor (zlistFirst l) = items l
  items_next : ∀ l, items (zlistNext l) = items l
  cursor_next : ∀ l a rest, cursor l = a :: rest → cursor (zlistNext l) = rest
  cursor_next_null : ∀ l, cursor l = [] → cursor (zlistNext l) = items l
  items_push : ∀ l a, items (zlistPush l a) = a :: items l
  cursor_push : ∀ l a, cursor (zlistPush l a) = []
  items_append : ∀ l a, items (zlistAppend l a) = items l ++ [a]
  cursor_append : ∀ l a, cursor (zlistAppend l a) = []
  items_purge : ∀ l, items (zlistPurge l) = []

export ZlistImpl (zlistNew zlistSize zlistItem zlistFirst zlistNext zlistPush zlistAppend
  zlistPurge)

/-- A `zlist_t`. -/
@[ext] structure Zlist (α : Type*) where
  /-- The items, from the head. -/
  items : List α
  /-- The items from the cursor on. -/
  cursor : List α
  /-- The cursor is at a node of the list. -/
  cursor_suffix : cursor <:+ items

namespace Zlist

variable {α : Type*}

/-- `zlist_new`. -/
def new : Zlist α := ⟨[], [], List.nil_suffix⟩

/-- `zlist_first`. -/
def first (l : Zlist α) : Zlist α := ⟨l.items, l.items, List.suffix_rfl⟩

/-- `zlist_next`. -/
def next (l : Zlist α) : Zlist α :=
  match h : l.cursor with
  | [] => l.first
  | _ :: rest => ⟨l.items, rest, ((List.suffix_cons _ _).trans (h ▸ l.cursor_suffix))⟩

/-- `zlist_push`. -/
def push (l : Zlist α) (a : α) : Zlist α := ⟨a :: l.items, [], List.nil_suffix⟩

/-- `zlist_append`. -/
def append (l : Zlist α) (a : α) : Zlist α := ⟨l.items ++ [a], [], List.nil_suffix⟩

/-- Moving the cursor keeps the items. -/
lemma items_next (l : Zlist α) : l.next.items = l.items := by
  unfold next
  split
  · rfl
  · rfl

/-- The cursor moves by one node, unless it is `NULL`. -/
lemma cursor_next {l : Zlist α} {a : α} {rest : List α} (h : l.cursor = a :: rest) :
    l.next.cursor = rest := by
  unfold next
  split
  · simp_all
  · simp_all

/-- The cursor moves to the head if it is `NULL`. -/
lemma cursor_next_null {l : Zlist α} (h : l.cursor = []) : l.next.cursor = l.items := by
  unfold next
  split
  · rfl
  · simp_all

/-- These lists are an implementation. -/
instance : ZlistImpl (Zlist α) α where
  items := items
  cursor := cursor
  zlistNew := new
  zlistSize := fun l => l.items.length
  zlistItem := fun l => l.cursor.head?
  zlistFirst := first
  zlistNext := next
  zlistPush := push
  zlistAppend := append
  zlistPurge := fun _ => new
  cursor_suffix := cursor_suffix
  items_new := rfl
  size_eq := fun _ => rfl
  item_eq := fun _ => rfl
  items_first := fun _ => rfl
  cursor_first := fun _ => rfl
  items_next := items_next
  cursor_next := fun _ _ _ => cursor_next
  cursor_next_null := fun _ => cursor_next_null
  items_push := fun _ _ => rfl
  cursor_push := fun _ _ => rfl
  items_append := fun _ _ => rfl
  cursor_append := fun _ _ => rfl
  items_purge := fun _ => rfl

end Zlist

namespace ZlistImpl

variable {L α : Type*} [ZlistImpl L α] {l : L} {a : α}

/-- The cursor is `NULL` when there is no item under it. -/
lemma item_eq_none : zlistItem l = none ↔ cursor l = [] := by
  rw [item_eq]
  exact List.head?_eq_none_iff

/-- The item under the cursor begins the rest of the list. -/
lemma item_eq_some : zlistItem l = some a ↔ ∃ rest, cursor l = a :: rest := by
  rw [item_eq]
  exact List.head?_eq_some_iff

/-- Moving off an item shortens what is left to iterate over. -/
lemma length_cursor_next (h : zlistItem l = some a) :
    (cursor (zlistNext l)).length < (cursor l).length := by
  obtain ⟨rest, hrest⟩ := item_eq_some.mp h
  rw [cursor_next l a rest hrest, hrest]
  exact Nat.lt_succ_self _

/-! ### Seen from outside -/

/-- **What can be seen of a list.** -/
def view (l : L) : Zlist α := ⟨items l, cursor l, cursor_suffix l⟩

/-- The item under the cursor can be seen. -/
@[simp] lemma item_view (l : L) : zlistItem (view l) = zlistItem l := (item_eq l).symm

/-- So can the number of items. -/
@[simp] lemma size_view (l : L) : zlistSize (view l) = zlistSize l := (size_eq l).symm

/-- `zlist_first`, seen from outside. -/
@[simp] lemma view_first (l : L) : view (zlistFirst l) = zlistFirst (view l) :=
  Zlist.ext (items_first l) (cursor_first l)

/-- `zlist_next`, seen from outside. -/
@[simp] lemma view_next (l : L) : view (zlistNext l) = zlistNext (view l) := by
  refine Zlist.ext ((items_next l).trans (items_next (view l)).symm) ?_
  cases h : cursor l with
  | nil => exact (cursor_next_null l h).trans (cursor_next_null (view l) h).symm
  | cons a rest => exact (cursor_next l a rest h).trans (cursor_next (view l) a rest h).symm

/-- `zlist_push`, seen from outside. -/
@[simp] lemma view_push (l : L) (a : α) : view (zlistPush l a) = zlistPush (view l) a :=
  Zlist.ext (items_push l a) (cursor_push l a)

/-- `zlist_append`, seen from outside. -/
@[simp] lemma view_append (l : L) (a : α) : view (zlistAppend l a) = zlistAppend (view l) a :=
  Zlist.ext (items_append l a) (cursor_append l a)

/-- A list without items has no cursor either. -/
lemma view_of_items_eq_nil (h : items l = []) : view l = Zlist.new := by
  refine Zlist.ext h ?_
  have hsuffix := cursor_suffix l
  rw [h] at hsuffix
  exact List.suffix_nil.mp hsuffix

/-- `zlist_new`, seen from outside. -/
@[simp] lemma view_new : view (zlistNew : L) = zlistNew := view_of_items_eq_nil items_new

/-- `zlist_purge`, seen from outside. -/
@[simp] lemma view_purge (l : L) : view (zlistPurge l) = zlistPurge (view l) :=
  view_of_items_eq_nil (items_purge l)

end ZlistImpl
