import Mathlib.Data.List.Basic
import Mathlib.Data.List.Nodup
import Mathlib.Logic.Function.Basic

set_option relaxedAutoImplicit false
set_option autoImplicit false

/-!
# Doubly linked lists

The link fields of the nodes of a heap are kept as two maps from nodes to nodes, one for each field.
A list of nodes is linked if each field leads from every node to its neighbour on that side, and
from the last node on that side nowhere.

Exchanging the two fields reverses the list, so that what is shown for one end holds for the other.

## Main definitions

* `DoublyLinked.Path` — a field leads along a list of nodes.
* `DoublyLinked.Links`, `DoublyLinked.Linked` — the two fields, and linked lists.
* `DoublyLinked.Links.pushFront`, `DoublyLinked.Links.pushBack`, `DoublyLinked.Links.unlink` —
  adding a node at either end and taking one out.
* `DoublyLinked.search`, `DoublyLinked.collect` — the loop that looks for a node, and the nodes it
  passes.

## Main results

* `DoublyLinked.Path.nodup`, `DoublyLinked.Path.unique` — a path that ends does not visit a node
  twice, and a node begins at most one.
* `DoublyLinked.Linked.pushFront`, `DoublyLinked.Linked.pushBack`, `DoublyLinked.Linked.unlink` —
  what the operations do to the list.
* `DoublyLinked.Linked.congr` — a list is only touched through its own nodes.
* `DoublyLinked.search_path` — where a search ends.
-/

namespace DoublyLinked

variable {ι : Type*}

/-! ### Paths along one field -/

/-- The field `f` leads from every node of the list to the next one, and from the last one to
`after`. -/
def Path (f : ι → Option ι) : List ι → Option ι → Prop
  | [], _ => True
  | x :: l, after => f x = l.head?.or after ∧ Path f l after

/-- Look for the first node that satisfies `p`, starting at `x`. The result is undefined if `fuel`
nodes are not enough. -/
def search (f : ι → Option ι) (p : ι → Bool) : ℕ → Option ι → Option (Option ι)
  | _, none => some none
  | 0, some _ => none
  | fuel + 1, some x => if p x then some (some x) else search f p fuel (f x)

/-- The first `n` nodes of the path that starts at `x`. -/
def collect (f : ι → Option ι) : ℕ → Option ι → List ι
  | _, none => []
  | 0, some _ => []
  | n + 1, some x => x :: collect f n (f x)

variable {f g : ι → Option ι} {l l' l₁ l₂ : List ι} {x y : ι} {a b : Option ι}

/-- There is nothing to follow in an empty list. -/
@[simp] lemma path_nil : Path f [] a := trivial

/-- A path begins with its first step. -/
lemma path_cons : Path f (x :: l) a ↔ f x = l.head?.or a ∧ Path f l a := Iff.rfl

/-- A path in two parts. -/
lemma path_append : Path f (l₁ ++ l₂) a ↔ Path f l₁ (l₂.head?.or a) ∧ Path f l₂ a := by
  induction l₁ with
  | nil => simp
  | cons x l₁ ih => simp [path_cons, ih, and_assoc, List.head?_append, Option.or_assoc]

/-- A path ends with its last step. -/
lemma path_concat : Path f (l ++ [x]) a ↔ Path f l (some x) ∧ f x = a := by
  simp [path_append, path_cons]

/-- A path depends on the field at its own nodes only. -/
lemma Path.congr (h : Path f l a) (hsame : ∀ x ∈ l, g x = f x) : Path g l a := by
  induction l with
  | nil => trivial
  | cons x l ih =>
    obtain ⟨hx, hl⟩ := h
    refine ⟨(hsame x List.mem_cons_self).trans hx, ih hl fun y hy => ?_⟩
    exact hsame y (List.mem_cons_of_mem _ hy)

/-- **A node begins at most one path that ends.** -/
lemma Path.unique (h : Path f l none) (h' : Path f l' none) (hhead : l.head? = l'.head?) :
    l = l' := by
  induction l generalizing l' with
  | nil => exact (List.head?_eq_none_iff.mp hhead.symm).symm
  | cons x l ih =>
    cases l' with
    | nil => cases hhead
    | cons y l' =>
      obtain rfl : x = y := Option.some.inj hhead
      obtain ⟨hx, hl⟩ := h
      obtain ⟨hx', hl'⟩ := h'
      rw [Option.or_none] at hx hx'
      rw [ih hl hl' (hx.symm.trans hx')]

/-- **A path that ends does not visit a node twice.**

**Proof sketch.** If the first node came up again, the path from there on would be the whole path,
which is longer. -/
lemma Path.nodup (h : Path f l none) : l.Nodup := by
  induction l with
  | nil => exact List.nodup_nil
  | cons x l ih =>
    rw [List.nodup_cons]
    refine ⟨fun hmem => ?_, ih h.2⟩
    obtain ⟨l₁, l₂, rfl⟩ := List.append_of_mem hmem
    have hsuffix : Path f (x :: l₂) none := (path_append.mp h.2).2
    have hlength := congrArg List.length (hsuffix.unique h rfl)
    simp only [List.length_cons, List.length_append] at hlength
    omega

/-- **A search along a path** finds the first node that satisfies the condition. -/
lemma search_path (h : Path f l none) (p : ι → Bool) {fuel : ℕ} (hfuel : l.length ≤ fuel) :
    search f p fuel l.head? = some (l.find? p) := by
  induction l generalizing fuel with
  | nil => cases fuel <;> rfl
  | cons x l ih =>
    obtain ⟨fuel, rfl⟩ := Nat.exists_eq_succ_of_ne_zero (Nat.ne_zero_of_lt hfuel)
    obtain ⟨hx, hl⟩ := h
    rw [List.head?_cons, search, List.find?_cons]
    cases hp : p x with
    | true => rfl
    | false =>
      rw [hx, Option.or_none]
      exact ih hl (Nat.le_of_succ_le_succ hfuel)

/-- **Collecting a path** yields its nodes. -/
lemma collect_path (h : Path f l none) : collect f l.length l.head? = l := by
  induction l with
  | nil => rfl
  | cons x l ih =>
    obtain ⟨hx, hl⟩ := h
    rw [List.head?_cons, List.length_cons, collect, hx, Option.or_none, ih hl]

variable [DecidableEq ι]

/-- Write the field of a node that may be missing: `if (p) p->f = v`. -/
def write (f : ι → Option ι) : Option ι → Option ι → ι → Option ι
  | none, _ => f
  | some p, v => Function.update f p v

/-- Only the given node is written. -/
lemma write_of_ne (hx : a ≠ some x) : write f a b x = f x := by
  cases a with
  | none => rfl
  | some p =>
    refine Function.update_of_ne ?_ _ _
    rintro rfl
    exact hx rfl

/-- Writing the field of a node outside of a path keeps the path. -/
lemma Path.update (h : Path f l a) (hx : x ∉ l) : Path (Function.update f x b) l a := by
  apply h.congr
  intro y hy
  apply Function.update_of_ne
  rintro rfl
  exact hx hy

/-- Writing the field of the last node leads the path elsewhere. -/
lemma Path.retarget (h : Path f l a) (hnodup : l.Nodup) : Path (write f l.getLast? b) l b := by
  rcases List.eq_nil_or_concat l with rfl | ⟨l, x, rfl⟩
  · trivial
  · rw [List.concat_eq_append] at *
    rw [path_concat] at h
    have hx : x ∉ l := by
      rw [List.nodup_append] at hnodup
      intro hmem
      exact hnodup.2.2 x hmem x List.mem_cons_self rfl
    rw [List.getLast?_append, List.getLast?_singleton, Option.some_or, write, path_concat]
    exact ⟨h.1.update hx, Function.update_self x b f⟩

/-- **Leading a path to one more node.** -/
lemma Path.concat (h : Path f l a) (hnodup : l.Nodup) (hx : x ∉ l) :
    Path (write (Function.update f x b) l.getLast? (some x)) (l ++ [x]) b := by
  rw [path_concat]
  refine ⟨(h.update hx).retarget hnodup, ?_⟩
  rw [write_of_ne, Function.update_self]
  intro hlast
  exact hx (List.mem_of_getLast? hlast)

/-- **Leading a path around one of its nodes.** -/
lemma Path.bypass (h : Path f (l₁ ++ x :: l₂) a) (hnodup : (l₁ ++ x :: l₂).Nodup) :
    Path (write f l₁.getLast? (f x)) (l₁ ++ l₂) a := by
  obtain ⟨h₁, hx, h₂⟩ := path_append.mp h
  obtain ⟨hnodup₁, hnodup₂, hdisj⟩ := List.nodup_append.mp hnodup
  rw [hx, path_append]
  refine ⟨h₁.retarget hnodup₁, h₂.congr fun y hy => write_of_ne ?_⟩
  intro hlast
  exact hdisj y (List.mem_of_getLast? hlast) y (List.mem_cons_of_mem _ hy) rfl

/-! ### The two link fields -/

/-- The link fields of all nodes. -/
@[ext] structure Links (ι : Type*) where
  next : ι → Option ι
  prev : ι → Option ι

namespace Links

/-- Link the node `x` in front of the list with the first node `head`. -/
def pushFront (s : Links ι) (head : Option ι) (x : ι) : Links ι where
  next := Function.update s.next x head
  prev := write (Function.update s.prev x none) head (some x)

/-- Link the node `x` behind the list with the last node `tail`. -/
def pushBack (s : Links ι) (tail : Option ι) (x : ι) : Links ι where
  next := write (Function.update s.next x none) tail (some x)
  prev := Function.update s.prev x tail

/-- Link the neighbours of the node `x` to each other. -/
def unlink (s : Links ι) (x : ι) : Links ι :=
  let next := write s.next (s.prev x) (s.next x)
  { next := next, prev := write s.prev (next x) (s.prev x) }

omit [DecidableEq ι] in
/-- The same nodes seen from the other end. -/
def swap (s : Links ι) : Links ι := ⟨s.prev, s.next⟩

omit [DecidableEq ι] in
@[simp] lemma swap_next (s : Links ι) : s.swap.next = s.prev := rfl

omit [DecidableEq ι] in
@[simp] lemma swap_prev (s : Links ι) : s.swap.prev = s.next := rfl

omit [DecidableEq ι] in
@[simp] lemma swap_swap (s : Links ι) : s.swap.swap = s := rfl

/-- Linking a node behind a list is linking it in front, seen from the other end. -/
lemma swap_pushBack (s : Links ι) (tail : Option ι) (x : ι) :
    (s.pushBack tail x).swap = s.swap.pushFront tail x := rfl

/-- Linking a node in front changes no other node but the one it is linked to. -/
lemma pushFront_of_ne {s : Links ι} {head : Option ι} (hx : y ≠ x) (hhead : head ≠ some y) :
    (s.pushFront head x).next y = s.next y ∧ (s.pushFront head x).prev y = s.prev y := by
  constructor
  · exact Function.update_of_ne hx _ _
  · show write (Function.update s.prev x none) head (some x) y = s.prev y
    rw [write_of_ne hhead, Function.update_of_ne hx]

/-- Unlinking a node changes no other node but its neighbours. -/
lemma unlink_of_ne {s : Links ι} (hprev : s.prev x ≠ some y) (hnext : s.next x ≠ some y)
    (hx : s.prev x ≠ some x) :
    (s.unlink x).next y = s.next y ∧ (s.unlink x).prev y = s.prev y := by
  constructor
  · exact write_of_ne hprev
  · show write s.prev (write s.next (s.prev x) (s.next x) x) (s.prev x) y = s.prev y
    rw [write_of_ne hx, write_of_ne hnext]

end Links

/-! ### Linked lists -/

/-- The nodes `l` are linked to each other in this order. -/
structure Linked (s : Links ι) (l : List ι) : Prop where
  next : Path s.next l none
  prev : Path s.prev l.reverse none

namespace Linked

variable {s s' : Links ι}

omit [DecidableEq ι] in
/-- The empty list. -/
lemma nil : Linked s [] := ⟨trivial, trivial⟩

omit [DecidableEq ι] in
/-- A list does not visit a node twice. -/
lemma nodup (h : Linked s l) : l.Nodup := h.next.nodup

omit [DecidableEq ι] in
/-- A list seen from the other end. -/
lemma swap (h : Linked s l) : Linked s.swap l.reverse :=
  ⟨h.prev, by simpa using h.next⟩

omit [DecidableEq ι] in
/-- **A list is only touched through its own nodes.** -/
lemma congr (h : Linked s l) (hnext : ∀ x ∈ l, s'.next x = s.next x)
    (hprev : ∀ x ∈ l, s'.prev x = s.prev x) : Linked s' l :=
  ⟨h.next.congr hnext, h.prev.congr fun x hx => hprev x (List.mem_reverse.mp hx)⟩

omit [DecidableEq ι] in
/-- The successor of a node of the list. -/
lemma next_eq (h : Linked s (l₁ ++ x :: l₂)) : s.next x = l₂.head? := by
  have hx := (path_append.mp h.next).2.1
  simpa using hx

omit [DecidableEq ι] in
/-- The successor of the first node. -/
lemma head_next (h : Linked s (x :: l)) : s.next x = l.head? := by
  have hsplit : Linked s ([] ++ x :: l) := h
  exact hsplit.next_eq

omit [DecidableEq ι] in
/-- The predecessor of a node of the list. -/
lemma prev_eq (h : Linked s (l₁ ++ x :: l₂)) : s.prev x = l₁.getLast? := by
  have hswap := h.swap
  simp only [List.reverse_append, List.reverse_cons, List.append_assoc,
    List.singleton_append] at hswap
  simpa using hswap.next_eq

/-- **Linking a node in front of the list.** -/
lemma pushFront (h : Linked s l) (hx : x ∉ l) : Linked (s.pushFront l.head? x) (x :: l) := by
  constructor
  · show Function.update s.next x l.head? x = l.head?.or none ∧ _
    rw [Function.update_self, Option.or_none]
    exact ⟨rfl, h.next.update hx⟩
  · have hconcat := h.prev.concat (b := none) (List.nodup_reverse.mpr h.nodup)
      (fun hmem => hx (List.mem_reverse.mp hmem))
    rw [List.getLast?_reverse] at hconcat
    rw [List.reverse_cons]
    exact hconcat

/-- **Linking a node behind the list.** -/
lemma pushBack (h : Linked s l) (hx : x ∉ l) : Linked (s.pushBack l.getLast? x) (l ++ [x]) := by
  have hfront := h.swap.pushFront (fun hmem => hx (List.mem_reverse.mp hmem))
  rw [List.head?_reverse, ← Links.swap_pushBack] at hfront
  simpa using hfront.swap

/-- **Taking a node out of the list.** -/
lemma unlink (h : Linked s (l₁ ++ x :: l₂)) : Linked (s.unlink x) (l₁ ++ l₂) := by
  have hprev := h.prev_eq
  have hnext := h.next_eq
  have hnodup := h.nodup
  have hself : s.prev x ≠ some x := by
    intro heq
    have hmem : x ∈ l₁ := List.mem_of_getLast? (hprev.symm.trans heq)
    exact (List.nodup_append.mp hnodup).2.2 x hmem x List.mem_cons_self rfl
  constructor
  · have hbypass := h.next.bypass hnodup
    rw [← hprev] at hbypass
    exact hbypass
  · have hrev := h.prev
    have hnodup' := List.nodup_reverse.mpr hnodup
    simp only [List.reverse_append, List.reverse_cons, List.append_assoc,
      List.singleton_append] at hrev hnodup'
    have hbypass := hrev.bypass hnodup'
    rw [List.getLast?_reverse, ← hnext] at hbypass
    rw [List.reverse_append]
    show Path (write s.prev (write s.next (s.prev x) (s.next x) x) (s.prev x)) _ none
    rw [write_of_ne hself]
    exact hbypass

end Linked

end DoublyLinked
