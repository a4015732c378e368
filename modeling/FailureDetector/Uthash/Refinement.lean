import FailureDetector.Lib.HashTable
import FailureDetector.Lib.Runs
import FailureDetector.Uthash.Sort

set_option relaxedAutoImplicit false
set_option autoImplicit false

/-!
# Programs on hash tables

The program looks an element up before it adds, changes or deletes it, and allocates the elements it
adds. Every sequence of such operations on a table of `uthash.h` ends, and leaves a table that the
integrity check of `uthash.h` accepts and that holds what the same operations on lists
(`HashTable.add`, `HashTable.delete`, `HashTable.update`, `HashTable.sort`) compute.

## Main definitions

* `FailureDetector.TableOp`, `FailureDetector.TableOp.apply`, `FailureDetector.UtTable.apply` — the
  operations, on lists and on tables.
* `FailureDetector.UtTable.Represents` — the table holds the list.

## Main results

* `FailureDetector.UtHash.Represents.fsck` — the integrity check accepts the table.
* `FailureDetector.UtHash.Represents.iter` — `HASH_ITER` visits every element once, in order, even
  if each is deleted when it is visited.
* `FailureDetector.UtTable.Represents.applyAll` — tables refine lists, over every sequence of
  operations.
-/

namespace FailureDetector

open CString DoublyLinked Runs

variable {ι : Type*} {hashFcn : CStr → UInt32} {h : UtHash ι} {elems : List ι} {x : ι}
  [DecidableEq ι]

/-! ### The integrity check -/

/-- The loop of the check over a linked list counts its elements. -/
lemma fsckList_linked {s : Links ι} {l₁ l₂ : List ι} (hlinked : Linked s (l₁ ++ l₂)) {fuel : ℕ}
    (hfuel : l₂.length ≤ fuel) (count : ℕ) :
    fsckList s fuel l₁.getLast? l₂.head? count = some (count + l₂.length) := by
  induction l₂ generalizing l₁ fuel count with
  | nil => cases fuel <;> rfl
  | cons x l₂ ih =>
    obtain ⟨fuel, rfl⟩ := Nat.exists_eq_succ_of_ne_zero (Nat.ne_zero_of_lt hfuel)
    have hsplit : l₁ ++ x :: l₂ = l₁ ++ [x] ++ l₂ := by simp
    rw [List.head?_cons, fsckList, hlinked.prev_eq, hlinked.next_eq, if_neg (fun hne => hne rfl)]
    have hrest := ih (hsplit ▸ hlinked) (Nat.le_of_succ_le_succ hfuel) (count + 1)
    rw [List.getLast?_concat] at hrest
    rw [hrest, List.length_cons, Nat.add_assoc, Nat.add_comm 1]

/-- The loop of the check over the buckets adds up their lengths. -/
lemma fsckBuckets_eq (hrep : h.Represents hashFcn elems) (hne : elems ≠ []) :
    fsckBuckets h = some elems.length := by
  have htbl := hrep.tbl hne
  obtain ⟨chains, hchained⟩ := htbl.chained
  have hloop : ∀ (is : List ℕ) (count : ℕ),
      is.foldlM (fun count i =>
        (fsckList h.hh.bkt h.tbl.numItems none (h.tbl.buckets i).hhHead 0).bind fun bktCount =>
          if (h.tbl.buckets i).count ≠ bktCount then none else some (count + bktCount)) count =
        some (count + (is.map fun i => (h.tbl.buckets i).count).sum) := by
    intro is
    induction is with
    | nil => exact fun count => rfl
    | cons i is ih =>
      intro count
      have hchain : Linked h.hh.bkt ([] ++ chains i) := hchained.linked i
      have hlist := fsckList_linked hchain (htbl.numItems ▸ hchained.length_le i) 0
      rw [List.getLast?_nil, ← hchained.head, Nat.zero_add, ← hchained.count] at hlist
      rw [List.foldlM_cons, hlist, Option.bind_some, if_neg (fun hne => hne rfl)]
      show (List.foldlM _ (count + (h.tbl.buckets i).count) is) = _
      rw [ih, List.map_cons, List.sum_cons, Nat.add_assoc]
  rw [fsckBuckets, hloop, hchained.sum_count htbl.numBuckets hrep.app.nodup, Nat.zero_add]

/-- **The integrity check of `uthash.h` accepts the table.** -/
lemma UtHash.Represents.fsck (hrep : h.Represents hashFcn elems) : hashFsck h = true := by
  rcases elems with - | ⟨x₀, elems⟩
  · rw [hashFsck, hrep.head]
    rfl
  · have hne : x₀ :: elems ≠ [] := List.cons_ne_nil _ _
    have hitems := (hrep.tbl hne).numItems
    have happ : Linked h.hh.app ([] ++ x₀ :: elems) := hrep.app
    have hlist := fsckList_linked happ hitems.ge 0
    rw [List.getLast?_nil, ← hrep.head, Nat.zero_add] at hlist
    rw [hashFsck]
    split
    · rfl
    · rw [decide_eq_true_iff, fsckBuckets_eq hrep hne, hlist, hitems]
      exact ⟨rfl, rfl⟩

/-! ### Iteration -/

omit [DecidableEq ι] in
/-- A table depends on the handles of its own elements only. -/
lemma UtHash.Represents.congr (hrep : h.Represents hashFcn elems) {hh : UtHashHandles ι}
    (happ : ∀ x ∈ elems, hh.app.next x = h.hh.app.next x ∧ hh.app.prev x = h.hh.app.prev x)
    (hbkt : ∀ x ∈ elems, hh.bkt.next x = h.hh.bkt.next x ∧ hh.bkt.prev x = h.hh.bkt.prev x)
    (hkey : ∀ x ∈ elems, hh.key x = h.hh.key x ∧ hh.hashv x = h.hh.hashv x) :
    UtHash.Represents hashFcn { h with hh := hh } elems := by
  refine ⟨hrep.head, hrep.app.congr (fun x hx => (happ x hx).1) fun x hx => (happ x hx).2,
    fun hne => ?_, hrep.bounded⟩
  have htbl := hrep.tbl hne
  obtain ⟨chains, hchained⟩ := htbl.chained
  have hmem : ∀ i, ∀ x ∈ chains i, x ∈ elems := fun i x hx => ((hchained.mem i x).mp hx).1
  have hlinked : ∀ i, Linked hh.bkt (chains i) := fun i => (hchained.linked i).congr
    (fun x hx => (hbkt x (hmem i x hx)).1) fun x hx => (hbkt x (hmem i x hx)).2
  have hchained' :
      Chained h.hh.hashv h.tbl.numBuckets h.tbl.buckets hh.bkt {x | x ∈ elems} chains :=
    ⟨hlinked, hchained.head, hchained.count, hchained.mem⟩
  refine ⟨htbl.tail, htbl.numItems, htbl.numBuckets,
    ⟨chains, hchained'.congr fun x hx => (hkey x hx).2⟩, fun x hx => ?_⟩
  show hh.hashv x = hashFcn (hh.key x)
  rw [(hkey x hx).1, (hkey x hx).2, htbl.hashv x hx]

omit [DecidableEq ι] in
/-- **`HASH_ITER` visits every element once, in order**, with a body that takes the element that it
is given out of the table. -/
lemma UtHash.Represents.iter {σ : Type*} (table : σ → UtHash ι) {body : σ → ι → Option σ}
    (hbody : ∀ s x rest s', (table s).Represents hashFcn (x :: rest) → body s x = some s' →
      (table s').Represents hashFcn rest) (s : σ)
    (hrep : (table s).Represents hashFcn elems) :
    hashIter table body s = elems.foldlM body s ∧
      ∀ s', elems.foldlM body s = some s' → (table s').head = none := by
  have hloop : ∀ (elems : List ι) (s : σ) (fuel : ℕ), (table s).Represents hashFcn elems →
      elems.length ≤ fuel →
      hashIterLoop (fun s => (table s).hh) body fuel elems.head? elems.tail.head? s =
          elems.foldlM body s ∧
        ∀ s', elems.foldlM body s = some s' → (table s').head = none := by
    intro elems
    induction elems with
    | nil =>
      intro s fuel hrep _
      refine ⟨by cases fuel <;> rfl, fun s' hs' => ?_⟩
      cases hs'
      exact hrep.head
    | cons x elems ih =>
      intro s fuel hrep hfuel
      obtain ⟨fuel, rfl⟩ := Nat.exists_eq_succ_of_ne_zero (Nat.ne_zero_of_lt hfuel)
      rw [List.head?_cons, List.tail_cons, hashIterLoop, List.foldlM_cons]
      cases hcase : body s x with
      | none => exact ⟨rfl, nofun⟩
      | some s₁ =>
        have hdel := hbody s x elems s₁ hrep hcase
        have hnext : elems.head?.bind (table s₁).hh.app.next = elems.tail.head? := by
          cases elems with
          | nil => rfl
          | cons y elems => exact hdel.app.head_next
        rw [Option.bind_some, hnext]
        exact ih s₁ fuel hdel (Nat.le_of_succ_le_succ hfuel)
  have hsecond : (table s).head.bind (table s).hh.app.next = elems.tail.head? := by
    rw [hrep.head]
    cases elems with
    | nil => rfl
    | cons y elems => exact hrep.app.head_next
  refine ⟨?_, (hloop elems s _ hrep le_rfl).2⟩
  rw [hashIter, hsecond, hrep.head]
  by_cases hne : elems = []
  · subst hne
    cases (table s).tbl.numItems <;> rfl
  · exact (hloop elems s _ hrep (hrep.tbl hne).numItems.ge).1

/-! ### The operations of the program -/

variable {δ κ : Type*} [DecidableEq κ]

/-- What the program does to a table whose elements have the keys `key`. -/
inductive TableOp (ι : Type*) (key : δ → κ)
  /-- Add the element `x`, which `malloc` has returned, unless there is one with its key. -/
  | add (x : ι) (d : δ)
  /-- Delete the element with a key, if there is one. -/
  | remove (k : κ)
  /-- Write fields of the element with a key, if there is one, but not the key. -/
  | update (k : κ) (f : δ → δ) (keeps : ∀ d, key (f d) = key d)
  /-- Sort the table. -/
  | sort

variable (hashFcn) {key : δ → κ} (str : κ → CStr) (cmpfcn : δ → δ → ℤ)

/-- An operation on a list. -/
def TableOp.apply (t : List δ) : TableOp ι key → List δ
  | .add _ d => if key d ∈ HashTable.keys key t then t else HashTable.add t d
  | .remove k => if k ∈ HashTable.keys key t then HashTable.delete key t k else t
  | .update k f _ => HashTable.update key t k f
  | .sort => HashTable.sort cmpfcn t

/-- The elements of a table. -/
def UtHash.elements (h : UtHash ι) : List ι := collect h.hh.app.next h.tbl.numItems h.head

/-- An operation on a table. -/
def UtTable.apply (s : UtTable ι δ) : TableOp ι key → Option (UtTable ι δ)
  | .add x d => (hashFindStr hashFcn s.toUtHash (str (key d))).bind fun found =>
    match found with
    | some _ => some s
    | none =>
      (hashAddStr hashFcn s.toUtHash (str (key d)) x).map fun h =>
        ⟨h, Function.update s.data x d⟩
  | .remove k => (hashFindStr hashFcn s.toUtHash (str k)).map fun found =>
    match found with
    | none => s
    | some x => ⟨hashDelete s.toUtHash x, s.data⟩
  | .update k f _ => (hashFindStr hashFcn s.toUtHash (str k)).map fun found =>
    match found with
    | none => s
    | some x => ⟨s.toUtHash, Function.update s.data x (f (s.data x))⟩
  | .sort => (hashSrt (fun a b => cmpfcn (s.data a) (s.data b)) s.toUtHash).map fun h => ⟨h, s.data⟩

/-- The memory that an operation may use for a new element. -/
def TableOp.address : TableOp ι key → Option ι
  | .add x _ => some x
  | _ => none

/-- The memory for an element that is added is not in use in the table. -/
def TableOp.Fresh (s : UtTable ι δ) (op : TableOp ι key) : Prop :=
  ∀ x, op.address = some x → x ∉ s.elements

/-- Elements are only added in the memory that the operation is given. -/
def TableOp.Confined (op : TableOp ι key) (s s' : UtTable ι δ) : Prop :=
  ∀ y ∈ s'.elements, y ∈ s.elements ∨ op.address = some y

variable (key) in
/-- The table holds the list `t`, whose keys are distinct. -/
structure UtTable.Represents (s : UtTable ι δ) (t : List δ) : Prop where
  elems : ∃ elems, s.toUtHash.Represents hashFcn elems ∧ t = elems.map s.data ∧
    ∀ x ∈ elems, s.hh.key x = str (key (s.data x))
  nodup : (HashTable.keys key t).Nodup

variable {hashFcn} {str} {cmpfcn} {s : UtTable ι δ} {t : List δ}

omit [DecidableEq ι] in
/-- The elements of a table that stands for a list. -/
lemma UtHash.Represents.elements_eq (hrep : h.Represents hashFcn elems) : h.elements = elems := by
  by_cases hne : elems = []
  · subst hne
    rw [UtHash.elements, hrep.head]
    cases h.tbl.numItems <;> rfl
  · rw [UtHash.elements, (hrep.tbl hne).numItems, hrep.head, collect_path hrep.app.next]

omit [DecidableEq ι] [DecidableEq κ] in
/-- The keys in the handles of a table with distinct keys are distinct. -/
lemma nodup_handleKeys (hstr : Function.Injective str) (ht : (HashTable.keys key t).Nodup)
    (heq : t = elems.map s.data) (hkeys : ∀ x ∈ elems, s.hh.key x = str (key (s.data x))) :
    (elems.map s.hh.key).Nodup := by
  have hmap : elems.map s.hh.key = (HashTable.keys key t).map str := by
    rw [heq, HashTable.keys, List.map_map, List.map_map]
    exact List.map_congr_left hkeys
  rw [hmap]
  exact ht.map hstr

omit [DecidableEq ι] [DecidableEq κ] in
/-- An element is known by its key. -/
lemma key_eq_iff (ht : (HashTable.keys key t).Nodup) (heq : t = elems.map s.data) {x y : ι}
    (hx : x ∈ elems) (hy : y ∈ elems) : key (s.data y) = key (s.data x) ↔ y = x := by
  rw [heq, HashTable.keys, List.map_map] at ht
  constructor
  · exact fun hkey => List.inj_on_of_nodup_map ht hy hx hkey
  · rintro rfl
    rfl

variable (key) in
/-- Where a lookup ends: at the only element with the key, or nowhere. -/
inductive Found (s : UtTable ι δ) (elems : List ι) (t : List δ) (k : κ) : Option ι → Prop
  /-- The key is not in the table. -/
  | absent (new : k ∉ HashTable.keys key t) : Found s elems t k none
  /-- The element `x` has the key, and no other has. -/
  | present (x : ι) (mem : x ∈ elems) (mem_keys : k ∈ HashTable.keys key t)
      (iff : ∀ y ∈ elems, key (s.data y) = k ↔ y = x) : Found s elems t k (some x)

omit [DecidableEq ι] [DecidableEq κ] in
/-- **A lookup finds the element with the key.** -/
lemma UtTable.Represents.found (hrep : s.Represents hashFcn key str t)
    (hstr : Function.Injective str) (helems : s.toUtHash.Represents hashFcn elems)
    (heq : t = elems.map s.data) (hkeys : ∀ x ∈ elems, s.hh.key x = str (key (s.data x))) (k : κ) :
    ∃ found, hashFindStr hashFcn s.toUtHash (str k) = some found ∧
      Found key s elems t k found := by
  refine ⟨_, helems.find (nodup_handleKeys hstr hrep.nodup heq hkeys) (str k), ?_⟩
  cases hfind : elems.find? fun x => s.hh.key x = str k with
  | none =>
    rw [List.find?_eq_none] at hfind
    refine .absent fun hmem => ?_
    rw [heq, HashTable.keys, List.map_map, List.mem_map] at hmem
    obtain ⟨x, hx, rfl⟩ := hmem
    exact hfind x hx (decide_eq_true (hkeys x hx))
  | some x =>
    have hx := List.mem_of_find?_eq_some hfind
    have hkey : key (s.data x) = k := by
      apply hstr
      rw [← hkeys x hx]
      simpa using List.find?_some hfind
    subst hkey
    refine .present x hx ?_ fun y hy => key_eq_iff hrep.nodup heq hx hy
    rw [heq, HashTable.keys, List.map_map]
    exact List.mem_map_of_mem hx

omit [DecidableEq ι] in
/-- **A lookup finds what it finds in the list.** -/
lemma UtTable.Represents.find (hrep : s.Represents hashFcn key str t)
    (hstr : Function.Injective str) (k : κ) :
    ∃ found, hashFindStr hashFcn s.toUtHash (str k) = some found ∧
      found.map s.data = HashTable.find key t k := by
  obtain ⟨elems, helems, heq, hkeys⟩ := hrep.elems
  obtain ⟨found, hfind, hfound⟩ := hrep.found hstr helems heq hkeys k
  refine ⟨found, hfind, ?_⟩
  cases hfound with
  | absent hnew => exact ((HashTable.find_eq_none key).mpr hnew).symm
  | present x hx hmem hiff =>
    have hkey : key (s.data x) = k := (hiff x hx).mpr rfl
    rw [← hkey, HashTable.find_of_mem key hrep.nodup (heq ▸ List.mem_map_of_mem hx)]
    rfl

omit [DecidableEq κ] in
/-- **`HASH_ADD_STR`** of an element with a new key, in memory that is not in use, adds it. -/
lemma UtTable.Represents.hashAddStr (hrep : s.Represents hashFcn key str t) {x : ι}
    (hx : x ∉ s.elements) {d : δ} (hnew : key d ∉ HashTable.keys key t) :
    ∃ h', FailureDetector.hashAddStr hashFcn s.toUtHash (str (key d)) x = some h' ∧
      h'.elements = s.elements ++ [x] ∧
      UtTable.Represents hashFcn key str ⟨h', Function.update s.data x d⟩ (HashTable.add t d) := by
  obtain ⟨elems, helems, heq, hkeys⟩ := hrep.elems
  rw [helems.elements_eq] at hx ⊢
  obtain ⟨h', hadd, hrep', hkey'⟩ := helems.add hx (str (key d))
  have hold : ∀ y ∈ elems, y ≠ x := by
    rintro y hy rfl
    exact hx hy
  refine ⟨h', hadd, hrep'.elements_eq, ⟨⟨_, hrep', ?_, ?_⟩, ?_⟩⟩
  · dsimp only
    rw [HashTable.add, heq, List.map_append, List.map_singleton, Function.update_self]
    congr 1
    exact (List.map_congr_left fun y hy => Function.update_of_ne (hold y hy) _ _).symm
  · intro y hy
    dsimp only
    rw [hkey']
    rcases List.mem_append.mp hy with hy | hy
    · rw [Function.update_of_ne (hold y hy), Function.update_of_ne (hold y hy), hkeys y hy]
    · rw [List.mem_singleton.mp hy, Function.update_self, Function.update_self]
  · rw [HashTable.keys_add, List.nodup_append]
    refine ⟨hrep.nodup, List.nodup_singleton _, fun k hk k' hk' => ?_⟩
    rw [List.mem_singleton.mp hk']
    rintro rfl
    exact hnew hk

/-- Adding an element. -/
lemma UtTable.Represents.add (hrep : s.Represents hashFcn key str t)
    (hstr : Function.Injective str) {x : ι} (hx : x ∉ s.elements) (d : δ) :
    ∃ s', s.apply hashFcn str cmpfcn (.add x d : TableOp ι key) = some s' ∧
      s'.Represents hashFcn key str ((.add x d : TableOp ι key).apply cmpfcn t) ∧
      (.add x d : TableOp ι key).Confined s s' := by
  obtain ⟨elems, helems, heq, hkeys⟩ := hrep.elems
  obtain ⟨found, hfind, hfound⟩ := hrep.found hstr helems heq hkeys (key d)
  cases hfound with
  | present y hy hmem hiff =>
    refine ⟨s, ?_, ?_, fun y => Or.inl⟩
    · rw [UtTable.apply, hfind]
      rfl
    · rw [TableOp.apply, if_pos hmem]
      exact hrep
  | absent hnew =>
    obtain ⟨h', hadd, helements, hrep'⟩ := hrep.hashAddStr hx hnew
    rw [TableOp.apply, if_neg hnew]
    refine ⟨⟨h', Function.update s.data x d⟩, ?_, hrep', fun y hy => ?_⟩
    · rw [UtTable.apply, hfind]
      show (FailureDetector.hashAddStr hashFcn s.toUtHash (str (key d)) x).map _ = _
      rw [hadd]
      rfl
    · have hy : y ∈ s.elements ++ [x] := helements ▸ hy
      rcases List.mem_append.mp hy with hy | hy
      · exact Or.inl hy
      · exact Or.inr (congrArg some (List.mem_singleton.mp hy).symm)

/-- **`HASH_DEL`** of the element with the key `k` takes out what has that key. -/
lemma UtTable.Represents.hashDelete (hrep : s.Represents hashFcn key str t)
    (helems : s.toUtHash.Represents hashFcn elems) (heq : t = elems.map s.data)
    (hkeys : ∀ x ∈ elems, s.hh.key x = str (key (s.data x))) {x : ι} (hx : x ∈ elems) {k : κ}
    (hiff : ∀ y ∈ elems, key (s.data y) = k ↔ y = x) :
    UtTable.Represents hashFcn key str ⟨FailureDetector.hashDelete s.toUtHash x, s.data⟩
      (t.filter fun d => key d ≠ k) := by
  obtain ⟨hdel, hkey'⟩ := helems.delete hx
  refine ⟨⟨_, hdel, ?_, fun y hy => ?_⟩, ?_⟩
  · rw [heq, List.filter_map, helems.app.nodup.erase_eq_filter]
    congr 1
    apply List.filter_congr
    intro y hy
    simp [hiff y hy, bne, beq_eq_decide]
  · dsimp only
    rw [hkey']
    exact hkeys y (List.mem_of_mem_erase hy)
  · exact hrep.nodup.sublist (List.filter_sublist.map key)

omit [DecidableEq κ] in
/-- What the memory of other elements contains does not matter. -/
lemma UtTable.Represents.overwrite (hrep : s.Represents hashFcn key str t) {x : ι}
    (hx : x ∉ s.elements) (keyptr : CStr) (d : δ) :
    UtTable.Represents hashFcn key str
      ⟨{ s.toUtHash with hh := { s.hh with key := Function.update s.hh.key x keyptr } },
        Function.update s.data x d⟩ t := by
  obtain ⟨elems, helems, heq, hkeys⟩ := hrep.elems
  rw [helems.elements_eq] at hx
  have hne : ∀ y ∈ elems, y ≠ x := by
    rintro y hy rfl
    exact hx hy
  refine ⟨⟨elems, helems.congr (fun _ _ => ⟨rfl, rfl⟩) (fun _ _ => ⟨rfl, rfl⟩) fun y hy => ?_,
    ?_, fun y hy => ?_⟩, hrep.nodup⟩
  · exact ⟨Function.update_of_ne (hne y hy) _ _, rfl⟩
  · rw [heq]
    exact List.map_congr_left fun y hy => (Function.update_of_ne (hne y hy) _ _).symm
  · dsimp only
    rw [Function.update_of_ne (hne y hy), Function.update_of_ne (hne y hy), hkeys y hy]

/-- **An element that is deleted after it has been freed** is taken out, if its handle still reads
as before. -/
lemma UtTable.Represents.hashDeleteOverwritten (hrep : s.Represents hashFcn key str t)
    (helems : s.toUtHash.Represents hashFcn elems) (heq : t = elems.map s.data)
    (hkeys : ∀ x ∈ elems, s.hh.key x = str (key (s.data x))) {x : ι} (hx : x ∈ elems) {k : κ}
    (hiff : ∀ y ∈ elems, key (s.data y) = k ↔ y = x) (keyptr : CStr) (d : δ) :
    UtTable.Represents hashFcn key str
      ⟨FailureDetector.hashDeleteOverwritten
        { s.toUtHash with hh := { s.hh with key := Function.update s.hh.key x keyptr } } x
        (s.toUtHash.handle x), Function.update s.data x d⟩
      (t.filter fun d => key d ≠ k) := by
  have hdel := hrep.hashDelete helems heq hkeys hx hiff
  have hnot : x ∉ (FailureDetector.hashDelete s.toUtHash x).elements := by
    rw [(helems.delete hx).1.elements_eq]
    exact helems.app.nodup.not_mem_erase
  have hover := hdel.overwrite hnot keyptr d
  have hhandle : s.toUtHash.handle x = UtHash.handle
      { s.toUtHash with hh := { s.hh with key := Function.update s.hh.key x keyptr } } x := rfl
  rw [hhandle, hashDeleteOverwritten_handle, hashDelete_key]
  dsimp only at hover
  rwa [(helems.delete hx).2] at hover

/-- Deleting an element. -/
lemma UtTable.Represents.remove (hrep : s.Represents hashFcn key str t)
    (hstr : Function.Injective str) (k : κ) :
    ∃ s', s.apply hashFcn str cmpfcn (.remove k : TableOp ι key) = some s' ∧
      s'.Represents hashFcn key str ((.remove k : TableOp ι key).apply cmpfcn t) ∧
      (.remove k : TableOp ι key).Confined s s' := by
  obtain ⟨elems, helems, heq, hkeys⟩ := hrep.elems
  obtain ⟨found, hfind, hfound⟩ := hrep.found hstr helems heq hkeys k
  cases hfound with
  | absent hnew =>
    refine ⟨s, ?_, ?_, fun y => Or.inl⟩
    · rw [UtTable.apply, hfind]
      rfl
    · rw [TableOp.apply, if_neg hnew]
      exact hrep
  | present x hx hmem hiff =>
    rw [TableOp.apply, if_pos hmem, HashTable.delete_eq_filter key hrep.nodup hmem]
    refine ⟨⟨FailureDetector.hashDelete s.toUtHash x, s.data⟩, ?_,
      hrep.hashDelete helems heq hkeys hx hiff, fun y hy => Or.inl ?_⟩
    · rw [UtTable.apply, hfind]
      rfl
    · have hy : y ∈ elems.erase x := (helems.delete hx).1.elements_eq ▸ hy
      exact helems.elements_eq ▸ List.mem_of_mem_erase hy

omit [DecidableEq κ] in
/-- Changing an element. -/
lemma UtTable.Represents.update [DecidableEq κ] (hrep : s.Represents hashFcn key str t)
    (hstr : Function.Injective str) (k : κ) (f : δ → δ) (keeps : ∀ d, key (f d) = key d) :
    ∃ s', s.apply hashFcn str cmpfcn (.update k f keeps : TableOp ι key) = some s' ∧
      s'.Represents hashFcn key str ((.update k f keeps : TableOp ι key).apply cmpfcn t) ∧
      (.update k f keeps : TableOp ι key).Confined s s' := by
  obtain ⟨elems, helems, heq, hkeys⟩ := hrep.elems
  obtain ⟨found, hfind, hfound⟩ := hrep.found hstr helems heq hkeys k
  have hnodup : (HashTable.keys key (HashTable.update key t k f)).Nodup := by
    rw [HashTable.keys_update key keeps]
    exact hrep.nodup
  cases hfound with
  | absent hnew =>
    have hsame : HashTable.update key t k f = t := by
      rw [HashTable.update]
      conv_rhs => rw [← List.map_id t]
      apply List.map_congr_left
      intro d hd
      apply if_neg
      rintro rfl
      exact hnew (List.mem_map_of_mem hd)
    refine ⟨s, ?_, ?_, fun y => Or.inl⟩
    · rw [UtTable.apply, hfind]
      rfl
    · rw [TableOp.apply, hsame]
      exact hrep
  | present x hx hmem hiff =>
    refine ⟨⟨s.toUtHash, Function.update s.data x (f (s.data x))⟩, ?_,
      ⟨⟨elems, helems, ?_, fun y hy => ?_⟩, hnodup⟩, fun y => Or.inl⟩
    · rw [UtTable.apply, hfind]
      rfl
    · dsimp only
      rw [TableOp.apply, HashTable.update, heq, List.map_map]
      apply List.map_congr_left
      intro y hy
      by_cases hyx : y = x
      · subst hyx
        rw [Function.update_self, Function.comp_apply, if_pos ((hiff y hy).mpr rfl)]
      · rw [Function.update_of_ne hyx, Function.comp_apply,
          if_neg fun hkey => hyx ((hiff y hy).mp hkey)]
    · dsimp only
      rw [hkeys y hy]
      by_cases hyx : y = x
      · subst hyx
        rw [Function.update_self, keeps]
      · rw [Function.update_of_ne hyx]

/-- Sorting the table. -/
lemma UtTable.Represents.sort (hrep : s.Represents hashFcn key str t) (hcmp : Orders cmpfcn) :
    ∃ s', s.apply hashFcn str cmpfcn (.sort : TableOp ι key) = some s' ∧
      s'.Represents hashFcn key str ((.sort : TableOp ι key).apply cmpfcn t) ∧
      (.sort : TableOp ι key).Confined s s' := by
  obtain ⟨elems, helems, heq, hkeys⟩ := hrep.elems
  have hcmp' : Orders fun a b => cmpfcn (s.data a) (s.data b) :=
    ⟨fun a b c => hcmp.trans _ _ _, fun a b => hcmp.total _ _⟩
  obtain ⟨h', elems', hsort, hrep', hperm, hkey', hsorted⟩ :=
    helems.sort fun a b => cmpfcn (s.data a) (s.data b)
  refine ⟨⟨h', s.data⟩, ?_, ⟨⟨elems', hrep', ?_, fun y hy => ?_⟩, ?_⟩, fun y hy => Or.inl ?_⟩
  · rw [UtTable.apply, hsort]
    rfl
  · rw [TableOp.apply, HashTable.sort, heq, hsorted hcmp']
    apply Eq.symm
    apply List.map_mergeSort
    intro _ _ _ _
    rfl
  · dsimp only
    rw [hkey']
    exact hkeys y (hperm.mem_iff.mp hy)
  · exact (HashTable.keys_sort key cmpfcn t).nodup_iff.mpr hrep.nodup
  · have hy : y ∈ elems' := hrep'.elements_eq ▸ hy
    exact helems.elements_eq ▸ hperm.mem_iff.mp hy

/-- **An operation on a table refines the operation on the list.** -/
lemma UtTable.Represents.apply (hrep : s.Represents hashFcn key str t)
    (hstr : Function.Injective str) (hcmp : Orders cmpfcn) (op : TableOp ι key)
    (hfresh : op.Fresh s) :
    ∃ s', s.apply hashFcn str cmpfcn op = some s' ∧
      s'.Represents hashFcn key str (op.apply cmpfcn t) ∧ op.Confined s s' := by
  cases op with
  | add x d => exact hrep.add hstr (hfresh x rfl) d
  | remove k => exact hrep.remove hstr k
  | update k f keeps => exact hrep.update hstr k f keeps
  | sort => exact hrep.sort hcmp

omit [DecidableEq ι] [DecidableEq κ] in
/-- A table without elements holds the empty list. -/
lemma UtTable.represents_nil (hhead : s.head = none) : s.Represents hashFcn key str [] := by
  refine ⟨⟨[], ⟨hhead, Linked.nil, fun hne => absurd rfl hne, fun hne => absurd rfl hne⟩, rfl, ?_⟩,
    List.nodup_nil⟩
  exact fun _ h => absurd h List.not_mem_nil

/-- **Tables refine lists**: every sequence of operations that adds elements in memory that is not
in use ends, and leaves a table that holds what the same operations on lists compute. -/
lemma UtTable.Represents.applyAll (hrep : s.Represents hashFcn key str t)
    (hstr : Function.Injective str) (hcmp : Orders cmpfcn) {ops : List (TableOp ι key)}
    (hfresh : Along (UtTable.apply hashFcn str cmpfcn) TableOp.Fresh s ops) :
    ∃ s', run (UtTable.apply hashFcn str cmpfcn) s ops = some s' ∧
      s'.Represents hashFcn key str (ops.foldl (fun t op => op.apply cmpfcn t) t) := by
  induction ops generalizing s t with
  | nil => exact ⟨s, rfl, hrep⟩
  | cons op ops ih =>
    obtain ⟨hop, hrest⟩ := along_cons.mp hfresh
    obtain ⟨s₁, heq₁, hrep₁, -⟩ := hrep.apply hstr hcmp op hop
    obtain ⟨s', hrun, hrep'⟩ := ih hrep₁ (hrest s₁ heq₁)
    exact ⟨s', run_cons_eq_some.mpr ⟨s₁, heq₁, hrun⟩, hrep'⟩

/-- Memory is not in use if every operation is given memory of its own. -/
lemma UtTable.Represents.along_fresh (hrep : s.Represents hashFcn key str t)
    (hstr : Function.Injective str) (hcmp : Orders cmpfcn) {ops : List (TableOp ι key)}
    (hnodup : (ops.filterMap TableOp.address).Nodup)
    (hunused : ∀ x ∈ ops.filterMap TableOp.address, x ∉ s.elements) :
    Along (UtTable.apply hashFcn str cmpfcn) TableOp.Fresh s ops := by
  induction ops generalizing s t with
  | nil => exact along_nil
  | cons op ops ih =>
    have hop : op.Fresh s := fun x hx =>
      hunused x (List.mem_filterMap.mpr ⟨op, List.mem_cons_self, hx⟩)
    refine along_cons.mpr ⟨hop, fun s₁ hs₁ => ?_⟩
    obtain ⟨s', heq, hrep', hconfined⟩ := hrep.apply hstr hcmp op hop
    obtain rfl : s' = s₁ := Option.some.inj (heq.symm.trans hs₁)
    have hsplit : (op :: ops).filterMap TableOp.address =
        op.address.toList ++ ops.filterMap TableOp.address := by
      rw [List.filterMap_cons]
      cases op.address <;> rfl
    rw [hsplit] at hnodup hunused
    obtain ⟨-, hrest, hdisjoint⟩ := List.nodup_append.mp hnodup
    refine ih hrep' hrest fun x hx hmem => ?_
    rcases hconfined x hmem with hold | hnew
    · exact hunused x (List.mem_append_right _ hx) hold
    · exact hdisjoint x (Option.mem_toList.mpr hnew) x hx rfl

omit [DecidableEq κ] in
/-- The integrity check accepts a table that holds a list. -/
lemma UtTable.Represents.fsck (hrep : s.Represents hashFcn key str t) :
    hashFsck s.toUtHash = true := by
  obtain ⟨elems, helems, -⟩ := hrep.elems
  exact helems.fsck

end FailureDetector
