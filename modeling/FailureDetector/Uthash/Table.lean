import FailureDetector.Uthash.Growth

set_option relaxedAutoImplicit false
set_option autoImplicit false

/-!
# Hash tables as lists

A table stands for the list of its elements in the order they were added. Adding an element adds it
at the end of the list, deleting one takes it out, and a lookup finds the element with the key, if
the keys are distinct. None of the loops runs out of iterations.

## Main definitions

* `FailureDetector.UtHashTable.For`, `FailureDetector.UtHash.Represents` — a table stands for a list
  of elements.

## Main results

* `FailureDetector.UtHash.Represents.find` — what a lookup finds.
* `FailureDetector.UtHash.Represents.add`, `FailureDetector.UtHash.Represents.delete` — adding and
  deleting an element.
-/

namespace FailureDetector

open CString DoublyLinked

variable {ι : Type*} {hashFcn : CStr → UInt32} {tbl : UtHashTable ι} {hh : UtHashHandles ι}
  {h : UtHash ι} {elems : List ι} {x : ι}

/-- The table of the elements `elems`, in this order. -/
structure UtHashTable.For (hashFcn : CStr → UInt32) (tbl : UtHashTable ι) (hh : UtHashHandles ι)
    (elems : List ι) : Prop where
  tail : tbl.tail = elems.getLast?
  numItems : tbl.numItems = elems.length
  numBuckets : tbl.numBuckets = 2 ^ tbl.log2NumBuckets
  chained : ∃ chains, Chained hh.hashv tbl.numBuckets tbl.buckets hh.bkt {x | x ∈ elems} chains
  hashv : ∀ x ∈ elems, hh.hashv x = hashFcn (hh.key x)

/-- The table stands for the list `elems`. -/
structure UtHash.Represents (hashFcn : CStr → UInt32) (h : UtHash ι) (elems : List ι) : Prop where
  head : h.head = elems.head?
  app : Linked h.hh.app elems
  tbl : elems ≠ [] → h.tbl.For hashFcn h.hh elems
  bounded : elems ≠ [] → h.tbl.noexpand = false → Bounded h.tbl.numBuckets h.tbl.buckets

/-! ### Lookups -/

/-- **A lookup finds the element with the key.** -/
lemma UtHash.Represents.find (hrep : h.Represents hashFcn elems)
    (hkeys : (elems.map h.hh.key).Nodup) (findstr : CStr) :
    hashFindStr hashFcn h findstr = some (elems.find? fun x => h.hh.key x = findstr) := by
  rcases elems with - | ⟨x₀, elems⟩
  · rw [hashFindStr, hashFindByhashvalue, hrep.head]
    rfl
  · have htbl := hrep.tbl (List.cons_ne_nil _ _)
    obtain ⟨chains, hchained⟩ := htbl.chained
    rw [hashFindStr, hashFindByhashvalue, hrep.head, List.head?_cons, hashFindInBkt]
    simp only
    rw [hchained.head, search_path (hchained.linked _).next _
      (htbl.numItems ▸ hchained.length_le _)]
    congr 1
    cases hfind : List.find? (fun x => h.hh.key x = findstr) (x₀ :: elems) with
    | none =>
      rw [List.find?_eq_none] at hfind ⊢
      intro x hx
      have hmem := ((hchained.mem _ x).mp hx).1
      simpa using fun _ _ => by simpa using hfind x hmem
    | some y =>
      have hy := List.mem_of_find?_eq_some hfind
      have hkey : h.hh.key y = findstr := by simpa using List.find?_some hfind
      have hchain : y ∈ chains (hashToBkt (hashFcn findstr) h.tbl.numBuckets) := by
        rw [hchained.mem, htbl.hashv y hy, hkey]
        exact ⟨hy, rfl⟩
      have huniq : ∀ z ∈ chains (hashToBkt (hashFcn findstr) h.tbl.numBuckets),
          h.hh.key z = findstr → z = y := by
        intro z hz hkeyz
        exact List.inj_on_of_nodup_map hkeys ((hchained.mem _ z).mp hz).1 hy (hkeyz.trans hkey.symm)
      cases hfind' : List.find? (fun out => decide (h.hh.hashv out = hashFcn findstr ∧
          (h.hh.key out).length = findstr.length ∧ h.hh.key out = findstr))
          (chains (hashToBkt (hashFcn findstr) h.tbl.numBuckets)) with
      | none =>
        rw [List.find?_eq_none] at hfind'
        refine absurd ?_ (hfind' y hchain)
        simp [htbl.hashv y hy, hkey]
      | some z =>
        have hz := List.find?_some hfind'
        rw [decide_eq_true_iff] at hz
        rw [huniq z (List.mem_of_find?_eq_some hfind') hz.2.2]

variable [DecidableEq ι]

/-! ### Adding an element -/

/-- An expansion keeps the elements. It restores the bound, where there are at most twenty elements
for each bucket. -/
lemma UtHashTable.For.expand (htbl : tbl.For hashFcn hh elems) (hnodup : elems.Nodup)
    (hne : elems ≠ []) (hfew : elems.length ≤ 2 * hashBktCapacityThresh * tbl.numBuckets) :
    ∃ tbl' bkt', hashExpandBuckets tbl hh = some (tbl', { hh with bkt := bkt' }) ∧
      tbl'.For hashFcn { hh with bkt := bkt' } elems ∧ Bounded tbl'.numBuckets tbl'.buckets := by
  obtain ⟨chains, hchained⟩ := htbl.chained
  have hpow : tbl.numBuckets * 2 = 2 ^ (tbl.log2NumBuckets + 1) := by
    rw [htbl.numBuckets, pow_succ]
  have hpos : 0 < tbl.numBuckets * 2 := hpow ▸ Nat.two_pow_pos _
  obtain ⟨e, heq, he⟩ := hchained.expand htbl.numBuckets (tbl.numBuckets * 2)
    ((tbl.numItems + (tbl.numBuckets * 2 - 1)) / (tbl.numBuckets * 2)) htbl.numItems.ge
  obtain ⟨chains', hchained'⟩ := he.chained
  rw [hashExpandBuckets, idealChainMaxlen_eq htbl.numBuckets]
  simp only [heq, Option.map_some]
  refine ⟨_, e.bkt, rfl, ?_, ?_⟩
  · exact ⟨htbl.tail, htbl.numItems, hpow, ⟨chains', hchained'⟩, htbl.hashv⟩
  · refine Bounded.expand he (hchained'.sum_range_count hpow hnodup) ?_ hpos
      (List.length_pos_of_ne_nil hne) ?_
    · rw [htbl.numItems]
    · rw [mul_comm tbl.numBuckets, ← mul_assoc, mul_comm hashBktCapacityThresh]
      exact hfew

/-- The table of the elements `elems` when the list through all elements has been given the element
`x` and the buckets have not. -/
structure UtHashTable.Appended (hashFcn : CStr → UInt32) (tbl : UtHashTable ι)
    (hh : UtHashHandles ι) (elems : List ι) (x : ι) : Prop where
  tail : tbl.tail = some x
  numItems : tbl.numItems = elems.length
  numBuckets : tbl.numBuckets = 2 ^ tbl.log2NumBuckets
  chained : ∃ chains, Chained hh.hashv tbl.numBuckets tbl.buckets hh.bkt {y | y ∈ elems} chains
  hashv : ∀ y ∈ elems ++ [x], hh.hashv y = hashFcn (hh.key y)
  bounded : tbl.noexpand = false → Bounded tbl.numBuckets tbl.buckets
  nodup : (elems ++ [x]).Nodup

namespace UtHashTable.Appended

/-- Linking the element in its bucket completes the table. -/
lemma linkInBkt (htbl : tbl.Appended hashFcn hh elems x) {j : ℕ}
    (hj : hashToBkt (hh.hashv x) tbl.numBuckets = j) :
    (hashLinkInBkt { tbl with numItems := tbl.numItems + 1 } hh j x).1.For hashFcn
      (hashLinkInBkt { tbl with numItems := tbl.numItems + 1 } hh j x).2 (elems ++ [x]) := by
  obtain ⟨chains, hchained⟩ := htbl.chained
  have hx : x ∉ elems := fun hmem =>
    (List.nodup_append.mp htbl.nodup).2.2 x hmem x (List.mem_singleton.mpr rfl) rfl
  have hinsert : insert x {y | y ∈ elems} = {y | y ∈ elems ++ [x]} := by
    ext y
    simp only [Set.mem_insert_iff, Set.mem_ofPred_eq, List.mem_append, List.mem_singleton]
    exact or_comm
  refine ⟨?_, ?_, htbl.numBuckets, ⟨_, hinsert ▸ hchained.push hx hj rfl rfl⟩, htbl.hashv⟩
  · rw [List.getLast?_concat]
    exact htbl.tail
  · rw [List.length_append, List.length_singleton, ← htbl.numItems]
    rfl

/-- **Adding the element to its bucket**, with an expansion if it has become too long. -/
lemma addToBkt (htbl : tbl.Appended hashFcn hh elems x) :
    ∃ tbl' bkt', hashAddToBkt { tbl with numItems := tbl.numItems + 1 } hh
        (hashToBkt (hh.hashv x) tbl.numBuckets) x = some (tbl', { hh with bkt := bkt' }) ∧
      tbl'.For hashFcn { hh with bkt := bkt' } (elems ++ [x]) ∧
      (tbl'.noexpand = false → Bounded tbl'.numBuckets tbl'.buckets) := by
  have hlinked := htbl.linkInBkt rfl
  rw [hashAddToBkt]
  dsimp only
  split
  · next hfull =>
    -- the bucket has reached its threshold, so there were fewer than twenty elements for each
    obtain ⟨chains, hchained⟩ := htbl.chained
    have hpos : 0 < tbl.numBuckets := htbl.numBuckets ▸ Nat.two_pow_pos _
    have hlt := (htbl.bounded hfull.2).length_lt hpos
    rw [hchained.sum_range_count htbl.numBuckets (List.nodup_append.mp htbl.nodup).1] at hlt
    obtain ⟨tbl', bkt', heq, hfor, hbounded⟩ := hlinked.expand htbl.nodup (by simp) (by
      rw [List.length_append, List.length_singleton]
      exact hlt)
    exact ⟨tbl', bkt', heq, hfor, fun _ => hbounded⟩
  · next hroom =>
    refine ⟨_, _, rfl, hlinked, fun hexpand => (htbl.bounded hexpand).push rfl ?_⟩
    rw [not_and'] at hroom
    have hlt := Nat.lt_of_not_ge (hroom hexpand)
    simpa only [hashLinkInBkt, Function.update_self] using hlt

end UtHashTable.Appended

/-- `HASH_ADD_TO_TABLE`, for an element that the list through all elements has already. -/
lemma UtHash.addToTable (hhead : h.head = (elems ++ [x]).head?)
    (happ : Linked h.hh.app (elems ++ [x])) (htbl : h.tbl.Appended hashFcn h.hh elems x)
    {hashval : UInt32} (hhashv : h.hh.hashv x = hashval) :
    ∃ h', hashAddToTable h hashval x = some h' ∧ h'.Represents hashFcn (elems ++ [x]) ∧
      h'.hh.key = h.hh.key := by
  obtain ⟨tbl', bkt', heq, hfor, hbounded⟩ := htbl.addToBkt
  refine ⟨⟨h.head, tbl', { h.hh with bkt := bkt' }⟩, ?_, ⟨hhead, happ, fun _ => hfor,
    fun _ => hbounded⟩, rfl⟩
  rw [hashAddToTable, ← hhashv]
  dsimp only
  rw [heq]
  rfl

/-- **Adding an element** adds it at the end. -/
lemma UtHash.Represents.add (hrep : h.Represents hashFcn elems) (hx : x ∉ elems) (str : CStr) :
    ∃ h', hashAddStr hashFcn h str x = some h' ∧ h'.Represents hashFcn (elems ++ [x]) ∧
      h'.hh.key = Function.update h.hh.key x str := by
  have hkeep : ∀ {β : Type} (f : ι → β) (v : β), ∀ y ∈ elems, Function.update f x v y = f y := by
    intro β f v y hy
    apply Function.update_of_ne
    rintro rfl
    exact hx hy
  have hnodup : (elems ++ [x]).Nodup := by
    rw [List.nodup_append]
    refine ⟨hrep.app.nodup, List.nodup_singleton x, fun y hy z hz => ?_⟩
    rw [List.mem_singleton.mp hz]
    rintro rfl
    exact hx hy
  have hnew : Function.update h.hh.hashv x (hashFcn str) x =
      hashFcn (Function.update h.hh.key x str x) := by
    rw [Function.update_self, Function.update_self]
  rw [hashAddStr, hashAddKeyptrByhashvalue, hrep.head]
  cases elems with
  | nil =>
    apply UtHash.addToTable rfl
    · refine ⟨⟨Function.update_self _ _ _, trivial⟩, ⟨Function.update_self _ _ _, trivial⟩⟩
    · refine ⟨rfl, rfl, rfl, ⟨fun _ => [], ?_⟩, fun y hy => ?_, fun _ => Bounded.zero, hnodup⟩
      · have hempty : {y : ι | y ∈ ([] : List ι)} = ∅ := by simp
        rw [hempty]
        exact Chained.empty
      · obtain rfl := List.mem_singleton.mp hy
        exact hnew
    · exact Function.update_self _ _ _
  | cons x₀ elems =>
    have htbl := hrep.tbl (List.cons_ne_nil _ _)
    obtain ⟨chains, hchained⟩ := htbl.chained
    apply UtHash.addToTable
    · rfl
    · show Linked (h.hh.app.pushBack h.tbl.tail x) (x₀ :: elems ++ [x])
      rw [htbl.tail]
      exact hrep.app.pushBack hx
    · refine ⟨rfl, htbl.numItems, htbl.numBuckets, ⟨chains, hchained.congr (hkeep _ _)⟩,
        fun y hy => ?_, hrep.bounded (List.cons_ne_nil _ _), hnodup⟩
      rcases List.mem_append.mp hy with hy | hy
      · show Function.update h.hh.hashv x (hashFcn str) y =
          hashFcn (Function.update h.hh.key x str y)
        rw [hkeep _ _ y hy, hkeep _ _ y hy]
        exact htbl.hashv y hy
      · obtain rfl := List.mem_singleton.mp hy
        exact hnew
    · exact Function.update_self _ _ _

/-! ### Deleting an element -/

/-- **Deleting an element** takes it out. -/
lemma UtHash.Represents.delete (hrep : h.Represents hashFcn elems) (hx : x ∈ elems) :
    (hashDelete h x).Represents hashFcn (elems.erase x) ∧ (hashDelete h x).hh.key = h.hh.key := by
  have htbl := hrep.tbl (List.ne_nil_of_mem hx)
  have hnodup := hrep.app.nodup
  obtain ⟨chains, hchained⟩ := htbl.chained
  have hset : {y | y ∈ elems} \ {x} = {y | y ∈ elems.erase x} := by
    ext y
    simp only [Set.mem_sdiff, Set.mem_ofPred_eq, Set.mem_singleton_iff, hnodup.mem_erase_iff]
    exact and_comm
  obtain ⟨l₁, l₂, rfl⟩ := List.append_of_mem hx
  have hx₁ : x ∉ l₁ := fun hmem => (List.nodup_append.mp hnodup).2.2 x hmem x List.mem_cons_self rfl
  have hx₂ : x ∉ l₂ := (List.nodup_cons.mp (List.nodup_append.mp hnodup).2.1).1
  have herase : (l₁ ++ x :: l₂).erase x = l₁ ++ l₂ := by
    rw [List.erase_append_right _ hx₁, List.erase_cons_head]
  have hprev := hrep.app.prev_eq
  have hnext := hrep.app.next_eq
  rw [herase] at hset ⊢
  rw [hashDelete]
  dsimp only
  split
  · next hlast =>
    -- the only element takes the table with it
    rw [hprev, hnext, List.getLast?_eq_none_iff, List.head?_eq_none_iff] at hlast
    obtain ⟨rfl, rfl⟩ := hlast
    exact ⟨⟨rfl, Linked.nil, fun hne => absurd rfl hne, fun hne => absurd rfl hne⟩, rfl⟩
  · refine ⟨⟨?_, hrep.app.unlink, fun _ => ⟨?_, ?_, htbl.numBuckets,
      ⟨_, hset ▸ hchained.unlink hx rfl rfl rfl⟩, fun y hy => htbl.hashv y ?_⟩,
      fun _ hexpand => ?_⟩, rfl⟩
    · show (if h.hh.app.prev x = none then h.hh.app.next x else h.head) = (l₁ ++ l₂).head?
      rw [hprev, hnext, hrep.head]
      cases l₁ with
      | nil => rfl
      | cons y l₁ => simp
    · show (if h.tbl.tail = some x then h.hh.app.prev x else h.tbl.tail) = (l₁ ++ l₂).getLast?
      rw [htbl.tail, hprev]
      rcases List.eq_nil_or_concat l₂ with rfl | ⟨l, y, rfl⟩
      · simp
      · rw [List.concat_eq_append] at *
        have hy : y ≠ x := by
          rintro rfl
          exact hx₂ (by simp)
        have hlast : (l₁ ++ x :: (l ++ [y])).getLast? = some y := by
          rw [← List.cons_append, ← List.append_assoc, List.getLast?_concat]
        rw [hlast, if_neg (fun heq => hy (Option.some.inj heq)), ← List.append_assoc,
          List.getLast?_concat]
    · show h.tbl.numItems - 1 = (l₁ ++ l₂).length
      rw [htbl.numItems]
      simp only [List.length_append, List.length_cons]
      omega
    · exact List.mem_of_mem_erase (herase.symm ▸ hy : y ∈ (l₁ ++ x :: l₂).erase x)
    · exact (hrep.bounded (List.ne_nil_of_mem hx) hexpand).pop rfl rfl

/-- The keys are not looked at. -/
lemma hashDelete_key (h : UtHash ι) (x : ι) (key : ι → CStr) :
    hashDelete { h with hh := { h.hh with key := key } } x =
      { hashDelete h x with hh := { (hashDelete h x).hh with key := key } } := by
  unfold hashDelete
  dsimp only
  split
  · rfl
  · rfl

/-! ### Elements that have been overwritten -/

/-- Memory that still reads as before has not been overwritten. -/
lemma UtHash.overwrite_handle (h : UtHash ι) (x : ι) : h.hh.overwrite x (h.handle x) = h.hh := by
  simp only [UtHashHandles.overwrite, UtHash.handle, Function.update_eq_self]

/-- **Deleting an element that still reads as before** is deleting it. -/
lemma hashDeleteOverwritten_handle (h : UtHash ι) (x : ι) :
    hashDeleteOverwritten h x (h.handle x) = hashDelete h x := by
  have htbl : (h.handle x).tbl = h.tbl := rfl
  rw [hashDeleteOverwritten, h.overwrite_handle, htbl]
  congr 2
  exact ite_self h.tbl

/-- Without links the table is gone. -/
lemma hashDeleteOverwritten_head_of_none (h : UtHash ι) (x : ι) {handle : UtHashHandle ι}
    (hprev : handle.prev = none) (hnext : handle.next = none) :
    (hashDeleteOverwritten h x handle).head = none := by
  simp [hashDeleteOverwritten, hashDelete, UtHashHandles.overwrite, hprev, hnext]

/-- With an element before it the head stays where it is. -/
lemma hashDeleteOverwritten_head_of_prev (h : UtHash ι) (x : ι) {handle : UtHashHandle ι}
    (hprev : handle.prev ≠ none) : (hashDeleteOverwritten h x handle).head = h.head := by
  simp [hashDeleteOverwritten, hashDelete, UtHashHandles.overwrite, hprev]

/-! ### The number of elements -/

/-- Expansion does not count. -/
lemma hashAddToBkt_numItems {bkt : ℕ} {tbl' : UtHashTable ι} {hh' : UtHashHandles ι}
    (h : hashAddToBkt tbl hh bkt x = some (tbl', hh')) : tbl'.numItems = tbl.numItems := by
  rw [hashAddToBkt] at h
  dsimp only at h
  split at h
  · rw [hashExpandBuckets, Option.map_eq_some_iff] at h
    obtain ⟨e, -, heq⟩ := h
    rw [← (Prod.mk.inj heq).1]
    rfl
  · rw [← (Prod.mk.inj (Option.some.inj h)).1]
    rfl

/-- **Adding an element changes the table**: it has a head then, and counts one more element unless
it had none before. -/
lemma hashAddStr_ne {h' : UtHash ι} {str : CStr} (hadd : hashAddStr hashFcn h str x = some h') :
    h' ≠ h := by
  rintro rfl
  rw [hashAddStr, hashAddKeyptrByhashvalue, hashAddToTable] at hadd
  obtain ⟨⟨tbl, hh⟩, hbkt, heq⟩ := Option.map_eq_some_iff.mp hadd
  have hitems := hashAddToBkt_numItems hbkt
  have htbl := congrArg (fun h => h.tbl.numItems) heq
  have hhead := congrArg UtHash.head heq
  dsimp only at hitems htbl hhead
  cases hcase : h'.head with
  | none =>
    rw [hcase] at hhead
    cases hhead
  | some y =>
    rw [hcase] at hitems
    rw [hitems] at htbl
    exact absurd htbl (Nat.succ_ne_self _)

end FailureDetector
