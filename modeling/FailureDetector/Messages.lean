import FailureDetector.Utils

set_option relaxedAutoImplicit false
set_option autoImplicit false

/-!
# Membership messages round-trip and are canonical

A membership list is the set of addresses of a nodes table, in strictly descending order. A table
has one such list whatever the order of its elements, `get_membership_group_from_hash` builds it,
and `deserialize_hash` builds it again from what `serialize_hash` has packed. It does so with the lists
of any implementation of `zlist`, and the functions on lists show the same of them as of those that
are nothing but their items and their cursor, which the rest of the program is modelled with.

## Main definitions

* `FailureDetector.Descending` — lists in strictly descending order.
* `FailureDetector.membership` — the membership list of a nodes table.
* `FailureDetector.Message`, `FailureDetector.decode` — the content of a value.

## Main results

* `FailureDetector.Descending.ext` — a strictly descending list is determined by its elements.
* `FailureDetector.isEqualLists_iff`, `FailureDetector.copyList_items` — the list functions.
* `FailureDetector.isEqualLists_view`, `FailureDetector.copyList_view`,
  `FailureDetector.getMembershipGroupFromHash_view`, `FailureDetector.deserializeHash_view` — these and
  the others, seen from outside.
* `FailureDetector.serializeHash_decode` — what is packed is decoded.
* `FailureDetector.serialize_deserialize_canonical` — messages round-trip and are canonical.
-/

namespace FailureDetector

open CString Wire

/-! ### Descending lists -/

/-- In strictly descending `strcmp` order. -/
def Descending (l : List CStr) : Prop := l.Pairwise fun s t => 0 < strcmp s t

/-- Strings in strictly descending order are distinct. -/
lemma Descending.nodup {l : List CStr} (h : Descending l) : l.Nodup := by
  refine h.imp fun {s t} hst heq => ?_
  rw [heq, strcmp_self] at hst
  exact lt_irrefl _ hst

/-- **A strictly descending list is determined by its elements.**

**Proof sketch.** Both lists are free of duplicates, so they are permutations of each other, and
two sorted permutations of each other are equal. -/
lemma Descending.ext {l l' : List CStr} (h : Descending l) (h' : Descending l')
    (hmem : ∀ s, s ∈ l ↔ s ∈ l') : l = l' := by
  have hperm : l.Perm l' := (List.perm_ext_iff_of_nodup h.nodup h'.nodup).mpr hmem
  refine hperm.eq_of_pairwise ?_ h h'
  intro s t _ _ hst hts
  rw [strcmp_swap s t] at hts
  omega

/-- The membership list of a nodes table. -/
def membership (nodes : List NodeStruct) : List CStr :=
  ((HashTable.sort ipAddressHashSortFunction nodes).map fun n => n.ipaddress.1).reverse

/-- The membership list consists of the keys. -/
lemma mem_membership {nodes : List NodeStruct} {s : CStr} :
    s ∈ membership nodes ↔ ∃ ip ∈ ipKeys nodes, ip.1 = s := by
  have hperm := HashTable.sort_perm ipAddressHashSortFunction nodes
  simp only [membership, List.mem_reverse, List.mem_map, hperm.mem_iff, ipKeys, HashTable.keys]
  constructor
  · rintro ⟨n, hn, rfl⟩
    exact ⟨n.ipaddress, ⟨n, hn, rfl⟩, rfl⟩
  · rintro ⟨ip, ⟨n, hn, rfl⟩, rfl⟩
    exact ⟨n, hn, rfl⟩

/-- An address is in the membership list exactly when it is a key. -/
lemma val_mem_membership {nodes : List NodeStruct} {ip : IpString} :
    ip.1 ∈ membership nodes ↔ ip ∈ ipKeys nodes := by
  rw [mem_membership]
  constructor
  · rintro ⟨ip', hip', heq⟩
    rwa [← Subtype.ext heq]
  · exact fun h => ⟨ip, h, rfl⟩

/-- The addresses of a table with distinct keys are distinct as strings. -/
lemma nodup_addresses {nodes : List NodeStruct} (hnodup : (ipKeys nodes).Nodup) :
    (nodes.map fun n => n.ipaddress.1).Nodup := by
  have hmap : (nodes.map fun n => n.ipaddress.1) = (ipKeys nodes).map Subtype.val := by
    simp only [ipKeys, HashTable.keys, List.map_map]
    rfl
  rw [hmap]
  exact hnodup.map Subtype.val_injective

/-- The sorted table is ascending. -/
lemma sort_ascending (nodes : List NodeStruct) :
    (HashTable.sort ipAddressHashSortFunction nodes).Pairwise fun m n =>
      decide (ipAddressHashSortFunction m n ≤ 0) = true := by
  have htrans : ∀ m n o : NodeStruct, decide (ipAddressHashSortFunction m n ≤ 0) = true →
      decide (ipAddressHashSortFunction n o ≤ 0) = true →
      decide (ipAddressHashSortFunction m o ≤ 0) = true := by
    intro m n o hmn hno
    exact decide_eq_true (strcmp_trans (of_decide_eq_true hmn) (of_decide_eq_true hno))
  have htotal : ∀ m n : NodeStruct, (decide (ipAddressHashSortFunction m n ≤ 0) ||
      decide (ipAddressHashSortFunction n m ≤ 0)) = true := by
    intro m n
    rw [Bool.or_eq_true, decide_eq_true_iff, decide_eq_true_iff]
    exact strcmp_total m.ipaddress.1 n.ipaddress.1
  exact List.pairwise_mergeSort htrans htotal nodes

/-- Sorting a sorted table changes nothing. -/
@[simp] lemma sort_sort (nodes : List NodeStruct) :
    HashTable.sort ipAddressHashSortFunction (HashTable.sort ipAddressHashSortFunction nodes) =
      HashTable.sort ipAddressHashSortFunction nodes :=
  List.mergeSort_of_pairwise (sort_ascending nodes)

/-- With distinct keys, the membership list is strictly descending.

**Proof sketch.** The sorted table is ascending. As its addresses are distinct the order is
strict, and it is turned around by reversing. -/
lemma membership_descending {nodes : List NodeStruct} (hnodup : (ipKeys nodes).Nodup) :
    Descending (membership nodes) := by
  have hne : ((HashTable.sort ipAddressHashSortFunction nodes).map fun n => n.ipaddress.1).Nodup :=
    nodup_addresses ((HashTable.keys_sort _ _ _).nodup_iff.mpr hnodup)
  rw [membership, Descending, List.pairwise_reverse, List.pairwise_map]
  rw [List.Nodup, List.pairwise_map] at hne
  refine ((sort_ascending nodes).and hne).imp fun {m n} ⟨hmn, hne⟩ => ?_
  have hzero : strcmp m.ipaddress.1 n.ipaddress.1 ≠ 0 := fun h => hne (strcmp_eq_zero.mp h)
  have hle : strcmp m.ipaddress.1 n.ipaddress.1 ≤ 0 := of_decide_eq_true hmn
  rw [strcmp_swap m.ipaddress.1]
  omega

/-- Sorting a table keeps its membership list. -/
@[simp] lemma membership_sort (nodes : List NodeStruct) :
    membership (HashTable.sort ipAddressHashSortFunction nodes) = membership nodes := by
  rw [membership, sort_sort, membership]

/-- Tables with the same keys have the same membership list. -/
lemma membership_congr {nodes nodes' : List NodeStruct} (h : (ipKeys nodes).Nodup)
    (h' : (ipKeys nodes').Nodup) (hkeys : ∀ ip, ip ∈ ipKeys nodes ↔ ip ∈ ipKeys nodes') :
    membership nodes = membership nodes' := by
  refine (membership_descending h).ext (membership_descending h') fun s => ?_
  simp only [mem_membership, hkeys]

/-- Leaving out some addresses. -/
lemma membership_filter {nodes nodes' : List NodeStruct} (h : (ipKeys nodes).Nodup)
    (h' : (ipKeys nodes').Nodup) (ips : List IpString)
    (hkeys : ∀ ip, ip ∈ ipKeys nodes' ↔ ip ∈ ipKeys nodes ∧ ip ∉ ips) :
    membership nodes' = (membership nodes).filter fun s => s ∉ ips.map Subtype.val := by
  refine (membership_descending h').ext ((membership_descending h).filter _) fun s => ?_
  rw [List.mem_filter, decide_eq_true_iff, mem_membership, mem_membership]
  constructor
  · rintro ⟨ip, hip, rfl⟩
    obtain ⟨hmem, hout⟩ := (hkeys ip).mp hip
    exact ⟨⟨ip, hmem, rfl⟩, fun hin => hout ((List.mem_map_of_injective
      Subtype.val_injective).mp hin)⟩
  · rintro ⟨⟨ip, hmem, rfl⟩, hout⟩
    exact ⟨ip, (hkeys ip).mpr ⟨hmem, fun hin => hout (List.mem_map_of_mem hin)⟩, rfl⟩

/-- The membership list is as long as the table. -/
@[simp] lemma length_membership (nodes : List NodeStruct) :
    (membership nodes).length = nodes.length := by
  simp [membership, (HashTable.sort_perm ipAddressHashSortFunction nodes).length_eq]

/-- The membership list of a single node. -/
lemma membership_singleton (n : NodeStruct) : membership [n] = [n.ipaddress.1] := by
  simp [membership, HashTable.sort]

/-- A table that is not empty has a membership list that is not empty. -/
lemma membership_ne_nil {nodes : List NodeStruct} (h : nodes ≠ []) : membership nodes ≠ [] := by
  intro hnil
  have := length_membership nodes
  rw [hnil, List.length_nil] at this
  exact h (List.length_eq_zero_iff.mp this.symm)

/-! ### The list functions -/

section Lists

open ZlistImpl

variable {L : Type} [ZlistImpl L CStr]

/-- What the loop of `is_equal_lists` decides. -/
lemma isEqualListsLoop_iff (l1 l2 : L) :
    (isEqualListsLoop l1 l2).1 = true ↔ cursor l1 = cursor l2 := by
  fun_induction isEqualListsLoop l1 l2 with
  | case1 l1 l2 s₁ s₂ h₁ h₂ hne =>
    obtain ⟨r₁, hr₁⟩ := item_eq_some.mp h₁
    obtain ⟨r₂, hr₂⟩ := item_eq_some.mp h₂
    simp only [Bool.false_eq_true, hr₁, hr₂, List.cons.injEq, false_iff]
    exact fun heq => hne (strcmp_eq_zero.mpr heq.1)
  | case2 l1 l2 s₁ s₂ h₁ h₂ heq ih =>
    obtain ⟨r₁, hr₁⟩ := item_eq_some.mp h₁
    obtain ⟨r₂, hr₂⟩ := item_eq_some.mp h₂
    have hs : s₁ = s₂ := strcmp_eq_zero.mp (not_not.mp heq)
    rw [ih, cursor_next l1 s₁ r₁ hr₁, cursor_next l2 s₂ r₂ hr₂, hr₁, hr₂, hs, List.cons.injEq]
    simp
  | case3 l1 l2 h₁ h₂ =>
    rw [item_eq_none.mp h₁, item_eq_none.mp h₂]
    simp
  | case4 l1 l2 h₁ h₂ =>
    simp only [Bool.false_eq_true, false_iff]
    intro heq
    have hitem : zlistItem l1 = zlistItem l2 := by rw [item_eq, item_eq, heq]
    cases h : zlistItem l2 with
    | none => exact h₂ (hitem.trans h) h
    | some s => exact h₁ s s (hitem.trans h) h

/-- **`is_equal_lists`** holds of lists that are equal and not empty. -/
lemma isEqualLists_iff (l1 l2 : L) :
    (isEqualLists l1 l2).1 = true ↔ items l1 ≠ [] ∧ items l1 = items l2 := by
  unfold isEqualLists
  split
  · next h =>
    simp only [size_eq, List.length_eq_zero_iff] at h
    simp only [Bool.false_eq_true, false_iff, not_and]
    rintro h₁ heq
    rw [← heq] at h
    exact h₁ (or_self_iff.mp h)
  · next h =>
    simp only [size_eq, List.length_eq_zero_iff, not_or] at h
    split
    · next hsize =>
      rw [size_eq, size_eq] at hsize
      simp only [Bool.false_eq_true, false_iff, not_and]
      exact fun _ heq => hsize (congrArg List.length heq)
    · rw [isEqualListsLoop_iff, cursor_first, cursor_first]
      exact ⟨fun heq => ⟨h.1, heq⟩, fun heq => heq.2⟩

/-- The loop of `is_equal_lists` keeps the items of both lists. -/
lemma isEqualListsLoop_items (l1 l2 : L) :
    items (isEqualListsLoop l1 l2).2.1 = items l1 ∧
      items (isEqualListsLoop l1 l2).2.2 = items l2 := by
  fun_induction isEqualListsLoop l1 l2 with
  | case1 => exact ⟨rfl, rfl⟩
  | case2 l1 l2 _ _ _ _ _ ih => rwa [items_next, items_next] at ih
  | case3 => exact ⟨rfl, rfl⟩
  | case4 => exact ⟨rfl, rfl⟩

/-- `is_equal_lists` keeps the items of both lists. -/
lemma isEqualLists_items (l1 l2 : L) :
    items (isEqualLists l1 l2).2.1 = items l1 ∧ items (isEqualLists l1 l2).2.2 = items l2 := by
  unfold isEqualLists
  split
  · exact ⟨rfl, rfl⟩
  · split
    · exact ⟨rfl, rfl⟩
    · have h := isEqualListsLoop_items (zlistFirst l1) (zlistFirst l2)
      rwa [items_first, items_first] at h

/-- The loop of `copy_list` appends what is left of the source. -/
lemma copyListLoop_items (source dest : L) :
    items (copyListLoop source dest).1 = items source ∧
      items (copyListLoop source dest).2 = items dest ++ cursor source := by
  fun_induction copyListLoop source dest with
  | case1 source dest h =>
    rw [item_eq_none.mp h, List.append_nil]
    exact ⟨rfl, rfl⟩
  | case2 source dest s h ih =>
    obtain ⟨rest, hrest⟩ := item_eq_some.mp h
    rw [items_next, items_append, cursor_next source s rest hrest] at ih
    rw [hrest, ih.1, ih.2, List.append_assoc]
    exact ⟨rfl, rfl⟩

/-- **`copy_list`** makes the destination equal to the source, which it keeps. -/
lemma copyList_items (source dest : L) :
    items (copyList source dest).1 = items source ∧
      items (copyList source dest).2 = items source := by
  have h := copyListLoop_items (zlistFirst source) (zlistPurge dest)
  rwa [items_first, items_purge, cursor_first, List.nil_append] at h

/-- The loop of `get_membership_group_from_hash` pushes the addresses in turn. -/
lemma pushIpAddresses_items (nodes : List NodeStruct) (temp : IpBuffer) (result : L) :
    items (pushIpAddresses nodes temp result) =
      (nodes.map fun n => n.ipaddress.1).reverse ++ items result := by
  induction nodes generalizing temp result with
  | nil => rfl
  | cons n ns ih =>
    rw [pushIpAddresses, ih, IpBuffer.cstr_set, items_push, List.map_cons,
      List.reverse_cons, List.append_assoc]
    rfl

/-- **`get_membership_group_from_hash`** pushes the membership list. -/
lemma getMembershipGroupFromHash_items (nodes : List NodeStruct) (result : L) (temp : IpBuffer) :
    items (getMembershipGroupFromHash nodes result temp).2 = membership nodes ++ items result :=
  pushIpAddresses_items _ temp result

/-! ### The list functions, seen from outside -/

/-- The loop of `is_equal_lists`, seen from outside. -/
lemma isEqualListsLoop_view (l1 l2 : L) : isEqualListsLoop (view l1) (view l2) =
    (isEqualListsLoop l1 l2).map id (Prod.map view view) := by
  fun_induction isEqualListsLoop l1 l2 with
  | case1 l1 l2 s₁ s₂ h₁ h₂ hne =>
    rw [isEqualListsLoop, item_view, item_view, h₁, h₂]
    simp only [if_pos hne]
    rfl
  | case2 l1 l2 s₁ s₂ h₁ h₂ heq ih =>
    rw [isEqualListsLoop, item_view, item_view, h₁, h₂]
    simp only [if_neg heq]
    rw [← ih, view_next, view_next]
  | case3 l1 l2 h₁ h₂ =>
    rw [isEqualListsLoop, item_view, item_view, h₁, h₂]
    rfl
  | case4 l1 l2 h₁ h₂ =>
    rw [isEqualListsLoop, item_view, item_view]
    split
    · next s₁ s₂ hs₁ hs₂ => exact absurd hs₂ (h₁ s₁ s₂ hs₁)
    · next hs₁ hs₂ => exact absurd hs₂ (h₂ hs₁)
    · rfl

/-- **`is_equal_lists`**, seen from outside. -/
lemma isEqualLists_view (l1 l2 : L) : isEqualLists (view l1) (view l2) =
    (isEqualLists l1 l2).map id (Prod.map view view) := by
  rw [isEqualLists, isEqualLists, size_view, size_view]
  split
  · rfl
  · split
    · rfl
    · rw [← isEqualListsLoop_view, view_first, view_first]

/-- The loop of `copy_list`, seen from outside. -/
lemma copyListLoop_view (source dest : L) : copyListLoop (view source) (view dest) =
    (copyListLoop source dest).map view view := by
  fun_induction copyListLoop source dest with
  | case1 source dest h =>
    rw [copyListLoop, item_view, h]
    rfl
  | case2 source dest s h ih =>
    rw [copyListLoop, item_view, h]
    rw [← ih, view_next, view_append]

/-- **`copy_list`**, seen from outside. -/
lemma copyList_view (source dest : L) : copyList (view source) (view dest) =
    (copyList source dest).map view view := by
  rw [copyList, copyList, ← copyListLoop_view, view_first, view_purge]

/-- The loop of `get_membership_group_from_hash`, seen from outside. -/
lemma pushIpAddresses_view (nodes : List NodeStruct) (temp : IpBuffer) (result : L) :
    pushIpAddresses nodes temp (view result) = view (pushIpAddresses nodes temp result) := by
  induction nodes generalizing temp result with
  | nil => rfl
  | cons n ns ih => rw [pushIpAddresses, pushIpAddresses, ← ih, view_push]

/-- **`get_membership_group_from_hash`**, seen from outside. -/
lemma getMembershipGroupFromHash_view (nodes : List NodeStruct) (result : L) (temp : IpBuffer) :
    getMembershipGroupFromHash nodes (view result) temp =
      (getMembershipGroupFromHash nodes result temp).map id view :=
  congrArg _ (pushIpAddresses_view _ temp result)

/-- The unpacking loop of `deserialize_hash`, seen from outside. -/
lemma unpackIpAddresses_view {a b : ℕ} (tn : TplNode a b maxSizeIpAddressString) (result : L) :
    unpackIpAddresses tn (view result) = view (unpackIpAddresses tn result) := by
  fun_induction unpackIpAddresses tn result with
  | case1 tn result h =>
    rw [unpackIpAddresses]
    split
    · rfl
    · next hsome => cases h.symm.trans hsome
  | case2 tn result z tn' h ih =>
    rw [unpackIpAddresses]
    split
    · next hnone => cases h.symm.trans hnone
    · next hsome =>
      cases h.symm.trans hsome
      rw [← ih, view_push]

/-- **`deserialize_hash`**, seen from outside. -/
lemma deserializeHash_view (buffer : Bytes) (result : L) : deserializeHash buffer (view result) =
    (deserializeHash buffer result).map
      (Option.map fun m => ⟨view m.result, m.senderIp, m.uuid⟩) id := by
  rw [deserializeHash, deserializeHash]
  split
  · rfl
  · dsimp only
    rw [unpackIpAddresses_view]
    rfl

end Lists

/-! ### Packing and unpacking -/

section Codec

variable {a b : ℕ}

/-- The packing loop keeps the root. -/
lemma packIpAddresses_root (nodes : List NodeStruct) (ipaddress : IpBuffer)
    (tn : TplImage a b maxSizeIpAddressString) :
    (packIpAddresses nodes ipaddress tn).fst = tn.fst ∧
      (packIpAddresses nodes ipaddress tn).snd = tn.snd := by
  induction nodes generalizing ipaddress tn with
  | nil => exact ⟨rfl, rfl⟩
  | cons n ns ih => exact ih _ _

/-- The packing loop packs every address, whatever its buffer contains after the end of it. -/
lemma packIpAddresses_elems (nodes : List NodeStruct) (ipaddress : IpBuffer)
    (tn : TplImage a b maxSizeIpAddressString) :
    (packIpAddresses nodes ipaddress tn).elems.map CharArray.cstr =
      tn.elems.map CharArray.cstr ++ nodes.map fun n => n.ipaddress.1 := by
  induction nodes generalizing ipaddress tn with
  | nil => simp [packIpAddresses]
  | cons n ns ih =>
    rw [packIpAddresses, ih, tplPackArray, List.map_append, List.map_cons, List.map_nil,
      IpBuffer.cstr_set, List.append_assoc, List.map_cons]
    rfl

/-- The unpacking loop pushes the strings that are left. -/
lemma unpackIpAddresses_items {L : Type} [ZlistImpl L CStr]
    (tn : TplNode a b maxSizeIpAddressString) (result : L) :
    ZlistImpl.items (unpackIpAddresses tn result) =
      (tn.cur.map CharArray.cstr).reverse ++ ZlistImpl.items result := by
  fun_induction unpackIpAddresses tn result with
  | case1 tn result h =>
    have hcur : tn.cur = [] := by
      unfold tplUnpackArray at h
      split at h
      · assumption
      · cases h
    rw [hcur]
    rfl
  | case2 tn result z tn' h ih =>
    have hcur : tn.cur = z :: tn'.cur := by
      unfold tplUnpackArray at h
      split at h
      · cases h
      · next hcur =>
        cases h
        exact hcur
    rw [ih, hcur, ZlistImpl.items_push, List.map_cons, List.reverse_cons, List.append_assoc]
    rfl

end Codec

/-- A table that is not empty serialises, and is sorted by it. -/
lemma serializeHash_of_ne_nil {nodes : List NodeStruct} (h : nodes ≠ [])
    (currentNodeIp : IpBuffer) (uuid : Uuid) (ipaddress : IpBuffer) :
    ∃ value, serializeHash (some nodes) currentNodeIp uuid ipaddress =
      (some value, some (HashTable.sort ipAddressHashSortFunction nodes), []) := by
  obtain ⟨n, ns, rfl⟩ := List.exists_cons_of_ne_nil h
  exact ⟨_, rfl⟩

/-- The sequences of actions of two steps submit one after the other. -/
lemma submissions_append (events events' : List Event) :
    submissions (events ++ events') = submissions events ++ submissions events' :=
  List.filterMap_append

/-- Submitting some values. -/
lemma submissions_map_submit (values : List Bytes) :
    submissions (values.map .submit) = values := by
  rw [submissions, List.filterMap_map]
  exact List.filterMap_some

/-- `serialize_hash` does nothing but print. -/
lemma filterMap_serializeHash {α : Type*} {f : Event → Option α}
    (hprintf : ∀ text, f (.printf text) = none) (nodes : Option (List NodeStruct))
    (currentNodeIp : IpBuffer) (uuid : Uuid) (ipaddress : IpBuffer) :
    (serializeHash nodes currentNodeIp uuid ipaddress).2.2.filterMap f = [] := by
  rcases nodes with - | (- | ⟨n, ns⟩)
  · exact List.filterMap_cons_none (hprintf _)
  · exact List.filterMap_cons_none (hprintf _)
  · rfl

/-- `serialize_hash` submits nothing. -/
lemma submissions_serializeHash (nodes : Option (List NodeStruct)) (currentNodeIp : IpBuffer)
    (uuid : Uuid) (ipaddress : IpBuffer) :
    submissions (serializeHash nodes currentNodeIp uuid ipaddress).2.2 = [] :=
  filterMap_serializeHash (fun _ => rfl) nodes currentNodeIp uuid ipaddress

/-- What `serialize_hash` has packed, `deserialize_hash` reads: the same UUID and sender buffer,
and the membership list of the table, pushed on the given list. -/
lemma serializeHash_deserializeHash {L : Type} [ZlistImpl L CStr]
    {nodes : Option (List NodeStruct)} {currentNodeIp : IpBuffer} {uuid : Uuid}
    {ipaddress : IpBuffer} {value : Bytes}
    (h : (serializeHash nodes currentNodeIp uuid ipaddress).1 = some value) (result : L) :
    ∃ ns m, nodes = some ns ∧ ns ≠ [] ∧ deserializeHash value result = (some m, []) ∧
      m.uuid = uuid ∧ m.senderIp = currentNodeIp ∧
      ZlistImpl.items m.result = membership ns ++ ZlistImpl.items result := by
  rcases nodes with - | (- | ⟨n, ns⟩)
  · cases h
  · cases h
  · simp only [serializeHash, Option.some.injEq] at h
    subst h
    set root := tplPackRoot (tplPackRoot (tplMap zuuidLen maxSizeIpAddressString
      maxSizeIpAddressString) uuid currentNodeIp) uuid currentNodeIp
    set sorted := HashTable.sort ipAddressHashSortFunction (n :: ns) with hsorted
    set tn := packIpAddresses sorted ipaddress root
    have hroot := packIpAddresses_root sorted ipaddress root
    refine ⟨n :: ns, ⟨unpackIpAddresses ⟨tn, tn.elems⟩ result, tn.snd, tn.fst⟩, rfl,
      List.cons_ne_nil _ _, ?_, hroot.1, hroot.2, ?_⟩
    · simp only [deserializeHash, tplLoad_tplDump]
      rfl
    · rw [unpackIpAddresses_items, packIpAddresses_elems, membership, ← hsorted]
      rfl

/-- The content of a value. -/
structure Message where
  sender : CStr
  uuid : Uuid
  members : List CStr

/-- Decode a value, as `deserialize_hash` does into an empty list. -/
def decode (value : Bytes) : Option Message :=
  (deserializeHash value Zlist.new).1.map fun m => ⟨m.senderIp.cstr, m.uuid, m.result.items⟩

/-- **What is packed is decoded**: the sender, the UUID and the membership list. -/
lemma serializeHash_decode {nodes : Option (List NodeStruct)} {currentNodeIp : IpBuffer}
    {uuid : Uuid} {ipaddress : IpBuffer} {value : Bytes}
    (h : (serializeHash nodes currentNodeIp uuid ipaddress).1 = some value) :
    ∃ ns, nodes = some ns ∧ ns ≠ [] ∧
      decode value = some ⟨currentNodeIp.cstr, uuid, membership ns⟩ := by
  obtain ⟨ns, m, rfl, hne, hm, rfl, rfl, hitems⟩ := serializeHash_deserializeHash h Zlist.new
  refine ⟨ns, rfl, hne, ?_⟩
  have hresult : m.result.items = membership ns := hitems.trans (List.append_nil _)
  rw [decode, hm, Option.map_some, hresult]

/-- **Membership messages round-trip and are canonical.** A nodes table with distinct keys that is
not empty serialises, whatever the buffers contain at first. The message decodes to the same UUID
and sender, and to the keys in strictly descending order. That is the list that
`get_membership_group_from_hash` builds, and any table with the same keys decodes to an equal
list.

**Proof sketch.** `FailureDetector.serializeHash_deserializeHash` gives the membership list of the
table, which is strictly descending; by `FailureDetector.membership_congr` a table with the same
keys has the same one. -/
theorem serialize_deserialize_canonical {L : Type} [ZlistImpl L CStr] (nodes : List NodeStruct)
    (hne : nodes ≠ []) (hnodup : (ipKeys nodes).Nodup) (sender : IpString)
    (currentNodeIp : IpBuffer) (uuid : Uuid) (ipaddress temp : IpBuffer) :
    ∃ value m,
      (serializeHash (some nodes) (currentNodeIp.set sender) uuid ipaddress).1 = some value ∧
      (deserializeHash value (zlistNew : L)).1 = some m ∧
      m.uuid = uuid ∧ m.senderIp.cstr = sender.1 ∧
      Descending (ZlistImpl.items m.result) ∧
      (∀ s, s ∈ ZlistImpl.items m.result ↔ ∃ ip ∈ ipKeys nodes, ip.1 = s) ∧
      ZlistImpl.items m.result =
        ZlistImpl.items (getMembershipGroupFromHash nodes (zlistNew : L) temp).2 ∧
      ∀ nodes' : List NodeStruct, (ipKeys nodes').Nodup →
        (∀ ip, ip ∈ ipKeys nodes' ↔ ip ∈ ipKeys nodes) →
        ∀ currentNodeIp' uuid' ipaddress' value' m',
          (serializeHash (some nodes') currentNodeIp' uuid' ipaddress').1 = some value' →
          (deserializeHash value' (zlistNew : L)).1 = some m' →
          (isEqualLists m.result m'.result).1 = true := by
  obtain ⟨value, hvalue⟩ := serializeHash_of_ne_nil hne (currentNodeIp.set sender) uuid ipaddress
  have hvalue₁ : (serializeHash (some nodes) (currentNodeIp.set sender) uuid ipaddress).1 =
      some value := by rw [hvalue]
  obtain ⟨ns, m, hns, -, hm, huuid, hsender, hitems⟩ :=
    serializeHash_deserializeHash hvalue₁ (zlistNew : L)
  cases hns
  rw [ZlistImpl.items_new, List.append_nil] at hitems
  refine ⟨value, m, hvalue₁, by rw [hm], huuid, ?_, ?_, ?_, ?_, ?_⟩
  · rw [hsender, IpBuffer.cstr_set]
  · rw [hitems]
    exact membership_descending hnodup
  · intro s
    rw [hitems, mem_membership]
  · rw [hitems, getMembershipGroupFromHash_items, ZlistImpl.items_new, List.append_nil]
  · intro nodes' hnodup' hkeys currentNodeIp' uuid' ipaddress' value' m' hvalue' hm'
    obtain ⟨ns', m₂, hns', -, hm₂, -, -, hitems'⟩ :=
      serializeHash_deserializeHash hvalue' (zlistNew : L)
    cases hns'
    rw [hm₂] at hm'
    cases hm'
    rw [ZlistImpl.items_new, List.append_nil] at hitems'
    rw [isEqualLists_iff, hitems, hitems']
    exact ⟨membership_ne_nil hne, membership_congr hnodup hnodup' fun ip => (hkeys ip).symm⟩

/-- The address `1`. -/
def ipOne : IpString := ⟨readString [49], by decide⟩

/-- The address `2`. -/
def ipTwo : IpString := ⟨readString [50], by decide⟩

/-- The address `3`. -/
def ipThree : IpString := ⟨readString [51], by decide⟩

/-- A node with the given address and nothing else set. -/
def nodeWithIp (ip : IpString) : NodeStruct :=
  ⟨ip, 0, 0, initAdaptiveTimeoutStruct ⟨0, 0, 0, 0, 0⟩ 0⟩

/-- The addresses `2` and `10`, sent by `2` in a zeroed buffer, decode in the order `2`, `10`. -/
theorem serialize_deserialize_canonical_two :
    ∃ value m, (serializeHash (some [nodeWithIp ⟨readString [49, 48], by decide⟩,
        nodeWithIp ipTwo]) (IpBuffer.set (CharArray.zero _) ipTwo) (CharArray.zero _)
        (CharArray.zero _)).1 = some value ∧
      (deserializeHash value Zlist.new).1 = some m ∧
      m.senderIp.cstr = ipTwo.1 ∧
      m.result.items = [ipTwo.1, readString [49, 48]] := by
  obtain ⟨value, m, hvalue, hm, -, hsender, hdesc, hmem, -⟩ := serialize_deserialize_canonical
    (L := Zlist CStr) [nodeWithIp ⟨readString [49, 48], by decide⟩, nodeWithIp ipTwo]
    (List.cons_ne_nil _ _) (by decide) ipTwo (CharArray.zero _)
    (CharArray.zero _) (CharArray.zero _) (CharArray.zero _)
  refine ⟨value, m, hvalue, hm, hsender, hdesc.ext (List.pairwise_pair.mpr (by decide)) fun s => ?_⟩
  rw [hmem]
  simp [HashTable.keys, nodeWithIp, or_comm, eq_comm]

end FailureDetector
