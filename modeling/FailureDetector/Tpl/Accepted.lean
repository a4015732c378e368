import FailureDetector.Messages

set_option relaxedAutoImplicit false
set_option autoImplicit false

/-!
# The images that `tpl_load` accepts

An image of given contents can be written in several ways: by a machine of either byte order, with
or without the flag for strings, and an array node without elements may have any count with the sign
bit set. `tpl_load` accepts these and nothing else. The image begins with its own size, so that no
image is accepted that has been cut off or continued.

## Main definitions

* `FailureDetector.tplImageBytes` — an image with given flags and a given count.
* `FailureDetector.CountsElements` — the counts that `tpl_serlen` takes for a number of elements.

## Main results

* `FailureDetector.tplLoad_eq_some_iff` — what `tpl_load` accepts.
* `FailureDetector.deserializeHash_refuses_cut` — a message that is cut off or continued is refused.
-/

namespace FailureDetector

open CString Wire

variable {a b c : ℕ}

/-- An image with the flags `flags` and the count `count`, in the byte order that the flags give. -/
def tplImageBytes (flags : UInt8) (count : ℕ) (tn : TplImage a b c) : Bytes :=
  let swap : Bool := flags &&& tplFlBigendian ≠ 0
  tplMagic ++ (flags :: (word swap (tplSerOsz tn) ++ (tplFormat ++ [0] ++ (word swap a ++
    (word swap b ++ (word swap c ++ (tn.fst.bytes ++ (tn.snd.bytes ++ (word swap count ++
      tn.elems.flatMap CharArray.bytes)))))))))

/-- The count of an array node with `num` elements: their number cut to 32 bits, or a negative one
if there are none. -/
def CountsElements (count num : ℕ) : Prop :=
  count = num % 4294967296 ∨ (2147483648 ≤ count ∧ count < 4294967296 ∧ num = 0)

/-- An image has the size of its contents, however it is written. -/
lemma length_tplImageBytes (flags : UInt8) (count : ℕ) (tn : TplImage a b c) :
    (tplImageBytes flags count tn).length = tplSerOsz tn := by
  simp only [tplImageBytes, tplSerOsz, List.length_append, List.length_cons, List.length_nil,
    length_word, length_flatMap_bytes, CharArray.length_eq, tplMagic]
  omega

/-- A count is a 32-bit word. -/
lemma CountsElements.lt {count num : ℕ} (h : CountsElements count num) : count < 4294967296 := by
  rcases h with rfl | ⟨-, h, -⟩
  · exact Nat.mod_lt _ (by decide)
  · exact h

/-- The elements that are read with a count of them. -/
lemma readElems_word [NeZero c] (swap : Bool) {count : ℕ} {elems : List (CharArray c)}
    (h : CountsElements count elems.length) :
    readElems swap (word swap count ++ elems.flatMap CharArray.bytes) = some elems := by
  have hcount : count % 4294967296 = count := Nat.mod_eq_of_lt h.lt
  simp only [readElems, readU32_word, readArrays_flatMap, Option.bind_eq_bind, Option.bind_some,
    hcount]
  rcases h with rfl | ⟨hneg, -, hnil⟩
  · exact if_pos rfl
  · obtain rfl := List.length_eq_zero_iff.mp hnil
    split
    · rfl
    · exact if_pos ⟨hneg, rfl⟩

/-- Nothing but the elements with a count of them is read. -/
lemma readElems_eq_some [NeZero c] {swap : Bool} {input : Bytes} {elems : List (CharArray c)}
    (h : readElems swap input = some elems) : ∃ count, CountsElements count elems.length ∧
      input = word swap count ++ elems.flatMap CharArray.bytes := by
  obtain ⟨⟨num, rest⟩, hnum, h⟩ := Option.bind_eq_some_iff.mp h
  obtain ⟨elems', helems, h⟩ := Option.bind_eq_some_iff.mp h
  obtain ⟨hlt, hinput⟩ := readU32_eq_some hnum
  split_ifs at h with hcount hneg
  · cases h
    rw [readArrays_eq_some helems] at hinput
    exact ⟨num, Or.inl hcount.symm, hinput⟩
  · cases h
    rw [hneg.2] at hinput
    exact ⟨num, Or.inr ⟨hneg.1, hlt, rfl⟩, hinput⟩

/-- An image with supported flags loads. -/
lemma tplLoad_tplImageBytes [NeZero c] {flags : UInt8} {count : ℕ} {tn : TplImage a b c}
    (hflags : flags &&& ~~~tplSupportedBitflags = 0)
    (hcount : CountsElements count tn.elems.length) :
    tplLoad a b c (tplImageBytes flags count tn) = some ⟨tn, tn.elems⟩ := by
  have hsize : 4 + 4 + 1 ≤ tplSerOsz tn := by
    rw [tplSerOsz]
    omega
  simp only [tplLoad, length_tplImageBytes]
  simp only [tplImageBytes, expect_append, readByte_cons, hflags, hsize, readU32_word,
    readArray_append, readElems_word _ hcount, guard_true, Option.bind_eq_bind, Option.bind_some,
    Option.pure_def]

/-- Nothing but an image with supported flags loads.

**Proof sketch.** Every reader accepts only what its writer writes, so that the parts of the input
are those of an image with the flags and the count that have been read. The size, which is checked
first, is that of the image because it is that of the input. -/
lemma tplLoad_eq_some [NeZero c] {input : Bytes} {node : TplNode a b c}
    (h : tplLoad a b c input = some node) : node.cur = node.image.elems ∧
      ∃ flags count, flags &&& ~~~tplSupportedBitflags = 0 ∧
        CountsElements count node.image.elems.length ∧
        input = tplImageBytes flags count node.image := by
  simp only [tplLoad, Option.bind_eq_bind, Option.bind_eq_some_iff, Prod.exists] at h
  obtain ⟨-, -, rest₁, hmagic, flags, rest₂, hbyte, _, hflags, intlsz, rest₃, hintlsz, _, hsize,
    rest₄, hformat, flenA, rest₅, hflenA, _, hA, flenB, rest₆, hflenB, _, hB, flenC, rest₇, hflenC,
    _, hC, x, rest₈, hx, y, rest₉, hy, elems, helems, hnode⟩ := h
  cases hnode
  rw [Option.guard_eq_some'] at hflags hsize hA hB hC
  obtain ⟨count, hcount, hrest₉⟩ := readElems_eq_some helems
  obtain ⟨-, hrest₂⟩ := readU32_eq_some hintlsz
  obtain ⟨-, hrest₄⟩ := readU32_eq_some hflenA
  obtain ⟨-, hrest₅⟩ := readU32_eq_some hflenB
  obtain ⟨-, hrest₆⟩ := readU32_eq_some hflenC
  rw [hA, word_mod] at hrest₄
  rw [hB, word_mod] at hrest₅
  rw [hC, word_mod] at hrest₆
  have hinput := expect_eq_some hmagic
  rw [readByte_eq_some hbyte, hrest₂, expect_eq_some hformat, hrest₄, hrest₅, hrest₆,
    readArray_eq_some hx, readArray_eq_some hy, hrest₉] at hinput
  have hlength : input.length = tplSerOsz ⟨x, y, elems⟩ := by
    rw [hinput]
    simp only [tplSerOsz, List.length_append, List.length_cons, List.length_nil, length_word,
      length_flatMap_bytes, CharArray.length_eq, tplMagic]
    omega
  rw [hsize, hlength, word_mod] at hinput
  exact ⟨rfl, flags, count, hflags, hcount, hinput⟩

/-- **What `tpl_load` accepts** of less than 2 GiB, so that a count of the elements is a positive
`int`: the images with supported flags whose counts count their elements, and nothing else. They
load with their contents, the array at its first element. -/
theorem tplLoad_eq_some_iff (a b c : ℕ) [NeZero c] (input : Bytes)
    (hlength : input.length < 2147483648) (node : TplNode a b c) :
    tplLoad a b c input = some node ↔ node.cur = node.image.elems ∧
      ∃ flags count, flags &&& ~~~tplSupportedBitflags = 0 ∧
        (count = node.image.elems.length ∨
          (2147483648 ≤ count ∧ count < 4294967296 ∧ node.image.elems = [])) ∧
        input = tplImageBytes flags count node.image := by
  have hcounts : ∀ flags count, input = tplImageBytes flags count node.image →
      (CountsElements count node.image.elems.length ↔ count = node.image.elems.length ∨
        (2147483648 ≤ count ∧ count < 4294967296 ∧ node.image.elems = [])) := by
    rintro flags count rfl
    have hmod : node.image.elems.length % 4294967296 = node.image.elems.length := by
      rw [length_tplImageBytes, tplSerOsz] at hlength
      have hle := Nat.le_mul_of_pos_left node.image.elems.length (NeZero.pos c)
      exact Nat.mod_eq_of_lt (by omega)
    rw [CountsElements, hmod, List.length_eq_zero_iff]
  constructor
  · intro h
    obtain ⟨hcur, flags, count, hflags, hcount, hinput⟩ := tplLoad_eq_some h
    exact ⟨hcur, flags, count, hflags, (hcounts flags count hinput).mp hcount, hinput⟩
  · rintro ⟨hcur, flags, count, hflags, hcount, hinput⟩
    rw [hinput, tplLoad_tplImageBytes hflags ((hcounts flags count hinput).mpr hcount), ← hcur]

/-- An image of a big-endian machine without elements, with a negative count. -/
theorem tplLoad_eq_some_iff_one :
    tplLoad 1 1 1 (tplImageBytes 1 2147483648 (tplMap 1 1 1)) = some ⟨tplMap 1 1 1, []⟩ :=
  (tplLoad_eq_some_iff 1 1 1 _ (by decide) _).mpr
    ⟨rfl, 1, 2147483648, by decide, Or.inr ⟨by decide, by decide, rfl⟩, rfl⟩

/-- An image and its continuation cannot both be accepted, because each begins with its size. -/
lemma tplLoad_append [NeZero c] {input rest : Bytes} {node node' : TplNode a b c}
    (h : tplLoad a b c input = some node) (h' : tplLoad a b c (input ++ rest) = some node') :
    rest.length % 4294967296 = 0 := by
  obtain ⟨-, flags, count, -, -, hinput⟩ := tplLoad_eq_some h
  obtain ⟨-, flags', count', -, -, hinput'⟩ := tplLoad_eq_some h'
  have hlength : input.length = tplSerOsz node.image := by
    rw [hinput, length_tplImageBytes]
  have hlength' : (input ++ rest).length = tplSerOsz node'.image := by
    rw [hinput', length_tplImageBytes]
  have hsize : tplSerOsz node.image % 4294967296 = tplSerOsz node'.image % 4294967296 := by
    rw [hinput, tplImageBytes, tplImageBytes, List.append_assoc] at hinput'
    obtain ⟨rfl, hrest⟩ := List.cons.inj (List.append_cancel_left hinput')
    have hwords := (List.append_assoc _ _ rest).symm.trans hrest
    exact mod_eq_of_word_eq (List.append_inj_left hwords (by simp))
  rw [List.length_append] at hlength'
  omega

/-- **A message that is cut off or continued is refused.** If `deserialize_hash` accepts a value,
then no other value is accepted that begins it or that it begins, up to a length of 4 GiB.

**Proof sketch.** The size at the beginning of an image is its length
(`FailureDetector.tplLoad_append`). -/
theorem deserializeHash_refuses_cut {L : Type} [ZlistImpl L CStr] (value value' : Bytes)
    (result result' : L)
    (haccepted : (deserializeHash value result).1.isSome = true) (hne : value' ≠ value)
    (hextends : value' <+: value ∨ value <+: value') (hlength : value.length < 4294967296)
    (hlength' : value'.length < 4294967296) :
    deserializeHash value' result' =
      (none, [.printf "ERROR: Loading buffer in deserialize function unsuccessful\n"]) := by
  obtain ⟨node, hnode⟩ : ∃ node,
      tplLoad zuuidLen maxSizeIpAddressString maxSizeIpAddressString value = some node := by
    rw [deserializeHash] at haccepted
    split at haccepted
    · cases haccepted
    · next node hnode => exact ⟨node, hnode⟩
  have hnone : tplLoad zuuidLen maxSizeIpAddressString maxSizeIpAddressString value' = none := by
    by_contra hsome
    obtain ⟨node', hnode'⟩ := Option.ne_none_iff_exists'.mp hsome
    rcases hextends with ⟨rest, rfl⟩ | ⟨rest, rfl⟩
    · have hrest := tplLoad_append hnode' hnode
      rw [List.length_append] at hlength
      have hnil : rest = [] := List.length_eq_zero_iff.mp (by omega)
      exact hne (by simp [hnil])
    · have hrest := tplLoad_append hnode hnode'
      rw [List.length_append] at hlength'
      have hnil : rest = [] := List.length_eq_zero_iff.mp (by omega)
      exact hne (by simp [hnil])
  rw [deserializeHash, hnone]

/-- An image that lacks its last byte. -/
theorem deserializeHash_refuses_cut_one :
    deserializeHash
        (tplDump (tplMap zuuidLen maxSizeIpAddressString maxSizeIpAddressString)).dropLast
        Zlist.new =
      (none, [.printf "ERROR: Loading buffer in deserialize function unsuccessful\n"]) := by
  have hlength : (tplDump (tplMap zuuidLen maxSizeIpAddressString maxSizeIpAddressString)).length =
      tplSerOsz (tplMap zuuidLen maxSizeIpAddressString maxSizeIpAddressString) :=
    length_tplDump _
  have hsize : tplSerOsz (tplMap zuuidLen maxSizeIpAddressString maxSizeIpAddressString) = 66 := rfl
  refine deserializeHash_refuses_cut
    (tplDump (tplMap zuuidLen maxSizeIpAddressString maxSizeIpAddressString)) _ Zlist.new _ ?_ ?_
    (Or.inl (List.dropLast_prefix _)) ?_ ?_
  · rw [deserializeHash, tplLoad_tplDump]
    rfl
  · intro heq
    have hlen := congrArg List.length heq
    rw [List.length_dropLast, hlength, hsize] at hlen
    omega
  · rw [hlength, hsize]
    omega
  · rw [List.length_dropLast, hlength, hsize]
    omega

end FailureDetector
