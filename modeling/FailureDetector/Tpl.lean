import FailureDetector.Lib.Wire

set_option relaxedAutoImplicit false
set_option autoImplicit false

/-!
# The serialisation library (`tpl.c`), for the format `c#c#A(c#)`

Every message of the failure detector has this format: two `char` arrays of fixed length in the
root and an array of further ones. An image is a header (magic, flags, total size, format string
and the three lengths), the two root arrays, a count and the elements.

The images are those of a little-endian machine; loading swaps the words of an image that is
flagged as big-endian. The size and the count in an image are 32-bit words, and loading compares
them with the actual size and count cut to 32 bits, as if images of 4 GiB and more were packed and
unpacked faithfully.

## Main definitions

* `FailureDetector.TplImage` — what an image holds.
* `FailureDetector.tplMap`, `FailureDetector.tplPackRoot`, `FailureDetector.tplPackArray`,
  `FailureDetector.tplDump` — `tpl_map`, `tpl_pack` and `tpl_dump`.
* `FailureDetector.tplLoad` — `tpl_load` with its checks `tpl_sanity`.
* `FailureDetector.tplUnpackRoot`, `FailureDetector.tplUnpackArray` — `tpl_unpack`.

## Main results

* `FailureDetector.tplLoad_tplDump` — a dumped image loads.
-/

namespace FailureDetector

open CString Wire

/-- The contents of an image with arrays of lengths `a`, `b` and `c`. -/
@[ext] structure TplImage (a b c : ℕ) where
  /-- The first array of the root. -/
  fst : CharArray a
  /-- The second array of the root. -/
  snd : CharArray b
  /-- The elements of the array node. -/
  elems : List (CharArray c)

/-- A loaded image with the elements that have not been unpacked yet. -/
structure TplNode (a b c : ℕ) where
  image : TplImage a b c
  cur : List (CharArray c)

variable {a b c : ℕ}

/-- `tpl_map`: the data nodes start out zeroed and the array empty. -/
def tplMap (a b c : ℕ) : TplImage a b c := ⟨CharArray.zero a, CharArray.zero b, []⟩

/-- `tpl_pack(tn, 0)`: copy the two mapped arrays into the root. -/
def tplPackRoot (tn : TplImage a b c) (x : CharArray a) (y : CharArray b) : TplImage a b c :=
  { tn with fst := x, snd := y }

/-- `tpl_pack(tn, 1)`: append the mapped element to the array. -/
def tplPackArray (tn : TplImage a b c) (z : CharArray c) : TplImage a b c :=
  { tn with elems := tn.elems ++ [z] }

/-- `TPL_MAGIC`. -/
def tplMagic : Bytes := [116, 112, 108]

/-- The format string `c#c#A(c#)`. -/
def tplFormat : Bytes := [99, 35, 99, 35, 65, 40, 99, 35, 41]

/-- `TPL_SUPPORTED_BITFLAGS`. -/
def tplSupportedBitflags : UInt8 := 3

/-- `TPL_FL_BIGENDIAN`. -/
def tplFlBigendian : UInt8 := 1

/-- `tpl_ser_osz`: the size of an image. -/
def tplSerOsz (tn : TplImage a b c) : ℕ :=
  3 + 1 + 4 + (tplFormat.length + 1) + 3 * 4 + a + b + (4 + c * tn.elems.length)

/-- `tpl_dump` to memory. -/
def tplDump (tn : TplImage a b c) : Bytes :=
  tplMagic ++ (0 :: (writeU32 (tplSerOsz tn) ++ (tplFormat ++ [0] ++ (writeU32 a ++ (writeU32 b ++
    (writeU32 c ++ (tn.fst.bytes ++ (tn.snd.bytes ++ (writeU32 tn.elems.length ++
      tn.elems.flatMap CharArray.bytes)))))))))

/-- The elements of an array node: a count and as many elements, which must be all that is left.
`tpl_serlen` keeps the count in an `int`, so that one with the sign bit set counts no elements. -/
def readElems [NeZero c] (swap : Bool) (input : Bytes) : Option (List (CharArray c)) := do
  let (num, rest) ← readU32 swap input
  let elems ← readArrays c (NeZero.pos c) rest
  if elems.length % 4294967296 = num then some elems
  else if 2147483648 ≤ num ∧ rest = [] then some []
  else none

/-- `tpl_load` from memory. -/
def tplLoad (a b c : ℕ) [NeZero c] (input : Bytes) : Option (TplNode a b c) := do
  -- the checks of `tpl_sanity`, in order: `ERR_NOT_MINSIZE`, …
  guard (4 + 4 + 1 ≤ input.length)
  let rest ← expect tplMagic input
  let (flags, rest) ← readByte rest
  guard (flags &&& ~~~tplSupportedBitflags = 0)
  let swap := flags &&& tplFlBigendian ≠ 0
  let (intlsz, rest) ← readU32 swap rest
  guard (intlsz = input.length % 4294967296)
  let rest ← expect (tplFormat ++ [0]) rest
  let (flenA, rest) ← readU32 swap rest
  guard (flenA = a % 4294967296)
  let (flenB, rest) ← readU32 swap rest
  guard (flenB = b % 4294967296)
  let (flenC, rest) ← readU32 swap rest
  guard (flenC = c % 4294967296)
  -- `tpl_serlen` of the data must be the rest of the buffer
  let (x, rest) ← readArray a rest
  let (y, rest) ← readArray b rest
  let elems ← readElems swap rest
  some ⟨⟨x, y, elems⟩, elems⟩

/-- `tpl_unpack(tn, 0)`: the two arrays of the root. It also returns the array node to its first
element. -/
def tplUnpackRoot (tn : TplNode a b c) : CharArray a × CharArray b × TplNode a b c :=
  (tn.image.fst, tn.image.snd, { tn with cur := tn.image.elems })

/-- `tpl_unpack(tn, 1)`: the next element, if there is one. -/
def tplUnpackArray (tn : TplNode a b c) : Option (CharArray c × TplNode a b c) :=
  match tn.cur with
  | [] => none
  | z :: cur => some (z, { tn with cur := cur })

/-- Unpacking an element shortens what is left to unpack. -/
lemma length_cur_tplUnpackArray {tn tn' : TplNode a b c} {z : CharArray c}
    (h : tplUnpackArray tn = some (z, tn')) : tn'.cur.length < tn.cur.length := by
  unfold tplUnpackArray at h
  split at h
  · cases h
  · next hcur =>
    cases h
    rw [hcur]
    exact Nat.lt_succ_self _

/-- The elements take `c` bytes each. -/
lemma length_flatMap_bytes (zs : List (CharArray c)) :
    (zs.flatMap CharArray.bytes).length = c * zs.length := by
  induction zs with
  | nil => rfl
  | cons z zs ih =>
    rw [List.flatMap_cons, List.length_append, ih, z.length_eq, List.length_cons, Nat.mul_succ,
      Nat.add_comm]

/-- An image has the size it is given. -/
lemma length_tplDump (tn : TplImage a b c) : (tplDump tn).length = tplSerOsz tn := by
  simp only [tplDump, tplSerOsz, List.length_append, List.length_cons, List.length_nil,
    length_writeU32, length_flatMap_bytes, CharArray.length_eq, tplMagic]
  omega

/-- The elements of an array node read back. -/
lemma readElems_append [NeZero c] (zs : List (CharArray c)) :
    readElems false (writeU32 zs.length ++ zs.flatMap CharArray.bytes) = some zs := by
  simp only [readElems, readU32_append, Option.bind_eq_bind, Option.bind_some,
    readArrays_flatMap, if_true]

/-- **A dumped image loads**, with its array at the first element.

**Proof sketch.** Every reader undoes its writer in front of what follows, and every check compares
a word with what was written there. -/
theorem tplLoad_tplDump [NeZero c] (tn : TplImage a b c) :
    tplLoad a b c (tplDump tn) = some ⟨tn, tn.elems⟩ := by
  have hsize : 4 + 4 + 1 ≤ tplSerOsz tn := by
    rw [tplSerOsz]
    omega
  have hflags : (0 : UInt8) &&& ~~~tplSupportedBitflags = 0 := by decide
  have hswap : decide ((0 : UInt8) &&& tplFlBigendian ≠ 0) = false := by decide
  simp only [tplLoad, length_tplDump]
  simp only [tplDump, expect_append, readByte_cons, hflags, hswap, hsize, readU32_append,
    readArray_append, readElems_append, guard_true, Option.bind_eq_bind, Option.bind_some,
    Option.pure_def]

end FailureDetector
