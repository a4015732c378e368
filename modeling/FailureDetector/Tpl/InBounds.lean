import FailureDetector.Tpl.Walk

set_option relaxedAutoImplicit false
set_option autoImplicit false

/-!
# When unpacking stays in the image

What `tpl_sanity` accepts is what `FailureDetector.tplLoad` accepts, for images that are shorter
than 2 GiB. (The sizes of the values that Paxos delivers are of type `int`.) `tpl_serlen` takes a
count with the sign bit set for no elements, and `tpl_unpack` takes it for more than two thousand
million. So `tpl_unpack` reads nothing outside of an image that has been accepted, whatever is
unpacked in which order, if and only if the sign bit of its count is not set. Then it unpacks the
contents that `tplLoad` has found.

`deserialize_hash` duplicates every element that is unpacked as a string. So it stays in the value
and its buffer if and only if the elements end in the buffer, too.

## Main definitions

* `FailureDetector.tplCount` — the count in an image.
* `FailureDetector.TplTree.Holds` — a loaded image has the contents of a node.
* `FailureDetector.TplNode.unpack` — what is unpacked of the contents.

## Main results

* `FailureDetector.tplLoadMem_cases` — `tpl_load` accepts what it should.
* `FailureDetector.TplTree.Holds.unpackAll` — every sequence of `tpl_unpack` calls, where the sign
  bit is not set.
* `FailureDetector.tpl_unpack_in_bounds_iff` — when every such sequence stays in the image.
* `FailureDetector.deserializeHashMem_eq_some_iff` — when `deserialize_hash` does.
-/

namespace FailureDetector

open CString Wire

variable {a b c : ℕ}

/-! ### `tpl_serlen` -/

/-- The loop over an array stays in the image, or fails. -/
lemma serlenByte_eq {bufPast : ℕ} (num : ℕ) {dv : ℕ} (hdv : dv ≤ bufPast) (len : ℕ) :
    serlenByte bufPast num dv len =
      if dv + num ≤ bufPast then some (dv + num, len + num) else none := by
  induction num generalizing dv len with
  | zero => simp [serlenByte, hdv]
  | succ num ih =>
    rw [serlenByte]
    by_cases hnext : dv + 1 > bufPast
    · rw [if_pos hnext, if_neg (by omega)]
    · rw [if_neg hnext, ih (by omega), Nat.add_right_comm dv 1 num, Nat.add_right_comm len 1 num]
      rfl

/-- The loop over the children of an A node. -/
lemma serlenChildren_eq {bufPast : ℕ} (children : List ℕ) {dv : ℕ} (hdv : dv ≤ bufPast) (len : ℕ) :
    serlenChildren bufPast children dv len =
      if dv + children.sum ≤ bufPast then some (dv + children.sum, len + children.sum)
      else none := by
  induction children generalizing dv len with
  | nil => simp [serlenChildren, hdv]
  | cons num children ih =>
    rw [serlenChildren, serlenByte_eq num hdv, List.sum_cons]
    by_cases hnum : dv + num ≤ bufPast
    · rw [if_pos hnum, Option.bind_some]
      dsimp only
      rw [ih hnum, Nat.add_assoc, Nat.add_assoc]
    · rw [if_neg hnum, if_neg (by omega)]
      rfl

/-- The loop over the elements of an A node. -/
lemma serlenElems_eq {bufPast : ℕ} (children : List ℕ) (num : ℕ) {dv : ℕ} (hdv : dv ≤ bufPast)
    (len : ℕ) : serlenElems bufPast children num dv len =
      if dv + num * children.sum ≤ bufPast then
        some (dv + num * children.sum, len + num * children.sum)
      else none := by
  induction num generalizing dv len with
  | zero => simp [serlenElems, hdv]
  | succ num ih =>
    rw [serlenElems, serlenChildren_eq children hdv, Nat.succ_mul]
    by_cases hchildren : dv + children.sum ≤ bufPast
    · rw [if_pos hchildren, Option.bind_some]
      dsimp only
      rw [ih hchildren, Nat.add_assoc, Nat.add_assoc, Nat.add_comm children.sum]
    · rw [if_neg hchildren, if_neg (by omega)]
      rfl

/-- **`tpl_serlen` of an A node**: its size, if that is in the image. -/
lemma tplSerlenAry_eq_some {xendian : Bool} {image : Bytes} {children : List ℕ} {dv alen : ℕ} :
    tplSerlenAry xendian image children dv = some alen ↔
      ∃ num, peekU32 xendian image dv = some num ∧
        alen = 4 + (toInt num).toNat * children.sum ∧ dv + alen ≤ image.length := by
  unfold tplSerlenAry
  by_cases hdv : dv + 4 > image.length
  · rw [if_pos hdv]
    constructor
    · intro h
      cases h
    · rintro ⟨num, -, rfl, hle⟩
      omega
  · obtain ⟨num, hnum⟩ := exists_peekU32 xendian (show dv + 4 ≤ image.length by omega)
    rw [if_neg hdv, hnum, Option.bind_some, serlenElems_eq children _ (by omega)]
    constructor
    · intro h
      by_cases hle : dv + 4 + (toInt num).toNat * children.sum ≤ image.length
      · rw [if_pos hle] at h
        refine ⟨num, rfl, (Option.some.inj h).symm, ?_⟩
        have halen : 4 + (toInt num).toNat * children.sum = alen := Option.some.inj h
        omega
      · rw [if_neg hle] at h
        cases h
    · rintro ⟨num', hnum', rfl, hle⟩
      cases hnum'
      rw [if_pos (by omega)]
      rfl

/-- **`tpl_serlen` of the root**: the size of the data, if that is in the image. -/
lemma tplSerlen_eq_some {xendian : Bool} {image : Bytes} {dv serlen : ℕ} (hdv : dv ≤ image.length) :
    tplSerlen xendian image [.byte a, .byte b, .ary [c]] dv 0 = some serlen ↔
      ∃ num, peekU32 xendian image (dv + a + b) = some num ∧
        serlen = a + b + (4 + (toInt num).toNat * c) ∧ dv + serlen ≤ image.length := by
  rw [tplSerlen, serlenByte_eq a hdv]
  by_cases ha : dv + a ≤ image.length
  · rw [if_pos ha, Option.bind_some]
    dsimp only
    rw [tplSerlen, serlenByte_eq b ha]
    by_cases hb : dv + a + b ≤ image.length
    · rw [if_pos hb, Option.bind_some]
      dsimp only
      rw [tplSerlen, Option.bind_eq_some_iff]
      simp only [tplSerlenAry_eq_some, List.sum_cons, List.sum_nil, Nat.add_zero, tplSerlen,
        Option.some.injEq]
      constructor
      · rintro ⟨alen, ⟨num, hnum, rfl, hle⟩, rfl⟩
        exact ⟨num, hnum, by omega, by omega⟩
      · rintro ⟨num, hnum, rfl, hle⟩
        exact ⟨_, ⟨num, hnum, rfl, by omega⟩, by omega⟩
    · rw [if_neg hb]
      constructor
      · intro h
        cases h
      · rintro ⟨num, -, rfl, hle⟩
        omega
  · rw [if_neg ha]
    constructor
    · intro h
      cases h
    · rintro ⟨num, -, rfl, hle⟩
      omega

/-! ### The format string -/

/-- The scan stops at the first NUL. -/
lemma scanFormat_eq_ok {input fmt : Bytes} (h : scanFormat input = .ok fmt) :
    ∃ rest, input = fmt ++ 0 :: rest := by
  induction input generalizing fmt with
  | nil => cases h
  | cons ch input ih =>
    rw [scanFormat] at h
    split_ifs at h with hch hvalid
    · cases hscan : scanFormat input with
      | error e =>
        rw [hscan] at h
        cases h
      | ok fmt' =>
        rw [hscan] at h
        cases h
        obtain ⟨rest, rfl⟩ := ih hscan
        exact ⟨rest, rfl⟩
    · cases h
      obtain rfl := not_not.mp hch
      exact ⟨input, rfl⟩

/-- The format string is found. -/
lemma scanFormat_tplFormat (rest : Bytes) :
    scanFormat (tplFormat ++ 0 :: rest) = .ok tplFormat := by
  simp [scanFormat, tplFormat, tplFmtChars, Except.map]

/-- The data begin after the format string and the three lengths. -/
lemma tplFindDataStart_eq {image rest : Bytes} (h : image.drop 8 = tplFormat ++ 0 :: rest) :
    tplFindDataStart image = some 30 := by
  rw [tplFindDataStart, h]
  simp [findNul, tplFormat]

/-! ### `tpl_sanity` -/

/-- The byte at an offset. -/
lemma readByte_drop {image : Bytes} {dv : ℕ} (h : dv < image.length) :
    readByte (image.drop dv) = some (image.getD dv 0, image.drop (dv + 1)) := by
  rw [List.drop_eq_getElem_cons h, readByte_cons]
  simp [h]

/-- A count of elements and their bytes, where `tpl_serlen` has found both. -/
lemma exists_readElems [NeZero c] {xendian : Bool} {image : Bytes} {dv num : ℕ}
    (hnum : peekU32 xendian image dv = some num)
    (hlength : image.length = dv + 4 + (toInt num).toNat * c) :
    ∃ elems : List (CharArray c), readElems xendian (image.drop dv) = some elems := by
  obtain ⟨hlt, -⟩ := peekU32_eq_some hnum
  have hrest : (image.drop (dv + 4)).length = (toInt num).toNat * c := by
    rw [List.length_drop]
    omega
  obtain ⟨elems, helems, hcount⟩ := readArrays_of_length (NeZero.pos c) hrest
  by_cases hsign : num < 2147483648
  · have hint : (toInt num).toNat = num := by simp [toInt, hsign]
    refine ⟨elems, ?_⟩
    simp only [readElems, readU32_drop hnum, helems, Option.bind_eq_bind, Option.bind_some]
    rw [if_pos]
    rw [hcount, hint, Nat.mod_eq_of_lt hlt]
  · have hint : (toInt num).toNat = 0 := by
      rw [toInt, if_neg hsign]
      omega
    rw [hint, Nat.zero_mul] at hrest
    have hnil := List.length_eq_zero_iff.mp hrest
    have hzero : elems.length = 0 := hcount.trans hint
    refine ⟨[], ?_⟩
    simp only [readElems, readU32_drop hnum, helems, Option.bind_eq_bind, Option.bind_some]
    rw [if_neg (by omega), if_pos ⟨by omega, hnil⟩]

/-- **What `tpl_sanity` accepts loads.**

**Proof sketch.** Every check is one that the readers make, at the same offset. -/
lemma exists_tplLoad_of_sanity [NeZero c] {image : Bytes} (hlength : image.length < 2147483648)
    (h : tplSanity (tplMapped a b c) image = .ok ()) :
    ∃ node, tplLoad a b c image = some node := by
  unfold tplSanity at h
  dsimp only at h
  split_ifs at h with hmin hmagic hflags hsize
  cases hscan : scanFormat (image.drop 8) with
  | error e =>
    rw [hscan] at h
    cases h
  | ok fmt =>
    rw [hscan] at h
    dsimp only at h
    split_ifs at h with hfmt hoctothorpes hflens
    obtain rfl : fmt = tplFormat := not_not.mp hfmt
    have hlen : tplFormat.length = 9 := rfl
    have hstart : 8 + tplFormat.length + 1 + (tplMapped a b c).fxlens.length * 4 = 30 := rfl
    have hcount : tplFormat.count 35 = 3 := rfl
    rw [hlen, hcount] at hoctothorpes
    rw [hstart] at h
    cases hserlen : tplSerlen (tplNeedsEndianSwap image) image (tplMapped a b c).children 30 0 with
    | none =>
      rw [hserlen] at h
      cases h
    | some serlen =>
      rw [hserlen] at h
      dsimp only at h
      split_ifs at h with hdata
      obtain ⟨num, hnum, rfl, hle⟩ := (tplSerlen_eq_some (by omega)).mp hserlen
      obtain ⟨hflenA, hflenB, hflenC⟩ :
          peekU32 (tplNeedsEndianSwap image) image 18 = some (a % 4294967296) ∧
          peekU32 (tplNeedsEndianSwap image) image 22 = some (b % 4294967296) ∧
          peekU32 (tplNeedsEndianSwap image) image 26 = some (c % 4294967296) := by
        simpa [flensMatch, tplMapped, tplFormat] using hflens
      obtain ⟨rest, hformat⟩ := scanFormat_eq_ok hscan
      have hexpect : expect tplMagic image = some (image.drop 3) := if_pos (not_not.mp hmagic)
      have hexpect' : expect (tplFormat ++ [0]) (image.drop 8) = some (image.drop 18) :=
        expect_drop (show image.drop 8 = (tplFormat ++ [0]) ++ rest by simp [hformat])
      obtain ⟨x, -, hx⟩ := readArray_drop (show 30 + a ≤ image.length by omega)
      obtain ⟨y, -, hy⟩ := readArray_drop (show 30 + a + b ≤ image.length by omega)
      obtain ⟨elems, helems⟩ := exists_readElems hnum
        (show image.length = 30 + a + b + 4 + (toInt num).toNat * c by omega)
      refine ⟨⟨⟨x, y, elems⟩, elems⟩, ?_⟩
      have hsize' : image.length = image.length % 4294967296 :=
        (Nat.mod_eq_of_lt (by omega)).symm
      have hswap : decide (image.getD 3 0 &&& tplFlBigendian ≠ 0) = tplNeedsEndianSwap image := rfl
      simp only [tplLoad, hexpect, readByte_drop (show 3 < image.length by omega), hswap,
        not_not.mp hflags, readU32_drop (not_not.mp hsize), ← hsize', hexpect',
        readU32_drop hflenA, readU32_drop hflenB, readU32_drop hflenC, hx, hy, helems,
        guard_true, Option.bind_eq_bind, Option.bind_some, Option.pure_def,
        show 4 + 4 + 1 ≤ image.length by omega]

/-! ### The layout of an image -/

/-- Where the parts of an image begin. -/
structure TplLayout (flags : UInt8) (count : ℕ) (tn : TplImage a b c) (image : Bytes) : Prop where
  magic : image.take 3 = tplMagic
  flags : image.getD 3 0 = flags
  size : ∃ rest, image.drop 4 = word (tplNeedsEndianSwap image) image.length ++ rest
  fmt : ∃ rest, image.drop 8 = tplFormat ++ 0 :: rest
  flenA : ∃ rest, image.drop 18 = word (tplNeedsEndianSwap image) a ++ rest
  flenB : ∃ rest, image.drop 22 = word (tplNeedsEndianSwap image) b ++ rest
  flenC : ∃ rest, image.drop 26 = word (tplNeedsEndianSwap image) c ++ rest
  fst : ∃ rest, image.drop 30 = tn.fst.bytes ++ rest
  snd : ∃ rest, image.drop (30 + a) = tn.snd.bytes ++ rest
  elems : image.drop (30 + a + b) =
    word (tplNeedsEndianSwap image) count ++ tn.elems.flatMap CharArray.bytes
  length : image.length = 30 + a + b + (4 + c * tn.elems.length)

/-- The parts of an image begin where they should. -/
lemma tplLayout_tplImageBytes (flags : UInt8) (count : ℕ) (tn : TplImage a b c) :
    TplLayout flags count tn (tplImageBytes flags count tn) := by
  have hswap : tplNeedsEndianSwap (tplImageBytes flags count tn) =
      decide (flags &&& tplFlBigendian ≠ 0) := rfl
  have hlength := length_tplImageBytes flags count tn
  have hsize : tplSerOsz tn = 30 + a + b + (4 + c * tn.elems.length) := by
    rw [tplSerOsz]
    rfl
  have h4 : (tplImageBytes flags count tn).drop 4 =
      word (decide (flags &&& tplFlBigendian ≠ 0)) (tplSerOsz tn) ++ (tplFormat ++ [0] ++
        (word (decide (flags &&& tplFlBigendian ≠ 0)) a ++
        (word (decide (flags &&& tplFlBigendian ≠ 0)) b ++
        (word (decide (flags &&& tplFlBigendian ≠ 0)) c ++ (tn.fst.bytes ++ (tn.snd.bytes ++
        (word (decide (flags &&& tplFlBigendian ≠ 0)) count ++
          tn.elems.flatMap CharArray.bytes))))))) := rfl
  have h8 := drop_add_of_drop h4 (length_word _ _)
  have h18 := drop_add_of_drop h8 (show (tplFormat ++ [0]).length = 10 from rfl)
  have h22 := drop_add_of_drop h18 (length_word _ _)
  have h26 := drop_add_of_drop h22 (length_word _ _)
  have h30 := drop_add_of_drop h26 (length_word _ _)
  have hsnd := drop_add_of_drop h30 tn.fst.length_eq
  have helems := drop_add_of_drop hsnd tn.snd.length_eq
  constructor
  · rfl
  · rfl
  · rw [hswap, hlength]
    exact ⟨_, h4⟩
  · rw [List.append_assoc] at h8
    exact ⟨_, h8⟩
  · rw [hswap]
    exact ⟨_, h18⟩
  · rw [hswap]
    exact ⟨_, h22⟩
  · rw [hswap]
    exact ⟨_, h26⟩
  · exact ⟨_, h30⟩
  · exact ⟨_, hsnd⟩
  · rw [hswap]
    exact helems
  · rw [hlength, hsize]

/-- A count and the number of elements that `tpl_serlen` takes it for. -/
lemma toInt_of_countsElements {count num : ℕ} (h : CountsElements count num)
    (hnum : num < 2147483648) : (toInt count).toNat = num := by
  unfold toInt
  rcases h with rfl | ⟨hsign, hlt, rfl⟩
  · rw [Nat.mod_eq_of_lt (by omega), if_pos hnum]
    rfl
  · rw [if_neg (by omega)]
    omega

/-- A count is the number of elements, unless its sign bit is set and there are none. -/
lemma countsElements_iff {count num : ℕ} (hnum : num < 2147483648) : CountsElements count num ↔
    count = num ∨ (2147483648 ≤ count ∧ count < 4294967296 ∧ num = 0) := by
  rw [CountsElements, Nat.mod_eq_of_lt (by omega)]

/-- The count in an image with arrays of lengths `a` and `b` in the root. -/
def tplCount (a b : ℕ) (image : Bytes) : ℕ :=
  (peekU32 (tplNeedsEndianSwap image) image (30 + a + b)).getD 0

namespace TplLayout

variable {flags : UInt8} {count : ℕ} {tn : TplImage a b c} {image : Bytes}

/-- There are at most as many elements as bytes. -/
lemma length_elems_lt [NeZero c] (h : TplLayout flags count tn image)
    (hlength : image.length < 2147483648) : tn.elems.length < 2147483648 := by
  have hle := Nat.le_mul_of_pos_left tn.elems.length (NeZero.pos c)
  have heq := h.length
  omega

/-- The A node is as long as the rest of the image. -/
lemma tplSerlenAry [NeZero c] (h : TplLayout flags count tn image)
    (hcount : CountsElements count tn.elems.length) (hlength : image.length < 2147483648) :
    peekU32 (tplNeedsEndianSwap image) image (30 + a + b) = some count ∧
      FailureDetector.tplSerlenAry (tplNeedsEndianSwap image) image [c] (30 + a + b) =
        some (4 + c * tn.elems.length) := by
  have hpeek := peekU32_of_drop h.elems
  rw [Nat.mod_eq_of_lt hcount.lt] at hpeek
  refine ⟨hpeek, tplSerlenAry_eq_some.mpr ⟨count, hpeek, ?_, ?_⟩⟩
  · rw [toInt_of_countsElements hcount (h.length_elems_lt hlength), List.sum_singleton,
      Nat.mul_comm]
  · rw [h.length]

/-- **What loads is accepted by `tpl_sanity`.** -/
lemma tplSanity [NeZero c] (h : TplLayout flags count tn image)
    (hflags : flags &&& ~~~tplSupportedBitflags = 0)
    (hcount : CountsElements count tn.elems.length) (hlength : image.length < 2147483648) :
    FailureDetector.tplSanity (tplMapped a b c) image = .ok () := by
  obtain ⟨rest, hsize⟩ := h.size
  obtain ⟨rest', hfmt⟩ := h.fmt
  obtain ⟨restA, hflenA⟩ := h.flenA
  obtain ⟨restB, hflenB⟩ := h.flenB
  obtain ⟨restC, hflenC⟩ := h.flenC
  have hpeek : peekU32 (tplNeedsEndianSwap image) image 4 = some image.length := by
    rw [peekU32_of_drop hsize, Nat.mod_eq_of_lt (by omega)]
  have hscan : scanFormat (image.drop 8) = .ok tplFormat := by
    rw [hfmt, scanFormat_tplFormat]
  have hflens : flensMatch (tplNeedsEndianSwap image) image [a, b, c] 18 = true := by
    simp [flensMatch, peekU32_of_drop hflenA, peekU32_of_drop hflenB, peekU32_of_drop hflenC]
  have hserlen : tplSerlen (tplNeedsEndianSwap image) image [.byte a, .byte b, .ary [c]] 30 0 =
      some (a + b + (4 + c * tn.elems.length)) := by
    obtain ⟨hnum, hary⟩ := h.tplSerlenAry hcount hlength
    refine (tplSerlen_eq_some ?_).mpr ⟨count, hnum, ?_, ?_⟩
    · rw [h.length]
      omega
    · rw [toInt_of_countsElements hcount (h.length_elems_lt hlength), Nat.mul_comm c]
    · rw [h.length]
      omega
  have hlen := h.length
  unfold FailureDetector.tplSanity
  dsimp only
  rw [if_neg (by omega), if_neg (not_not.mpr h.magic), h.flags, if_neg (not_not.mpr hflags),
    if_neg (not_not.mpr hpeek), hscan]
  have hdv : 8 + tplFormat.length + 1 = 18 := rfl
  have hoctothorpes : tplFormat.count 35 = 3 := rfl
  have hdata : 18 + (tplMapped a b c).fxlens.length * 4 = 30 := rfl
  dsimp only
  rw [hdv, hoctothorpes, hdata,
    if_neg (show ¬ tplFormat ≠ (tplMapped a b c).fmt from not_not.mpr rfl), if_neg (by omega),
    show (tplMapped a b c).fxlens = [a, b, c] from rfl, hflens, if_neg (by decide),
    show (tplMapped a b c).children = [.byte a, .byte b, .ary [c]] from rfl, hserlen]
  dsimp only
  rw [if_neg (by omega)]

/-- The A node begins with its count. -/
lemma drop_elems (h : TplLayout flags count tn image) :
    image.drop (30 + a + b + 4) = tn.elems.flatMap CharArray.bytes :=
  drop_add_of_drop h.elems (length_word _ _)

/-- The A node at its first element. -/
lemma unpackA0 [NeZero c] (h : TplLayout flags count tn image)
    (hcount : CountsElements count tn.elems.length) (hlength : image.length < 2147483648) :
    FailureDetector.unpackA0 (tplNeedsEndianSwap image) image [.byte a, .byte b, .ary [c]] 30 =
      some [⟨count, 30 + a + b + 4⟩] := by
  obtain ⟨hnum, hary⟩ := h.tplSerlenAry hcount hlength
  simp [FailureDetector.unpackA0, hnum, hary]

/-- The arrays of the root are unpacked, and the A node is at its first element. -/
lemma unpackChildren [NeZero c] (h : TplLayout flags count tn image)
    (hcount : CountsElements count tn.elems.length) (hlength : image.length < 2147483648) :
    FailureDetector.unpackChildren (tplNeedsEndianSwap image) image
      [.byte a, .byte b, .ary [c]] 30 =
      some ([tn.fst.bytes, tn.snd.bytes], [⟨count, 30 + a + b + 4⟩]) := by
  obtain ⟨hnum, hary⟩ := h.tplSerlenAry hcount hlength
  obtain ⟨rest, hfst⟩ := h.fst
  obtain ⟨rest', hsnd⟩ := h.snd
  have hlen := h.length
  have hpeek := peek_of_drop (show 30 ≤ image.length by omega) hfst tn.fst.length_eq
  have hpeek' := peek_of_drop (show 30 + a ≤ image.length by omega) hsnd tn.snd.length_eq
  simp [FailureDetector.unpackChildren, hnum, hary, hpeek, hpeek']

/-- The count that is read in an image. -/
lemma tplCount [NeZero c] (h : TplLayout flags count tn image)
    (hcount : CountsElements count tn.elems.length) (hlength : image.length < 2147483648) :
    FailureDetector.tplCount a b image = count := by
  rw [FailureDetector.tplCount, (h.tplSerlenAry hcount hlength).1]
  rfl

end TplLayout

/-! ### `tpl_unpack` -/

/-- A loaded image, whose count has no sign bit, has the contents of a node, and as much of its A
node has been unpacked. -/
structure TplTree.Holds (t : TplTree) (tn : TplNode a b c) : Prop where
  children : t.children = [.byte a, .byte b, .ary [c]]
  xendian : t.xendian = tplNeedsEndianSwap t.image
  layout : ∃ flags, TplLayout flags tn.image.elems.length tn.image t.image
  length : t.image.length < 2147483648
  atyps : ∃ cur, t.atyps = [⟨tn.cur.length, cur⟩] ∧ cur ≤ t.image.length ∧
    t.image.drop cur = tn.cur.flatMap CharArray.bytes

/-- What `tpl_unpack` returns and unpacks of the contents. -/
def TplNode.unpack (tn : TplNode a b c) : ℕ → ℤ × List Bytes × TplNode a b c
  | 0 =>
    let (x, y, tn) := tplUnpackRoot tn
    (1, [x.bytes, y.bytes], tn)
  | 1 =>
    match tplUnpackArray tn with
    | none => (0, [], tn)
    | some (z, tn') => (tn.cur.length, [z.bytes], tn')
  | _ => (-1, [], tn)

variable {t : TplTree} {tn : TplNode a b c}

/-- There are fewer than 2^31 elements in an image of less than 2 GiB. -/
lemma TplTree.Holds.length_elems_lt [NeZero c] (h : t.Holds tn) :
    tn.image.elems.length < 2147483648 := by
  obtain ⟨flags, hlayout⟩ := h.layout
  exact hlayout.length_elems_lt h.length

/-- The root is unpacked, and the A node is at its first element. -/
lemma TplTree.unpack_zero [NeZero c] {flags : UInt8} {count : ℕ} {image : TplImage a b c}
    (hchildren : t.children = [.byte a, .byte b, .ary [c]])
    (hxendian : t.xendian = tplNeedsEndianSwap t.image) (h : TplLayout flags count image t.image)
    (hcount : CountsElements count image.elems.length) (hlength : t.image.length < 2147483648) :
    t.unpack 0 = some (1, [image.fst.bytes, image.snd.bytes],
      { t with atyps := [⟨count, 30 + a + b + 4⟩] }) := by
  obtain ⟨rest, hfmt⟩ := h.fmt
  rw [TplTree.unpack, tplFindDataStart_eq hfmt, hchildren, hxendian]
  simp [h.unpackChildren hcount hlength]

/-- The root is unpacked. -/
lemma TplTree.Holds.unpack_root [NeZero c] (h : t.Holds tn) : ∃ t',
    t.unpack 0 = some (1, [tn.image.fst.bytes, tn.image.snd.bytes], t') ∧
      t'.Holds (tplUnpackRoot tn).2.2 := by
  obtain ⟨flags, hlayout⟩ := h.layout
  have hcount : CountsElements tn.image.elems.length tn.image.elems.length :=
    (countsElements_iff h.length_elems_lt).mpr (Or.inl rfl)
  have hlen := hlayout.length
  refine ⟨_, TplTree.unpack_zero h.children h.xendian hlayout hcount h.length, h.children,
    h.xendian, ⟨flags, hlayout⟩, h.length, _, rfl, ?_, hlayout.drop_elems⟩
  show 30 + a + b + 4 ≤ t.image.length
  omega

/-- The number of elements that are left is a positive `int`. -/
lemma TplTree.Holds.toInt_length_cur [NeZero c] (h : t.Holds tn) :
    toInt tn.cur.length = tn.cur.length := by
  obtain ⟨cur, -, hcur, hdrop⟩ := h.atyps
  have hlength := congrArg List.length hdrop
  rw [List.length_drop, length_flatMap_bytes] at hlength
  have hle := Nat.le_mul_of_pos_left tn.cur.length (NeZero.pos c)
  have hlt := h.length
  exact if_pos (by omega)

/-- The A node is unpacked as long as it has elements.

**Proof sketch.** What is left of the image are the elements that are left, and `num` is their
number. -/
lemma TplTree.Holds.unpack_array [NeZero c] (h : t.Holds tn) : ∃ t',
    t.unpack 1 = some ((tn.unpack 1).1, (tn.unpack 1).2.1, t') ∧ t'.Holds (tn.unpack 1).2.2 := by
  obtain ⟨cur, hatyps, hcur, hdrop⟩ := h.atyps
  have hrc := h.toInt_length_cur
  have hnodes : TplChild.aNodes t.children = [[c]] := by rw [h.children]; rfl
  cases hleft : tn.cur with
  | nil =>
    refine ⟨t, ?_, ?_⟩
    · simp [TplTree.unpack, TplNode.unpack, tplUnpackArray, hnodes, hatyps, hleft]
    · simpa [TplNode.unpack, tplUnpackArray, hleft] using h
  | cons z zs =>
    rw [hleft] at hatyps hdrop hrc
    rw [List.length_cons] at hatyps hrc
    rw [List.flatMap_cons] at hdrop
    have hpeek := peek_of_drop hcur hdrop z.length_eq
    have hlength := congrArg List.length hdrop
    rw [List.length_drop, List.length_append, z.length_eq] at hlength
    refine ⟨{ t with atyps := [⟨zs.length, cur + c⟩] }, ?_, ?_⟩
    · simp [TplTree.unpack, TplNode.unpack, tplUnpackArray, hnodes, hatyps, hleft, unpackElem,
        hpeek, hrc]
    · have hunpack : (tn.unpack 1).2.2 = { tn with cur := zs } := by
        simp [TplNode.unpack, tplUnpackArray, hleft]
      rw [hunpack]
      refine ⟨h.children, h.xendian, h.layout, h.length, cur + c, rfl, ?_,
        drop_add_of_drop hdrop z.length_eq⟩
      show cur + c ≤ t.image.length
      omega

/-- An A node whose count has the sign bit set is read behind the image. -/
lemma TplTree.unpack_one_eq_none [NeZero c] (hchildren : t.children = [.byte a, .byte b, .ary [c]])
    {num : ℕ} (hnum : num ≠ 0) {cur : ℕ} (hatyps : t.atyps = [⟨num, cur⟩])
    (hcur : t.image.length ≤ cur) : t.unpack 1 = none := by
  have hnodes : TplChild.aNodes t.children = [[c]] := by rw [hchildren]; rfl
  have hpos := NeZero.pos c
  have hpeek : peek t.image cur c = none := if_neg (by omega)
  simp [TplTree.unpack, hnodes, hatyps, hnum, unpackElem, hpeek]

/-- **Unpacking one node** stays in the image and unpacks the contents. -/
lemma TplTree.Holds.unpack [NeZero c] (h : t.Holds tn) (i : ℕ) : ∃ t',
    t.unpack i = some ((tn.unpack i).1, (tn.unpack i).2.1, t') ∧ t'.Holds (tn.unpack i).2.2 := by
  match i with
  | 0 => exact h.unpack_root
  | 1 => exact h.unpack_array
  | i + 2 =>
    have hnodes : TplChild.aNodes t.children = [[c]] := by rw [h.children]; rfl
    exact ⟨t, by simp [TplTree.unpack, TplNode.unpack, hnodes], h⟩

/-- What a sequence of `tpl_unpack` calls returns and unpacks, unless it reads outside of the
image. -/
def TplTree.unpackAll (t : TplTree) : List ℕ → Option (List (ℤ × List Bytes))
  | [] => some []
  | i :: is => do
    let (rc, xs, t) ← t.unpack i
    let rest ← t.unpackAll is
    some ((rc, xs) :: rest)

/-- What a sequence of calls returns and unpacks of the contents. -/
def TplNode.unpackAll (tn : TplNode a b c) : List ℕ → List (ℤ × List Bytes)
  | [] => []
  | i :: is => ((tn.unpack i).1, (tn.unpack i).2.1) :: (tn.unpack i).2.2.unpackAll is

/-- Every sequence of calls stays in the image and unpacks the contents. -/
lemma TplTree.Holds.unpackAll [NeZero c] (h : t.Holds tn) (is : List ℕ) :
    t.unpackAll is = some (tn.unpackAll is) := by
  induction is generalizing t tn with
  | nil => rfl
  | cons i is ih =>
    obtain ⟨t', hunpack, hholds⟩ := h.unpack i
    simp [TplTree.unpackAll, TplNode.unpackAll, hunpack, ih hholds]

/-! ### `tpl_load` -/

/-- An image that loads is checked, and its A node is at the first element. -/
lemma tplLoadMem_of_tplLoad [NeZero c] {image : Bytes} (hlength : image.length < 2147483648)
    (h : tplLoad a b c image = some tn) :
    tplLoadMem (tplMapped a b c) image = some (.ok ⟨[.byte a, .byte b, .ary [c]], image,
      tplNeedsEndianSwap image, [⟨tplCount a b image, 30 + a + b + 4⟩]⟩) := by
  obtain ⟨hcur, flags, count, hflags, hcount, rfl⟩ := tplLoad_eq_some h
  have hlayout := tplLayout_tplImageBytes flags count tn.image
  obtain ⟨rest, hfmt⟩ := hlayout.fmt
  rw [tplLoadMem, hlayout.tplSanity hflags hcount hlength]
  simp [tplFindDataStart_eq hfmt, tplMapped, hlayout.unpackA0 hcount hlength,
    hlayout.tplCount hcount hlength]

/-- An image whose count has no sign bit is loaded with its contents. -/
lemma holds_of_tplLoad [NeZero c] {image : Bytes} (hlength : image.length < 2147483648)
    (h : tplLoad a b c image = some tn) (hsign : tplCount a b image < 2147483648) :
    TplTree.Holds ⟨[.byte a, .byte b, .ary [c]], image, tplNeedsEndianSwap image,
      [⟨tplCount a b image, 30 + a + b + 4⟩]⟩ tn := by
  obtain ⟨hcur, flags, count, hflags, hcount, rfl⟩ := tplLoad_eq_some h
  have hlayout := tplLayout_tplImageBytes flags count tn.image
  have hlen := hlayout.length
  rw [hlayout.tplCount hcount hlength] at hsign ⊢
  obtain rfl : count = tn.image.elems.length := by
    rcases (countsElements_iff (hlayout.length_elems_lt hlength)).mp hcount with heq | ⟨hle, -⟩
    · exact heq
    · exact absurd hsign (Nat.not_lt.mpr hle)
  refine ⟨rfl, rfl, ⟨flags, hlayout⟩, hlength, _, by rw [hcur], ?_, ?_⟩
  · show 30 + a + b + 4 ≤ (tplImageBytes flags tn.image.elems.length tn.image).length
    omega
  · rw [hcur]
    exact hlayout.drop_elems

/-- An image whose count has the sign bit set ends behind the count. -/
lemma length_of_sign [NeZero c] {image : Bytes} (hlength : image.length < 2147483648)
    (h : tplLoad a b c image = some tn) (hsign : 2147483648 ≤ tplCount a b image) :
    image.length = 30 + a + b + 4 := by
  obtain ⟨-, flags, count, hflags, hcount, rfl⟩ := tplLoad_eq_some h
  have hlayout := tplLayout_tplImageBytes flags count tn.image
  have hlt := hlayout.length_elems_lt hlength
  have hlen := hlayout.length
  rw [hlayout.tplCount hcount hlength] at hsign
  rcases (countsElements_iff hlt).mp hcount with rfl | ⟨-, -, hzero⟩
  · omega
  · rw [hlen, hzero, Nat.mul_zero]

/-- With elements, the sign bit of the count is not set. -/
lemma tplCount_lt [NeZero c] {image : Bytes} (hlength : image.length < 2147483648)
    (h : tplLoad a b c image = some tn) (hne : tn.image.elems ≠ []) :
    tplCount a b image < 2147483648 := by
  by_contra hsign
  have hend := length_of_sign hlength h (Nat.le_of_not_lt hsign)
  obtain ⟨-, flags, count, -, -, rfl⟩ := tplLoad_eq_some h
  have hlen := (tplLayout_tplImageBytes flags count tn.image).length
  have hpos := Nat.mul_pos (NeZero.pos c) (List.length_pos_iff.mpr hne)
  omega

/-- **`tpl_load`** refuses by a check what does not load. -/
lemma tplLoadMem_cases [NeZero c] {image : Bytes} (hlength : image.length < 2147483648) :
    (tplLoad a b c image = none ∧ ∃ e, tplLoadMem (tplMapped a b c) image = some (.error e)) ∨
    ∃ tn t, tplLoad a b c image = some tn ∧ tplLoadMem (tplMapped a b c) image = some (.ok t) := by
  cases hload : tplLoad a b c image with
  | some tn => exact Or.inr ⟨tn, _, rfl, tplLoadMem_of_tplLoad hlength hload⟩
  | none =>
    left
    refine ⟨rfl, ?_⟩
    cases hsanity : tplSanity (tplMapped a b c) image with
    | error e => exact ⟨e, by rw [tplLoadMem, hsanity]⟩
    | ok u =>
      obtain ⟨node, hnode⟩ := exists_tplLoad_of_sanity hlength hsanity
      rw [hload] at hnode
      cases hnode

/-- **When unpacking stays in the image.** Let an image of less than 2 GiB be loaded, whatever its
bytes are. `tpl_sanity` refuses it exactly if it is no image of this format. Otherwise every
sequence of `tpl_unpack` calls, of any indices, reads nothing outside of the image if and only if
the sign bit of the count in the image is not set; and then it returns and unpacks the contents.

**Proof sketch.** The checks of `tpl_sanity` are those of the readers, made at the same offsets, and
the size that `tpl_serlen` computes is that of the data. While the A node is unpacked, what is left
of the image are the elements that are left, and their number is `num`. With the sign bit set
`tpl_serlen` finds no elements, so the image ends behind the count, and `tpl_unpack` copies an
element from there. -/
theorem tpl_unpack_in_bounds_iff (a b c : ℕ) [NeZero c] (image : Bytes)
    (hlength : image.length < 2147483648) :
    (tplLoad a b c image = none ↔ ∃ e, tplLoadMem (tplMapped a b c) image = some (.error e)) ∧
    ∀ tn, tplLoad a b c image = some tn →
      ∃ t, tplLoadMem (tplMapped a b c) image = some (.ok t) ∧
        ((∀ is, t.unpackAll is ≠ none) ↔ tplCount a b image < 2147483648) ∧
        (tplCount a b image < 2147483648 → ∀ is, t.unpackAll is = some (tn.unpackAll is)) := by
  rcases tplLoadMem_cases hlength (a := a) (b := b) (c := c) with
    ⟨hload, e, hmem⟩ | ⟨tn, t, hload, hmem⟩
  · refine ⟨iff_of_true hload ⟨e, hmem⟩, fun tn h => ?_⟩
    rw [hload] at h
    cases h
  · constructor
    · rw [hload, hmem]
      simp
    · intro tn' h
      have hall : tplCount a b image < 2147483648 → ∀ is, _ := fun hsign =>
        (holds_of_tplLoad hlength h hsign).unpackAll
      refine ⟨_, tplLoadMem_of_tplLoad hlength h, ⟨fun hin => ?_, fun hsign is => ?_⟩, hall⟩
      · by_contra hsign
        have hle := Nat.le_of_not_lt hsign
        apply hin [1]
        rw [TplTree.unpackAll, TplTree.unpack_one_eq_none rfl (by omega) rfl
          (length_of_sign hlength h hle).le]
        rfl
      · rw [hall hsign is]
        exact Option.some_ne_none _

/-- An image with one element, which is unpacked twice, and an image with the sign bit set in the
count. -/
theorem tpl_unpack_in_bounds_iff_two :
    (∃ t, tplLoadMem (tplMapped 1 1 1) (tplDump (tplPackArray (tplMap 1 1 1) (CharArray.zero 1))) =
        some (.ok t) ∧ t.unpackAll [0, 1, 1, 0, 1] =
          some [(1, [[0], [0]]), (1, [[0]]), (0, []), (1, [[0], [0]]), (1, [[0]])]) ∧
    ∃ t, tplLoadMem (tplMapped 1 1 1) (tplImageBytes 0 2147483648 (tplMap 1 1 1)) = some (.ok t) ∧
      ¬ ∀ is, t.unpackAll is ≠ none := by
  constructor
  · obtain ⟨t, ht, -, hall⟩ := (tpl_unpack_in_bounds_iff 1 1 1
      (tplDump (tplPackArray (tplMap 1 1 1) (CharArray.zero 1))) (by decide)).2 _
      (tplLoad_tplDump _)
    exact ⟨t, ht, hall (by decide) _⟩
  · obtain ⟨t, ht, hiff, -⟩ := (tpl_unpack_in_bounds_iff 1 1 1
      (tplImageBytes 0 2147483648 (tplMap 1 1 1)) (by decide)).2 _
      (tplLoad_tplImageBytes (by decide) (Or.inr ⟨le_rfl, by decide, rfl⟩))
    exact ⟨t, ht, hiff.not.mpr (by decide)⟩

/-! ### `deserialize_hash` -/

/-- The unpacking loop of `deserialize_hash` stays in its buffer if every element ends there.

**Proof sketch.** Induction on the elements that are left. -/
lemma unpackIpAddressesMem_eq {tn : TplNode a b maxSizeIpAddressString} (h : t.Holds tn)
    {fuel : ℕ} (hfuel : tn.cur.length < fuel) {L : Type} [ZlistImpl L CStr] (result : L) :
    unpackIpAddressesMem fuel t result =
      if ∀ z ∈ tn.cur, 0 ∈ z.bytes then some (unpackIpAddresses tn result) else none := by
  induction fuel generalizing t tn result with
  | zero => omega
  | succ fuel ih =>
    obtain ⟨t', hunpack, hholds⟩ := h.unpack 1
    rw [unpackIpAddressesMem, hunpack]
    cases hleft : tn.cur with
    | nil =>
      have hnone : tplUnpackArray tn = none := by simp [tplUnpackArray, hleft]
      have hresult : unpackIpAddresses tn result = result := by
        rw [unpackIpAddresses]
        split
        · rfl
        · next hsome =>
          rw [hnone] at hsome
          cases hsome
      simp [TplNode.unpack, hnone, hresult]
    | cons z zs =>
      have hsome : tplUnpackArray tn = some (z, { tn with cur := zs }) := by
        simp [tplUnpackArray, hleft]
      have hresult : unpackIpAddresses tn result =
          unpackIpAddresses { tn with cur := zs } (zlistPush result z.cstr) := by
        rw [unpackIpAddresses]
        split
        · next hnone =>
          rw [hsome] at hnone
          cases hnone
        · next temp tn' hsome' =>
          rw [hsome] at hsome'
          cases hsome'
          rfl
      have hnode : (tn.unpack 1).2.2 = { tn with cur := zs } := by simp [TplNode.unpack, hsome]
      rw [hnode] at hholds
      have hfuel' : zs.length < fuel := by
        rw [hleft, List.length_cons] at hfuel
        omega
      have hloop := ih hholds hfuel' (zlistPush result z.cstr)
      rw [hresult]
      by_cases hzero : 0 ∈ z.bytes
      · have hdup : strdup z.bytes = some z.cstr := if_pos hzero
        simpa [TplNode.unpack, hsome, hleft, hdup, hzero] using hloop
      · have hdup : strdup z.bytes = none := if_neg hzero
        simp [TplNode.unpack, hsome, hleft, hdup, hzero]

/-- A value that loads is unpacked if the sign bit of its count is not set and its elements end in
the buffer.

**Proof sketch.** Unpacking the root twice leaves the A node at its first element. With the sign bit
set, unpacking that reads behind the value. -/
lemma deserializeHashMem_of_tplLoad {buffer : Bytes} (hlength : buffer.length < 2147483648)
    {tn : TplNode zuuidLen maxSizeIpAddressString maxSizeIpAddressString}
    (hload : tplLoad zuuidLen maxSizeIpAddressString maxSizeIpAddressString buffer = some tn)
    {L : Type} [ZlistImpl L CStr] (result : L) : deserializeHashMem buffer result =
      if tplCount zuuidLen maxSizeIpAddressString buffer < 2147483648 ∧
          ∀ z ∈ tn.image.elems, 0 ∈ z.bytes then
        some (some (unpackIpAddresses (tplUnpackRoot tn).2.2 result, tn.image.snd.bytes,
          tn.image.fst.bytes), [])
      else none := by
  have hmem := tplLoadMem_of_tplLoad hlength hload
  by_cases hsign : tplCount zuuidLen maxSizeIpAddressString buffer < 2147483648
  · obtain ⟨t₁, hunpack₁, hholds₁⟩ := (holds_of_tplLoad hlength hload hsign).unpack_root
    obtain ⟨t₂, hunpack₂, hholds₂⟩ := hholds₁.unpack_root
    have hfuel : tn.image.elems.length < buffer.length + 1 := by
      obtain ⟨-, flags, count, -, -, heq⟩ := tplLoad_eq_some hload
      have hlen := congrArg List.length heq
      rw [length_tplImageBytes, tplSerOsz] at hlen
      have hle := Nat.le_mul_of_pos_left tn.image.elems.length (NeZero.pos maxSizeIpAddressString)
      omega
    have hloop : unpackIpAddressesMem (buffer.length + 1) t₂ result =
        if ∀ z ∈ tn.image.elems, 0 ∈ z.bytes then
          some (unpackIpAddresses (tplUnpackRoot tn).2.2 result)
        else none := unpackIpAddressesMem_eq hholds₂ hfuel result
    rw [deserializeHashMem, hmem]
    simp only [Option.bind_eq_bind, Option.bind_some, hunpack₁, hunpack₂, hloop]
    by_cases hzero : ∀ z ∈ tn.image.elems, 0 ∈ z.bytes
    · have hin : tplCount zuuidLen maxSizeIpAddressString buffer < 2147483648 ∧
          ∀ z ∈ tn.image.elems, 0 ∈ z.bytes := ⟨hsign, hzero⟩
      simp only [if_pos hzero, if_pos hin]
      rfl
    · have hnot : ¬ (tplCount zuuidLen maxSizeIpAddressString buffer < 2147483648 ∧
          ∀ z ∈ tn.image.elems, 0 ∈ z.bytes) := fun h => hzero h.2
      rw [if_neg hnot]
      simp only [if_neg hzero]
      rfl
  · have hle := Nat.le_of_not_lt hsign
    have hend := length_of_sign hlength hload hle
    obtain ⟨-, flags, count, -, hcount, heq⟩ := tplLoad_eq_some hload
    have hlayout : TplLayout flags count tn.image buffer :=
      heq ▸ tplLayout_tplImageBytes flags count tn.image
    rw [hlayout.tplCount hcount hlength] at hle hmem
    set t : TplTree := ⟨[.byte zuuidLen, .byte maxSizeIpAddressString,
      .ary [maxSizeIpAddressString]], buffer, tplNeedsEndianSwap buffer,
      [⟨count, 30 + zuuidLen + maxSizeIpAddressString + 4⟩]⟩ with ht
    have hroot : t.unpack 0 = some (1, [tn.image.fst.bytes, tn.image.snd.bytes], t) :=
      TplTree.unpack_zero (t := t) rfl rfl hlayout hcount hlength
    have hnone : t.unpack 1 = none :=
      TplTree.unpack_one_eq_none (t := t) rfl (show count ≠ 0 by omega) rfl hend.le
    rw [if_neg fun h => hsign h.1, deserializeHashMem, hmem]
    simp only [Option.bind_eq_bind, Option.bind_some, unpackIpAddressesMem, hroot, hnone,
      Option.bind_none]
    rfl

/-- **When `deserialize_hash` stays in the value.** Whatever the bytes of a value of less than 2 GiB
are, `deserialize_hash` reads nothing outside of it, nor of its own buffer, if and only if the value
is refused, or the sign bit of its count is not set and each of its elements ends in the buffer.
Then it unpacks every element, and returns with the list, the sender's address and the UUID that
`FailureDetector.deserializeHash` finds. -/
theorem deserializeHashMem_eq_some_iff (buffer : Bytes) (hlength : buffer.length < 2147483648)
    {L : Type} [ZlistImpl L CStr] (result : L) :
    (deserializeHashMem buffer result ≠ none ↔ ∀ tn,
      tplLoad zuuidLen maxSizeIpAddressString maxSizeIpAddressString buffer = some tn →
        tplCount zuuidLen maxSizeIpAddressString buffer < 2147483648 ∧
        ∀ z ∈ tn.image.elems, 0 ∈ z.bytes) ∧
    (deserializeHashMem buffer result ≠ none → deserializeHashMem buffer result =
      some ((deserializeHash buffer result).1.map
        (fun m => (m.result, m.senderIp.bytes, m.uuid.bytes)),
        (deserializeHash buffer result).2)) := by
  rcases tplLoadMem_cases (a := zuuidLen) (b := maxSizeIpAddressString)
    (c := maxSizeIpAddressString) hlength with ⟨hload, e, hmem⟩ | ⟨tn, t, hload, -⟩
  · have hrefused : deserializeHashMem buffer result =
        some (none, [.printf "ERROR: Loading buffer in deserialize function unsuccessful\n"]) := by
      rw [deserializeHashMem, hmem]
      rfl
    rw [hrefused, deserializeHash, hload]
    exact ⟨iff_of_true (Option.some_ne_none _)
      fun _ h => absurd h.symm (Option.some_ne_none _), fun _ => rfl⟩
  · rw [deserializeHashMem_of_tplLoad hlength hload, deserializeHash, hload]
    simp only [Option.some.injEq, forall_eq']
    split
    · next hin => exact ⟨iff_of_true (Option.some_ne_none _) hin, fun _ => rfl⟩
    · next hout => exact ⟨iff_of_false (fun h => h rfl) hout, fun h => absurd rfl h⟩

/-- A message with the elements `2` and `z`, which is unpacked if `z` has a NUL. -/
def twoElements (z : IpBuffer) : Bytes :=
  tplDump (tplPackArray (tplPackArray (tplMap zuuidLen maxSizeIpAddressString
    maxSizeIpAddressString) (IpBuffer.set (CharArray.zero _) ipTwo)) z)

/-- A message whose elements end, and one whose last element does not. -/
theorem deserializeHashMem_eq_some_iff_two :
    (∃ list, deserializeHashMem (twoElements (IpBuffer.set (CharArray.zero _) ipOne)) Zlist.new =
        some (some (list, List.replicate 16 0, List.replicate 16 0), []) ∧
      list.items = [ipOne.1, ipTwo.1]) ∧
    deserializeHashMem (twoElements ⟨List.replicate 16 49, rfl⟩) Zlist.new = none := by
  have hload : ∀ z, tplLoad zuuidLen maxSizeIpAddressString maxSizeIpAddressString
      (twoElements z) = some ⟨_, _⟩ := fun z => tplLoad_tplDump _
  constructor
  · obtain ⟨hiff, heq⟩ := deserializeHashMem_eq_some_iff
      (twoElements (IpBuffer.set (CharArray.zero _) ipOne)) (by decide) Zlist.new
    have hin := hiff.mpr fun tn htn => by
      obtain rfl := Option.some.inj ((hload _).symm.trans htn)
      decide
    rw [heq hin, deserializeHash, hload]
    exact ⟨_, rfl, (unpackIpAddresses_items _ Zlist.new).trans (by decide)⟩
  · refine not_not.mp fun hne => ?_
    obtain ⟨hiff, -⟩ := deserializeHashMem_eq_some_iff
      (twoElements ⟨List.replicate 16 49, rfl⟩) (by decide) Zlist.new
    exact absurd (hiff.mp hne _ (hload _)).2 (by decide)

end FailureDetector
