import FailureDetector.Lib.Cursor
import FailureDetector.Tpl.Accepted

set_option relaxedAutoImplicit false
set_option autoImplicit false

/-!
# How `tpl.c` walks through an image

`tpl_load` checks an image once, in `tpl_sanity`, and `tpl_unpack` walks through it with a pointer
and checks nothing any more. `tpl_sanity` scans the format string, compares it and the lengths of
the arrays with those that were mapped, and lets `tpl_serlen` compute the size of the data.

The tree of a format has arrays of `char` as children of the root, and A nodes whose children are
such arrays. A pointer is an offset into the image, and reading outside of the image gives `none`.
`tpl_serlen` keeps the count of an A node in an `int`. The node itself keeps it in a `uint32_t`, and
`tpl_unpack` returns it as an `int`.

## Main definitions

* `FailureDetector.TplMapped` — the tree that `tpl_map` builds.
* `FailureDetector.tplSerlen`, `FailureDetector.tplSanity` — `tpl_serlen` and `tpl_sanity`.
* `FailureDetector.TplTree`, `FailureDetector.tplLoadMem` — `tpl_load` from memory.
* `FailureDetector.TplTree.unpack` — `tpl_unpack`.
* `FailureDetector.deserializeHashMem` — `deserialize_hash` with these.
-/

namespace FailureDetector

open CString Wire

/-! ### The tree -/

/-- A child of the root: an array of `num` bytes, or an A node with such children. -/
inductive TplChild
  | byte (num : ℕ)
  | ary (children : List ℕ)

/-- The tree of a format, with the format string and the lengths of the arrays. -/
structure TplMapped where
  children : List TplChild
  fmt : Bytes
  fxlens : List ℕ

/-- `tpl_map("c#c#A(c#)", …)`. -/
def tplMapped (a b c : ℕ) : TplMapped where
  children := [.byte a, .byte b, .ary [c]]
  fmt := tplFormat
  fxlens := [a, b, c]

/-- The value of type `int` with these 32 bits. -/
def toInt (num : ℕ) : ℤ := if num < 2147483648 then num else num - 4294967296

/-! ### The size of the data (`tpl_serlen`) -/

/-- The loop over an array of bytes. The second offset is `len`. -/
def serlenByte (bufPast : ℕ) : ℕ → ℕ → ℕ → Option (ℕ × ℕ)
  | 0, dv, len => some (dv, len)
  | num + 1, dv, len => if dv + 1 > bufPast then none else serlenByte bufPast num (dv + 1) (len + 1)

/-- The loop over the children of an A node. -/
def serlenChildren (bufPast : ℕ) : List ℕ → ℕ → ℕ → Option (ℕ × ℕ)
  | [], dv, len => some (dv, len)
  | num :: children, dv, len =>
    (serlenByte bufPast num dv len).bind fun (dv, len) => serlenChildren bufPast children dv len

/-- The loop over the elements of an A node. -/
def serlenElems (bufPast : ℕ) (children : List ℕ) : ℕ → ℕ → ℕ → Option (ℕ × ℕ)
  | 0, dv, len => some (dv, len)
  | num + 1, dv, len =>
    (serlenChildren bufPast children dv len).bind fun (dv, len) =>
      serlenElems bufPast children num dv len

/-- `tpl_serlen` of an A node. A negative count counts nothing. -/
def tplSerlenAry (xendian : Bool) (image : Bytes) (children : List ℕ) (dv : ℕ) : Option ℕ :=
  if dv + 4 > image.length then none
  else
    (peekU32 xendian image dv).bind fun num =>
      (serlenElems image.length children (toInt num).toNat (dv + 4) 4).map Prod.snd

/-- `tpl_serlen` of the root, from one of its children on. -/
def tplSerlen (xendian : Bool) (image : Bytes) : List TplChild → ℕ → ℕ → Option ℕ
  | [], _, len => some len
  | .byte num :: children, dv, len =>
    (serlenByte image.length num dv len).bind fun (dv, len) =>
      tplSerlen xendian image children dv len
  | .ary fields :: children, dv, len =>
    (tplSerlenAry xendian image fields dv).bind fun alen =>
      tplSerlen xendian image children (dv + alen) (len + alen)

/-! ### Checking an image (`tpl_sanity`) -/

/-- The errors of `tpl_sanity`. -/
inductive TplError
  | notMinsize
  | magicMismatch
  | unsupportedFlags
  | inconsistentSz
  | fmtInvalid
  | fmtMissingNul
  | fmtMismatch
  | inconsistentSz4
  | flenMismatch
  | inconsistentSz2
  | inconsistentSz3
  deriving DecidableEq

/-- `tpl_fmt_chars`: `AS($)BiucsfIUjv#`. -/
def tplFmtChars : Bytes := [65, 83, 40, 36, 41, 66, 105, 117, 99, 115, 102, 73, 85, 106, 118, 35]

/-- The scan for the end of the format string. -/
def scanFormat : Bytes → Except TplError Bytes
  | [] => .error .fmtMissingNul
  | ch :: rest =>
    if ch ≠ 0 then
      if ch ∉ tplFmtChars then .error .fmtInvalid else (scanFormat rest).map (ch :: ·)
    else .ok []

/-- The comparison of the lengths in the image with those that were mapped. -/
def flensMatch (xendian : Bool) (image : Bytes) : List ℕ → ℕ → Bool
  | [], _ => true
  | fxlen :: fxlens, dv =>
    decide (peekU32 xendian image dv = some (fxlen % 4294967296)) &&
      flensMatch xendian image fxlens (dv + 4)

/-- `tpl_needs_endian_swap`, on a little-endian machine. -/
def tplNeedsEndianSwap (image : Bytes) : Bool := image.getD 3 0 &&& tplFlBigendian ≠ 0

/-- `tpl_sanity`, for an image that must not be followed by anything. -/
def tplSanity (r : TplMapped) (image : Bytes) : Except TplError Unit :=
  let bufsz := image.length
  if bufsz < 4 + 4 + 1 then .error .notMinsize
  else if image.take 3 ≠ tplMagic then .error .magicMismatch
  else
    let xendian := tplNeedsEndianSwap image
    let intlflags := image.getD 3 0
    if intlflags &&& ~~~tplSupportedBitflags ≠ 0 then .error .unsupportedFlags
    else if peekU32 xendian image 4 ≠ some bufsz then .error .inconsistentSz
    else
      match scanFormat (image.drop 8) with
      | .error e => .error e
      | .ok fmt =>
        let dv := 8 + fmt.length + 1
        let octothorpes := fmt.count 35
        if fmt ≠ r.fmt then .error .fmtMismatch
        else if dv + octothorpes * 4 > bufsz then .error .inconsistentSz4
        else if flensMatch xendian image r.fxlens dv = false then .error .flenMismatch
        else
          let dv := dv + r.fxlens.length * 4
          match tplSerlen xendian image r.children dv 0 with
          | none => .error .inconsistentSz2
          | some serlen => if serlen + dv ≠ bufsz then .error .inconsistentSz3 else .ok ()

/-! ### Walking through a loaded image -/

/-- What is left to unpack of an A node. The number of elements is a `uint32_t`. -/
structure TplAtyp where
  num : ℕ
  cur : ℕ

/-- A loaded image. -/
structure TplTree where
  children : List TplChild
  image : Bytes
  xendian : Bool
  /-- What is left of the A nodes, in their order. -/
  atyps : List TplAtyp

/-- The scan for the end of the format string in `tpl_find_data_start`, which does not check where
the image ends: the offset of the NUL and the number of octothorpes. -/
def findNul : Bytes → Option (ℕ × ℕ)
  | [] => none
  | ch :: rest =>
    if ch ≠ 0 then
      (findNul rest).map fun (dv, octothorpes) =>
        (dv + 1, if ch = 35 then octothorpes + 1 else octothorpes)
    else some (0, 0)

/-- `tpl_find_data_start`. -/
def tplFindDataStart (image : Bytes) : Option ℕ :=
  (findNul (image.drop 8)).map fun (dv, octothorpes) => 8 + dv + 1 + octothorpes * 4

/-- `tpl_unpackA0` from a child of the root on: the A nodes at their first elements. -/
def unpackA0 (xendian : Bool) (image : Bytes) : List TplChild → ℕ → Option (List TplAtyp)
  | [], _ => some []
  | .byte num :: children, dv => unpackA0 xendian image children (dv + num)
  | .ary fields :: children, dv => do
    let aBytes ← tplSerlenAry xendian image fields dv
    let num ← peekU32 xendian image dv
    let atyps ← unpackA0 xendian image children (dv + aBytes)
    some (⟨num, dv + 4⟩ :: atyps)

/-- The children of the root are unpacked, from one of them on: the arrays, and the A nodes at their
first elements. -/
def unpackChildren (xendian : Bool) (image : Bytes) :
    List TplChild → ℕ → Option (List Bytes × List TplAtyp)
  | [], _ => some ([], [])
  | .byte num :: children, dv => do
    let x ← peek image dv num
    let (xs, atyps) ← unpackChildren xendian image children (dv + num)
    some (x :: xs, atyps)
  | .ary fields :: children, dv => do
    let aBytes ← tplSerlenAry xendian image fields dv
    let num ← peekU32 xendian image dv
    let (xs, atyps) ← unpackChildren xendian image children (dv + aBytes)
    some (xs, ⟨num, dv + 4⟩ :: atyps)

/-- The children of an A node are unpacked: the arrays, and where the next element begins. -/
def unpackElem (image : Bytes) : List ℕ → ℕ → Option (List Bytes × ℕ)
  | [], dv => some ([], dv)
  | num :: children, dv => do
    let x ← peek image dv num
    let (xs, dv) ← unpackElem image children (dv + num)
    some (x :: xs, dv)

/-- `tpl_load` from memory, unless it reads outside of the image. -/
def tplLoadMem (r : TplMapped) (image : Bytes) : Option (Except TplError TplTree) :=
  match tplSanity r image with
  | .error e => some (.error e)
  | .ok () => do
    let xendian := tplNeedsEndianSwap image
    let dv ← tplFindDataStart image
    let atyps ← unpackA0 xendian image r.children dv
    some (.ok ⟨r.children, image, xendian, atyps⟩)

/-- The children of the A nodes of a tree. -/
def TplChild.aNodes (children : List TplChild) : List (List ℕ) :=
  children.filterMap fun child => match child with
    | .byte _ => none
    | .ary fields => some fields

/-- `tpl_unpack`, unless it reads outside of the image: what it returns and the arrays that it
writes. Index 0 is the root, and the others are the A nodes. -/
def TplTree.unpack (t : TplTree) : ℕ → Option (ℤ × List Bytes × TplTree)
  | 0 => do
    let dv ← tplFindDataStart t.image
    let (xs, atyps) ← unpackChildren t.xendian t.image t.children dv
    some (1, xs, { t with atyps := atyps })
  | i + 1 =>
    match (TplChild.aNodes t.children)[i]?, t.atyps[i]? with
    | some fields, some atyp =>
      -- the test is `num <= 0`, of an unsigned number
      if atyp.num = 0 then some (0, [], t)
      else do
        let (xs, dv) ← unpackElem t.image fields atyp.cur
        some (toInt atyp.num, xs, { t with atyps := t.atyps.set i ⟨atyp.num - 1, dv⟩ })
    | _, _ => some (-1, [], t)

/-! ### `deserialize_hash` -/

/-- The unpacking loop of `deserialize_hash`, for at most `fuel` elements. `zlist_push` duplicates
the string that begins in the buffer `temp`. -/
def unpackIpAddressesMem {L : Type} [ZlistImpl L CStr] : ℕ → TplTree → L → Option L
  | 0, _, _ => none
  | fuel + 1, tn, result => do
    let (rc, xs, tn) ← tn.unpack 1
    if rc > 0 then
      let temp ← xs[0]?
      let ip ← strdup temp
      unpackIpAddressesMem fuel tn (zlistPush result ip)
    else some result

/-- `deserialize_hash` on these functions, unless it reads outside of the buffer or of `temp`: the
list, the sender's address and the UUID, if the return value is `0`. -/
def deserializeHashMem {L : Type} [ZlistImpl L CStr] (buffer : Bytes) (result : L) :
    Option (Option (L × Bytes × Bytes) × List Event) := do
  match ← tplLoadMem (tplMapped zuuidLen maxSizeIpAddressString maxSizeIpAddressString) buffer with
  | .error _ =>
    some (none, [.printf "ERROR: Loading buffer in deserialize function unsuccessful\n"])
  | .ok tn =>
    let (_, _, tn) ← tn.unpack 0
    let (_, xs, tn) ← tn.unpack 0
    let uuid ← xs[0]?
    let senderIp ← xs[1]?
    let result ← unpackIpAddressesMem (buffer.length + 1) tn result
    some (some (result, senderIp, uuid), [])

end FailureDetector
