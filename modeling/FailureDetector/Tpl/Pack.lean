import FailureDetector.Tpl.Walk

set_option relaxedAutoImplicit false
set_option autoImplicit false

/-!
# How `tpl.c` writes an image

`tpl_pack` copies the mapped arrays into the tree. An A node gets a new datum for every element, of
the size that `tpl_map` has added up, and the datum is filled through a pointer. `tpl_dump` adds up
the size of the image, allocates a buffer and fills it through a pointer, which `tpl_cpv` moves.
Neither pointer is ever compared with the end of the memory that it points to.

As in `FailureDetector.Tpl.Walk` the children of A nodes are arrays of `char`. Reading and writing
outside of an array gives `none`, and the bytes of a new buffer are not set.

## Main definitions

* `FailureDetector.TplRoot`, `FailureDetector.TplMapped.root` — the tree with its data, and the one
  that `tpl_map` leaves.
* `FailureDetector.tplPack` — `tpl_pack`.
* `FailureDetector.TplRoot.tplSerOsz`, `FailureDetector.tplDumpMem` — `tpl_ser_osz`, and `tpl_dump`
  to memory.
* `FailureDetector.serializeHashMem` — `serialize_hash` with these.
-/

namespace FailureDetector

open CString Wire

/-! ### The tree and its data -/

/-- An array of `num` bytes with its data. -/
structure TplArray where
  num : ℕ
  data : Bytes

/-- An A node, with its `tpl_atyp`: the number of elements, which has 32 bits, the size of a datum
and the data of the elements. -/
structure TplAry where
  children : List TplArray
  num : ℕ
  sz : ℕ
  bb : List Bytes
  serOsz : ℕ

/-- A child of the root with its data. -/
inductive TplPackNode
  | byte (x : TplArray)
  | ary (n : TplAry)

/-- The root with its data. -/
structure TplRoot where
  children : List TplPackNode
  fmt : Bytes
  fxlens : List ℕ
  serOsz : ℕ

/-- An array is zeroed when its length becomes known. -/
def TplArray.zero (num : ℕ) : TplArray := ⟨num, List.replicate num 0⟩

/-- What `tpl_map` makes of a child of the root. An A node adds up the sizes of its children. -/
def TplChild.node : TplChild → TplPackNode
  | .byte num => .byte (.zero num)
  | .ary fields => .ary ⟨fields.map .zero, 0, fields.sum, [], 0⟩

/-- What `tpl_map` leaves. The fixed part of an image is counted in advance. -/
def TplMapped.root (m : TplMapped) : TplRoot where
  children := m.children.map TplChild.node
  fmt := m.fmt
  fxlens := m.fxlens
  serOsz := 4 + (m.fmt.length + 1) + 4 + 4 * m.fxlens.length

/-! ### `tpl_pack` -/

/-- A mapped array is copied into its node. -/
def packArray (addr : Bytes) (x : TplArray) : Option TplArray := do
  let src ← peek addr 0 x.num
  let data ← poke x.data 0 src
  some { x with data := data }

/-- The arrays of the root are copied. The arguments are the contents of the mapped arrays. -/
def packRoot : List TplPackNode → List Bytes → Option (List TplPackNode)
  | [], _ => some []
  | .byte x :: children, addr :: addrs => do
    let x ← packArray addr x
    let children ← packRoot children addrs
    some (.byte x :: children)
  | .byte _ :: _, [] => none
  | .ary n :: children, addrs => (packRoot children addrs).map (.ary n :: ·)

/-- The arrays of an A node are copied, and from there into the new datum at `datav`. -/
def packElem : List TplArray → List Bytes → Bytes → ℕ → ℕ → Option (List TplArray × Bytes × ℕ)
  | [], _, datum, _, serOsz => some ([], datum, serOsz)
  | _ :: _, [], _, _, _ => none
  | x :: children, addr :: addrs, datum, datav, serOsz => do
    let x ← packArray addr x
    let src ← peek x.data 0 x.num
    let datum ← poke datum datav src
    let (children, datum, serOsz) ←
      packElem children addrs datum (datav + x.num) (serOsz + x.num)
    some (x :: children, datum, serOsz)

/-- An element is packed. `tpl_extend_backbone` allocates its datum and clears it. -/
def TplAry.pack (n : TplAry) (addrs : List Bytes) : Option TplAry := do
  let (children, datum, serOsz) ←
    packElem n.children addrs (List.replicate n.sz 0) 0 n.serOsz
  some ⟨children, (n.num + 1) % 4294967296, n.sz, n.bb ++ [datum], serOsz⟩

/-- An element of the A node with the given index is packed, if there is one. -/
def packAry (addrs : List Bytes) : List TplPackNode → ℕ → Option (ℤ × List TplPackNode)
  | [], _ => some (-1, [])
  | .byte x :: children, i =>
    (packAry addrs children i).map fun (rc, children) => (rc, .byte x :: children)
  | .ary n :: children, 0 => (n.pack addrs).map fun n => (0, .ary n :: children)
  | .ary n :: children, i + 1 =>
    (packAry addrs children i).map fun (rc, children) => (rc, .ary n :: children)

/-- `tpl_pack`, unless it reads or writes outside of an array: what it returns, and the tree. Index
0 is the root, and the others are the A nodes. -/
def tplPack (r : TplRoot) (addrs : List Bytes) : ℕ → Option (ℤ × TplRoot)
  | 0 => (packRoot r.children addrs).map fun children => (0, { r with children := children })
  | i + 1 =>
    (packAry addrs r.children i).map fun (rc, children) => (rc, { r with children := children })

/-! ### `tpl_dump` -/

/-- What a child of the root adds to the size of the image. -/
def TplPackNode.serSize : TplPackNode → ℕ
  | .byte x => x.num
  | .ary n => 4 + n.serOsz

/-- `tpl_ser_osz`. -/
def TplRoot.tplSerOsz (r : TplRoot) : ℕ := r.serOsz + (r.children.map TplPackNode.serSize).sum

/-- `tpl_cpv`. -/
def tplCpv (dv : Out) (data : Bytes) : Option Out := put dv data

/-- The children of an element are written, from the one at `datav` on. -/
def dumpElem (datum : Bytes) : List TplArray → ℕ → Out → Option Out
  | [], _, dv => some dv
  | x :: children, datav, dv => do
    let src ← peek datum datav x.num
    let dv ← tplCpv dv src
    dumpElem datum children (datav + x.num) dv

/-- `tpl_dump_atyp`. -/
def tplDumpAtyp (n : TplAry) (dv : Out) : Option Out := do
  let dv ← tplCpv dv (writeU32 n.num)
  n.bb.foldlM (fun dv datum => dumpElem datum n.children 0 dv) dv

/-- A child of the root is written. -/
def TplPackNode.dump (dv : Out) : TplPackNode → Option Out
  | .byte x => do
    let src ← peek x.data 0 x.num
    tplCpv dv src
  | .ary n => tplDumpAtyp n dv

/-- `TPL_FL_NULLSTRINGS`. -/
def tplFlNullstrings : UInt8 := 2

/-- The flags of an image that is written by a little-endian machine. -/
def dumpFlags (fmt : Bytes) : UInt8 := if 115 ∈ fmt then tplFlNullstrings else 0

/-- `tpl_dump_to_mem`, where the size is `sz`. -/
def tplDumpToMem (r : TplRoot) (addr : Out) (sz : ℕ) : Option Out := do
  let dv ← tplCpv addr tplMagic
  let dv ← tplCpv dv [dumpFlags r.fmt]
  let dv ← tplCpv dv (writeU32 sz)
  let dv ← tplCpv dv (r.fmt ++ [0])
  let dv ← tplCpv dv (r.fxlens.flatMap writeU32)
  r.children.foldlM TplPackNode.dump dv

/-- `tpl_dump` to memory that it allocates, unless it reads or writes outside of an array: the
buffer. -/
def tplDumpMem (r : TplRoot) : Option (List (Option UInt8)) :=
  let sz := r.tplSerOsz
  (tplDumpToMem r (List.replicate sz none, 0) sz).map Prod.fst

/-! ### `serialize_hash` -/

/-- The packing loop of `serialize_hash`. -/
def packIpAddressesMem : List NodeStruct → IpBuffer → TplRoot → Option TplRoot
  | [], _, tn => some tn
  | n :: ns, ipaddress, tn => do
    let ipaddress := ipaddress.set n.ipaddress
    let (_, tn) ← tplPack tn [ipaddress.bytes] 1
    packIpAddressesMem ns ipaddress tn

/-- `serialize_hash` on these functions, unless it reads or writes outside of an array: the buffer,
if the return value is `0`, and the sorted table. -/
def serializeHashMem (nodes : Option (List NodeStruct)) (currentNodeIp : IpBuffer) (uuid : Uuid)
    (ipaddress : IpBuffer) :
    Option (Option (List (Option UInt8)) × Option (List NodeStruct) × List Event) :=
  match nodes with
  | none | some [] => some (none, nodes, [.printf "ERROR: NULL nodes structure \n"])
  | some (n :: ns) => do
    let nodes := HashTable.sort ipAddressHashSortFunction (n :: ns)
    let tn := (tplMapped zuuidLen maxSizeIpAddressString maxSizeIpAddressString).root
    let (_, tn) ← tplPack tn [uuid.bytes, currentNodeIp.bytes] 0
    let (_, tn) ← tplPack tn [uuid.bytes, currentNodeIp.bytes] 0
    let tn ← packIpAddressesMem nodes ipaddress tn
    let buffer ← tplDumpMem tn
    some (some buffer, some nodes, [])

end FailureDetector
