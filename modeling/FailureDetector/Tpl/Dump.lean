import FailureDetector.Tpl.InBounds
import FailureDetector.Tpl.Pack

set_option relaxedAutoImplicit false
set_option autoImplicit false

/-!
# Dumping fills the buffer

The size that `tpl_dump` allocates is the number of bytes that it writes: it writes nothing outside
of the buffer and leaves no byte of it unset, whatever has been packed in which order. The image is
the one that `FailureDetector.tplDump` writes. So `serialize_hash` stays in its arrays, and what it
writes is read back by `deserialize_hash`.

## Main definitions

* `FailureDetector.TplRoot.Sound`, `FailureDetector.TplRoot.image` — the data of a tree fit
  together, and the image that they make.
* `FailureDetector.TplRoot.Packs` — the data of the tree are the contents of an image.
* `FailureDetector.TplPackCall`, `FailureDetector.tplPackAll` — sequences of `tpl_pack` calls.

## Main results

* `FailureDetector.TplRoot.Sound.tplDumpMem` — any tree of `char` arrays and A nodes of these.
* `FailureDetector.tpl_dump_fills` — every sequence of `tpl_pack` calls, and `tpl_dump`.
* `FailureDetector.serializeHashMem_roundtrip` — `serialize_hash` and `deserialize_hash`.
-/

namespace FailureDetector

open CString Wire

/-! ### Sound trees -/

/-- The data of an A node fit together. -/
structure TplAry.Sound (n : TplAry) : Prop where
  sz : n.sz = (n.children.map TplArray.num).sum
  bb : ∀ datum ∈ n.bb, datum.length = n.sz
  serOsz : n.serOsz = n.bb.length * n.sz

/-- The data of a child of the root fit together. -/
def TplPackNode.Sound : TplPackNode → Prop
  | .byte x => x.data.length = x.num
  | .ary n => n.Sound

/-- The data of a tree fit together. -/
structure TplRoot.Sound (r : TplRoot) : Prop where
  children : ∀ node ∈ r.children, node.Sound
  serOsz : r.serOsz = 4 + (r.fmt.length + 1) + 4 + 4 * r.fxlens.length

/-- What a child of the root contributes to the image. -/
def TplPackNode.bytes : TplPackNode → Bytes
  | .byte x => x.data
  | .ary n => writeU32 n.num ++ n.bb.flatMap id

/-- The image of a tree. -/
def TplRoot.image (r : TplRoot) : Bytes :=
  tplMagic ++ ([dumpFlags r.fmt] ++ (writeU32 r.tplSerOsz ++ ((r.fmt ++ [0]) ++
    (r.fxlens.flatMap writeU32 ++ r.children.flatMap TplPackNode.bytes))))

/-- Pieces of the same length. -/
lemma length_flatMap_of_length {α : Type*} {f : α → Bytes} {l : List α} {n : ℕ}
    (h : ∀ x ∈ l, (f x).length = n) : (l.flatMap f).length = l.length * n := by
  induction l with
  | nil => simp
  | cons x l ih =>
    rw [List.flatMap_cons, List.length_append, h x List.mem_cons_self,
      ih fun y hy => h y (List.mem_cons_of_mem x hy), List.length_cons, Nat.succ_mul, Nat.add_comm]

/-- The bytes of an element are written, whichever arrays they are split into.

**Proof sketch.** Induction on the arrays. The pointer into the datum moves by what is written. -/
lemma writes_dumpElem {datum : Bytes} {children : List TplArray} {datav : ℕ}
    (h : datum.length = datav + (children.map TplArray.num).sum) :
    Writes (dumpElem datum children datav) (datum.drop datav) := by
  induction children generalizing datav with
  | nil =>
    rw [List.drop_of_length_le (by simpa using h.le)]
    exact writes_nil
  | cons x children ih =>
    rw [List.map_cons, List.sum_cons] at h
    have hpeek : peek datum datav x.num = some ((datum.drop datav).take x.num) :=
      if_pos (by omega)
    have hsplit : datum.drop datav =
        (datum.drop datav).take x.num ++ datum.drop (datav + x.num) := by
      rw [← List.drop_drop, List.take_append_drop]
    have hrest : Writes (dumpElem datum children (datav + x.num)) (datum.drop (datav + x.num)) :=
      ih (by omega)
    have hwrites := (writes_put ((datum.drop datav).take x.num)).bind hrest
    rw [← hsplit] at hwrites
    simpa only [dumpElem, hpeek, tplCpv, Option.bind_eq_bind, Option.bind_some] using hwrites

/-- An A node is written. -/
lemma TplAry.Sound.writes {n : TplAry} (h : n.Sound) :
    Writes (tplDumpAtyp n) (TplPackNode.ary n).bytes := by
  refine (writes_put (writeU32 n.num)).bind (writes_foldlM fun datum hdatum => ?_)
  have hlength : datum.length = 0 + (n.children.map TplArray.num).sum := by
    rw [h.bb datum hdatum, h.sz, Nat.zero_add]
  exact writes_dumpElem hlength

/-- A child of the root is written. -/
lemma TplPackNode.Sound.writes {node : TplPackNode} (h : node.Sound) :
    Writes (fun dv => node.dump dv) node.bytes := by
  cases node with
  | byte x =>
    have hpeek : peek x.data 0 x.num = some x.data := peek_zero h
    simp only [TplPackNode.dump, hpeek, Option.bind_eq_bind, Option.bind_some]
    exact writes_put x.data
  | ary n => exact TplAry.Sound.writes h

/-- A child of the root is as long as `tpl_ser_osz` takes it for. -/
lemma TplPackNode.Sound.length {node : TplPackNode} (h : node.Sound) :
    node.bytes.length = node.serSize := by
  cases node with
  | byte x => exact h
  | ary n =>
    have hsound : n.Sound := h
    show (writeU32 n.num ++ n.bb.flatMap id).length = 4 + n.serOsz
    rw [List.length_append, length_writeU32, hsound.serOsz,
      length_flatMap_of_length (f := id) hsound.bb]

/-- **`tpl_ser_osz` is the size of the image.** -/
lemma TplRoot.Sound.length {r : TplRoot} (h : r.Sound) : r.image.length = r.tplSerOsz := by
  have hchildren : (r.children.flatMap TplPackNode.bytes).length =
      (r.children.map TplPackNode.serSize).sum := by
    rw [List.length_flatMap]
    exact congrArg List.sum (List.map_congr_left fun node hnode => (h.children node hnode).length)
  have hfxlens : (r.fxlens.flatMap writeU32).length = r.fxlens.length * 4 :=
    length_flatMap_of_length fun k _ => length_writeU32 k
  simp only [TplRoot.image, List.length_append, hchildren, hfxlens, length_writeU32,
    List.length_cons, List.length_nil, tplMagic, TplRoot.tplSerOsz, h.serOsz]
  omega

/-- **A tree is dumped** into a buffer that it fills.

**Proof sketch.** Every part is written behind the one before it, and `tpl_ser_osz` is the size of
all. -/
lemma TplRoot.Sound.tplDumpMem {r : TplRoot} (h : r.Sound) :
    FailureDetector.tplDumpMem r = some (r.image.map some) := by
  have hwrites : Writes (fun dv => tplDumpToMem r dv r.tplSerOsz) r.image :=
    (writes_put _).bind ((writes_put _).bind ((writes_put _).bind ((writes_put _).bind
      ((writes_put _).bind (writes_foldlM fun node hnode => (h.children node hnode).writes)))))
  have hfills := hwrites.fills
  rw [h.length] at hfills
  simp only [FailureDetector.tplDumpMem, hfills, Option.map_some]

/-! ### Packing -/

variable {a b c : ℕ}

/-- The data of the tree are the contents of an image. -/
structure TplRoot.Packs (r : TplRoot) (tn : TplImage a b c) : Prop where
  children : ∃ z : CharArray c, r.children = [.byte ⟨a, tn.fst.bytes⟩, .byte ⟨b, tn.snd.bytes⟩,
    .ary ⟨[⟨c, z.bytes⟩], tn.elems.length % 4294967296, c, tn.elems.map CharArray.bytes,
      tn.elems.length * c⟩]
  fmt : r.fmt = tplFormat
  fxlens : r.fxlens = [a, b, c]
  serOsz : r.serOsz = 30

/-- A call of `tpl_pack`, with the contents of the mapped arrays. -/
inductive TplPackCall (a b c : ℕ)
  | root (x : CharArray a) (y : CharArray b)
  | array (z : CharArray c)
  /-- There is no node with the index `i + 2`. -/
  | invalid (i : ℕ) (addrs : List Bytes)

namespace TplPackCall

/-- The index of the node. -/
def index : TplPackCall a b c → ℕ
  | .root _ _ => 0
  | .array _ => 1
  | .invalid i _ => i + 2

/-- The contents of the mapped arrays. -/
def addrs : TplPackCall a b c → List Bytes
  | .root x y => [x.bytes, y.bytes]
  | .array z => [z.bytes]
  | .invalid _ addrs => addrs

/-- What the call returns. -/
def rc : TplPackCall a b c → ℤ
  | .invalid _ _ => -1
  | _ => 0

/-- What the call makes of the contents. -/
def pack (tn : TplImage a b c) : TplPackCall a b c → TplImage a b c
  | .root x y => tplPackRoot tn x y
  | .array z => tplPackArray tn z
  | .invalid _ _ => tn

end TplPackCall

/-- A sequence of `tpl_pack` calls, unless one reads or writes outside of an array: what they
return, and the tree. -/
def tplPackAll (r : TplRoot) : List (TplPackCall a b c) → Option (List ℤ × TplRoot)
  | [] => some ([], r)
  | call :: calls => do
    let (rc, r) ← tplPack r call.addrs call.index
    let (rcs, r) ← tplPackAll r calls
    some (rc :: rcs, r)

variable {r : TplRoot} {tn : TplImage a b c}

/-- What `tpl_map` leaves is empty. -/
lemma packs_root (a b c : ℕ) : (tplMapped a b c).root.Packs (tplMap a b c) where
  children := ⟨CharArray.zero c, by
    simp [TplMapped.root, tplMapped, TplChild.node, TplArray.zero, tplMap, CharArray.zero]⟩
  fmt := rfl
  fxlens := rfl
  serOsz := rfl

/-- The contents of an image fit together. -/
lemma TplRoot.Packs.sound (h : r.Packs tn) : r.Sound := by
  obtain ⟨z, hchildren⟩ := h.children
  constructor
  · intro node hnode
    rw [hchildren] at hnode
    simp only [List.mem_cons, List.not_mem_nil, or_false] at hnode
    rcases hnode with rfl | rfl | rfl
    · exact tn.fst.length_eq
    · exact tn.snd.length_eq
    · refine ⟨by simp, fun datum hdatum => ?_, by simp⟩
      obtain ⟨x, -, rfl⟩ := List.mem_map.mp hdatum
      exact x.length_eq
  · rw [h.serOsz, h.fmt, h.fxlens]
    rfl

/-- The image of the contents. -/
lemma TplRoot.Packs.image (h : r.Packs tn) : r.image = tplDump tn := by
  obtain ⟨z, hchildren⟩ := h.children
  have hcount : writeU32 (tn.elems.length % 4294967296) = writeU32 tn.elems.length :=
    word_mod false tn.elems.length
  have hsize : r.tplSerOsz = FailureDetector.tplSerOsz tn := by
    simp only [TplRoot.tplSerOsz, hchildren, h.serOsz, FailureDetector.tplSerOsz, tplFormat,
      List.map_cons, List.map_nil, List.sum_cons, List.sum_nil, TplPackNode.serSize,
      List.length_cons, List.length_nil, Nat.mul_comm c]
    omega
  have hflags : dumpFlags tplFormat = 0 := rfl
  simp [TplRoot.image, hsize, hchildren, h.fmt, h.fxlens, hflags, tplDump, TplPackNode.bytes,
    hcount, List.flatMap_map]

/-- A mapped array replaces the data of its node. -/
lemma packArray_eq {n : ℕ} (addr data : CharArray n) :
    packArray addr.bytes ⟨n, data.bytes⟩ = some ⟨n, addr.bytes⟩ := by
  have hpeek : peek addr.bytes 0 n = some addr.bytes := peek_zero addr.length_eq
  have hpoke : poke data.bytes 0 addr.bytes = some addr.bytes :=
    poke_zero (addr.length_eq.trans data.length_eq.symm)
  simp only [packArray, hpeek, hpoke, Option.bind_eq_bind, Option.bind_some]

/-- An element of one array is packed, and its datum holds the array. -/
lemma packElem_eq {z data : CharArray c} {serOsz : ℕ} :
    packElem [⟨c, data.bytes⟩] [z.bytes] (List.replicate c 0) 0 serOsz =
      some ([⟨c, z.bytes⟩], z.bytes, serOsz + c) := by
  have hpeek : peek z.bytes 0 c = some z.bytes := peek_zero z.length_eq
  have hpoke : poke (List.replicate c 0) 0 z.bytes = some z.bytes :=
    poke_zero (by rw [z.length_eq, List.length_replicate])
  simp only [packElem, packArray_eq, hpeek, hpoke, Option.bind_eq_bind, Option.bind_some]

/-- **A call of `tpl_pack`** stays in the arrays and packs the contents. -/
lemma TplRoot.Packs.pack (h : r.Packs tn) (call : TplPackCall a b c) : ∃ r',
    tplPack r call.addrs call.index = some (call.rc, r') ∧ r'.Packs (call.pack tn) := by
  obtain ⟨z₀, hchildren⟩ := h.children
  cases call with
  | root x y =>
    refine ⟨{ r with children := [.byte ⟨a, x.bytes⟩, .byte ⟨b, y.bytes⟩,
      .ary ⟨[⟨c, z₀.bytes⟩], tn.elems.length % 4294967296, c, tn.elems.map CharArray.bytes,
        tn.elems.length * c⟩] }, ?_, ⟨z₀, rfl⟩, h.fmt, h.fxlens, h.serOsz⟩
    simp [tplPack, TplPackCall.index, TplPackCall.addrs, TplPackCall.rc, hchildren, packRoot,
      packArray_eq]
  | array z =>
    refine ⟨{ r with children := [.byte ⟨a, tn.fst.bytes⟩, .byte ⟨b, tn.snd.bytes⟩,
      .ary ⟨[⟨c, z.bytes⟩], (tn.elems ++ [z]).length % 4294967296, c,
        (tn.elems ++ [z]).map CharArray.bytes, (tn.elems ++ [z]).length * c⟩] }, ?_, ⟨z, rfl⟩,
      h.fmt, h.fxlens, h.serOsz⟩
    have hcount : (tn.elems.length % 4294967296 + 1) % 4294967296 =
        (tn.elems ++ [z]).length % 4294967296 := by
      rw [List.length_append, List.length_singleton]
      omega
    have hsize : tn.elems.length * c + c = (tn.elems ++ [z]).length * c := by
      rw [List.length_append, List.length_singleton, Nat.succ_mul]
    have hpack : TplAry.pack ⟨[⟨c, z₀.bytes⟩], tn.elems.length % 4294967296, c,
        tn.elems.map CharArray.bytes, tn.elems.length * c⟩ [z.bytes] =
        some ⟨[⟨c, z.bytes⟩], (tn.elems ++ [z]).length % 4294967296, c,
          (tn.elems ++ [z]).map CharArray.bytes, (tn.elems ++ [z]).length * c⟩ := by
      simp only [TplAry.pack, packElem_eq, Option.bind_eq_bind, Option.bind_some, hcount, hsize,
        List.map_append, List.map_cons, List.map_nil]
    simp only [tplPack, TplPackCall.index, TplPackCall.addrs, TplPackCall.rc, hchildren, packAry,
      hpack, Option.map_some]
  | invalid i addrs =>
    refine ⟨r, ?_, ⟨z₀, hchildren⟩, h.fmt, h.fxlens, h.serOsz⟩
    obtain ⟨children, fmt, fxlens, serOsz⟩ := r
    dsimp only at hchildren
    subst hchildren
    simp [tplPack, TplPackCall.index, TplPackCall.rc, packAry]

/-- Every sequence of calls stays in the arrays and packs the contents. -/
lemma TplRoot.Packs.packAll (h : r.Packs tn) (calls : List (TplPackCall a b c)) : ∃ r',
    tplPackAll r calls = some (calls.map TplPackCall.rc, r') ∧
      r'.Packs (calls.foldl TplPackCall.pack tn) := by
  induction calls generalizing r tn with
  | nil => exact ⟨r, rfl, h⟩
  | cons call calls ih =>
    obtain ⟨r₁, hpack, h₁⟩ := h.pack call
    obtain ⟨r', hpackAll, h'⟩ := ih h₁
    refine ⟨r', ?_, h'⟩
    simp only [tplPackAll, hpack, hpackAll, Option.bind_eq_bind, Option.bind_some, List.map_cons]

/-- The contents are dumped. -/
lemma TplRoot.Packs.tplDumpMem (h : r.Packs tn) :
    FailureDetector.tplDumpMem r = some ((tplDump tn).map some) := by
  rw [h.sound.tplDumpMem, h.image]

/-- **`tpl_dump` fills its buffer.** Let `tpl_pack` be called any number of times, with any indices
and whatever the mapped arrays contain, and then `tpl_dump`. Then nothing is read or written outside
of an array, although nothing is checked, and a call fails exactly if there is no such node. The
buffer, which has the size that has been added up, is filled from its first byte to its last one
with the image of what has been packed.

**Proof sketch.** A datum is as long as the arrays of an element together, and `tpl_pack` adds as
much to the size as `tpl_dump` writes of the element. -/
theorem tpl_dump_fills (a b c : ℕ) (calls : List (TplPackCall a b c)) : ∃ r,
    tplPackAll (tplMapped a b c).root calls = some (calls.map TplPackCall.rc, r) ∧
      tplDumpMem r = some ((tplDump (calls.foldl TplPackCall.pack (tplMap a b c))).map some) := by
  obtain ⟨r, hpackAll, h⟩ := (packs_root a b c).packAll calls
  exact ⟨r, hpackAll, h.tplDumpMem⟩

/-! ### `serialize_hash` -/

/-- The packing loop of `serialize_hash`. -/
lemma packIpAddressesMem_eq {tn : TplImage a b maxSizeIpAddressString} (h : r.Packs tn)
    (nodes : List NodeStruct) (ipaddress : IpBuffer) : ∃ r',
    packIpAddressesMem nodes ipaddress r = some r' ∧
      r'.Packs (packIpAddresses nodes ipaddress tn) := by
  induction nodes generalizing r tn ipaddress with
  | nil => exact ⟨r, rfl, h⟩
  | cons n ns ih =>
    obtain ⟨r₁, hpack, h₁⟩ := h.pack (.array (ipaddress.set n.ipaddress))
    obtain ⟨r', hloop, h'⟩ := ih h₁ (ipaddress.set n.ipaddress)
    refine ⟨r', ?_, h'⟩
    change tplPack r [(ipaddress.set n.ipaddress).bytes] 1 = some (0, r₁) at hpack
    simp only [packIpAddressesMem, hpack, hloop, Option.bind_eq_bind, Option.bind_some]

/-- `serialize_hash` stays in its arrays and fills the buffer. -/
lemma serializeHashMem_eq (nodes : Option (List NodeStruct)) (currentNodeIp : IpBuffer)
    (uuid : Uuid) (ipaddress : IpBuffer) :
    serializeHashMem nodes currentNodeIp uuid ipaddress =
      some ((serializeHash nodes currentNodeIp uuid ipaddress).1.map (List.map some),
        (serializeHash nodes currentNodeIp uuid ipaddress).2) := by
  rcases nodes with - | (- | ⟨n, ns⟩)
  · rfl
  · rfl
  · obtain ⟨r₁, hpack₁, h₁⟩ :=
      (packs_root zuuidLen maxSizeIpAddressString maxSizeIpAddressString).pack
        (.root uuid currentNodeIp)
    obtain ⟨r₂, hpack₂, h₂⟩ := h₁.pack (.root uuid currentNodeIp)
    obtain ⟨r₃, hloop, h₃⟩ :=
      packIpAddressesMem_eq h₂ (HashTable.sort ipAddressHashSortFunction (n :: ns)) ipaddress
    change tplPack _ [uuid.bytes, currentNodeIp.bytes] 0 = some (0, r₁) at hpack₁
    change tplPack _ [uuid.bytes, currentNodeIp.bytes] 0 = some (0, r₂) at hpack₂
    simp only [serializeHashMem, hpack₁, hpack₂, hloop, h₃.tplDumpMem, Option.bind_eq_bind,
      Option.bind_some]
    rfl

/-- A message has 66 bytes and 16 more for every node. -/
lemma length_serializeHash {nodes : List NodeStruct} {currentNodeIp : IpBuffer} {uuid : Uuid}
    {ipaddress : IpBuffer} {value : Bytes}
    (h : (serializeHash (some nodes) currentNodeIp uuid ipaddress).1 = some value) :
    value.length = 66 + 16 * nodes.length := by
  cases nodes with
  | nil => cases h
  | cons n ns =>
    simp only [serializeHash, Option.some.injEq] at h
    subst h
    have helems := congrArg List.length (packIpAddresses_elems
      (HashTable.sort ipAddressHashSortFunction (n :: ns)) ipaddress
      (tplPackRoot (tplPackRoot (tplMap zuuidLen maxSizeIpAddressString maxSizeIpAddressString)
        uuid currentNodeIp) uuid currentNodeIp))
    rw [List.length_map, List.length_append, List.length_map, List.length_map,
      (HashTable.sort_perm ipAddressHashSortFunction (n :: ns)).length_eq] at helems
    rw [length_tplDump, tplSerOsz, helems]
    simp [tplPackRoot, tplMap, tplFormat, zuuidLen, maxSizeIpAddressString]
    omega

/-- The elements that are packed end in their buffer. -/
lemma zero_mem_packIpAddresses (nodes : List NodeStruct) (ipaddress : IpBuffer)
    {tn : TplImage a b maxSizeIpAddressString} (h : ∀ z ∈ tn.elems, 0 ∈ z.bytes) :
    ∀ z ∈ (packIpAddresses nodes ipaddress tn).elems, 0 ∈ z.bytes := by
  induction nodes generalizing ipaddress tn with
  | nil => exact h
  | cons n ns ih =>
    refine ih _ fun z hz => ?_
    rcases List.mem_append.mp hz with hz | hz
    · exact h z hz
    · obtain rfl := List.mem_singleton.mp hz
      exact zero_mem_strcpy _ _ _

/-- A message loads, and has elements that end in their buffer. -/
lemma exists_tplLoad_serializeHash {nodes : List NodeStruct} {currentNodeIp : IpBuffer}
    {uuid : Uuid} {ipaddress : IpBuffer} {value : Bytes}
    (h : (serializeHash (some nodes) currentNodeIp uuid ipaddress).1 = some value) :
    ∃ tn, tplLoad zuuidLen maxSizeIpAddressString maxSizeIpAddressString value = some tn ∧
      ∀ z ∈ tn.image.elems, 0 ∈ z.bytes := by
  cases nodes with
  | nil => cases h
  | cons n ns =>
    simp only [serializeHash, Option.some.injEq] at h
    subst h
    exact ⟨_, tplLoad_tplDump _,
      zero_mem_packIpAddresses _ _ fun _ hz => absurd hz List.not_mem_nil⟩

/-- **A message makes the way through the memory of both nodes.** A table that is not empty is
serialised without a read or a write outside of an array, into a buffer that is filled. If the table
is small enough for the size of the buffer to be an `int`, then `deserialize_hash` reads nothing
outside of the buffer, and finds the sender's address, the UUID and the membership list of the
table. -/
theorem serializeHashMem_roundtrip (nodes : List NodeStruct) (hne : nodes ≠ [])
    (hlength : nodes.length < 134217724) (currentNodeIp : IpBuffer) (uuid : Uuid)
    (ipaddress : IpBuffer) (result : Zlist CStr) : ∃ value list,
    serializeHashMem (some nodes) currentNodeIp uuid ipaddress =
      some (some (value.map some), some (HashTable.sort ipAddressHashSortFunction nodes), []) ∧
    deserializeHashMem value result =
      some (some (list, currentNodeIp.bytes, uuid.bytes), []) ∧
    list.items = membership nodes ++ result.items := by
  obtain ⟨value, hvalue⟩ := serializeHash_of_ne_nil hne currentNodeIp uuid ipaddress
  have hfst : (serializeHash (some nodes) currentNodeIp uuid ipaddress).1 = some value := by
    rw [hvalue]
  have hsize := length_serializeHash hfst
  have hpos := List.length_pos_iff.mpr hne
  obtain ⟨ns, m, hns, -, hm, huuid, hsender, hitems⟩ :=
    serializeHash_deserializeHash hfst result
  cases hns
  obtain ⟨tn, hload, hzero⟩ := exists_tplLoad_serializeHash hfst
  have hlength' : value.length < 2147483648 := by omega
  have helems : tn.image.elems ≠ [] := by
    intro hnil
    obtain ⟨-, flags, count, -, -, heq⟩ := tplLoad_eq_some hload
    have hlen := congrArg List.length heq
    rw [length_tplImageBytes, tplSerOsz, hnil, hsize] at hlen
    have hempty : 66 + 16 * nodes.length = 66 := hlen
    omega
  refine ⟨value, m.result, ?_, ?_, hitems⟩
  · rw [serializeHashMem_eq, hvalue]
    rfl
  · rw [deserializeHash, hload] at hm
    cases hm
    rw [deserializeHashMem_of_tplLoad hlength' hload,
      if_pos ⟨tplCount_lt hlength' hload helems, hzero⟩, ← hsender, ← huuid]
    rfl

/-- The message of a table with a longer and a shorter address, put before an address that is
already in the list. -/
theorem serializeHashMem_roundtrip_two : ∃ value list,
    serializeHashMem (some [nodeWithIp ⟨readString [49, 48, 48], by decide⟩, nodeWithIp ipTwo])
        (CharArray.zero _) (CharArray.zero _) (CharArray.zero _) =
      some (some (value.map some),
        some [nodeWithIp ⟨readString [49, 48, 48], by decide⟩, nodeWithIp ipTwo], []) ∧
    deserializeHashMem value (Zlist.new.push ipThree.1) =
      some (some (list, List.replicate 16 0, List.replicate 16 0), []) ∧
    list.items = [ipTwo.1, readString [49, 48, 48], ipThree.1] := by
  have hsort : HashTable.sort ipAddressHashSortFunction
      [nodeWithIp ⟨readString [49, 48, 48], by decide⟩, nodeWithIp ipTwo] =
        [nodeWithIp ⟨readString [49, 48, 48], by decide⟩, nodeWithIp ipTwo] :=
    List.mergeSort_of_pairwise (List.pairwise_pair.mpr (by decide))
  obtain ⟨value, list, hserialize, hdeserialize, hitems⟩ := serializeHashMem_roundtrip
    [nodeWithIp ⟨readString [49, 48, 48], by decide⟩, nodeWithIp ipTwo] (List.cons_ne_nil _ _)
    (by decide) (CharArray.zero _) (CharArray.zero _) (CharArray.zero _)
    (Zlist.new.push ipThree.1)
  refine ⟨value, list, ?_, hdeserialize, ?_⟩
  · rw [hserialize, hsort]
  · rw [hitems, membership, hsort]
    rfl

end FailureDetector
