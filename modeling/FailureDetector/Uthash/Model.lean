import FailureDetector.Lib.CString
import FailureDetector.Lib.DoublyLinked

set_option relaxedAutoImplicit false
set_option autoImplicit false

/-!
# Hash tables (`uthash.h`)

The tables of the program are made by the macros of `uthash.h`. A table hangs off its elements:
every element contains a handle with the links of two doubly linked lists, one through all elements
in the order they were added and one through the elements of its bucket.

The handles are modelled field by field, each as a map from elements. A handle and the element
around it are the same here, since each determines the other. All elements of a table share one
`UT_hash_table`, which exists while the head of the table is not `NULL`. Memory does not run out.
Counters and sizes are natural numbers, which the `unsigned` ones of the macros are as long as a
table has fewer than `2 ^ 32` elements and buckets.

A loop is given a bound on its iterations; it is undefined if the bound is not enough.

## Main definitions

* `FailureDetector.UtHashBucket`, `FailureDetector.UtHashTable`, `FailureDetector.UtHashHandles`,
  `FailureDetector.UtHash` — buckets, tables, handles, and a table with the handles of its elements.
* `FailureDetector.hashJen` — `HASH_JEN`, the hash function.
* `FailureDetector.hashFindStr`, `FailureDetector.hashAddStr`, `FailureDetector.hashDelete` —
  `HASH_FIND_STR`, `HASH_ADD_STR` and `HASH_DEL`.
* `FailureDetector.hashDeleteOverwritten` — `HASH_DEL` of an element that has been freed.
* `FailureDetector.hashExpandBuckets` — `HASH_EXPAND_BUCKETS`.
* `FailureDetector.hashSrt` — `HASH_SORT`, a merge sort on the links.
* `FailureDetector.hashIter` — the loop of `HASH_ITER`.
* `FailureDetector.hashFsck` — `HASH_FSCK`, the integrity check.
-/

namespace FailureDetector

open CString DoublyLinked

/-- `UT_hash_bucket`. -/
structure UtHashBucket (ι : Type*) where
  hhHead : Option ι
  count : ℕ
  expandMult : ℕ

/-- A bucket in memory that has been cleared. -/
def UtHashBucket.zero (ι : Type*) : UtHashBucket ι := ⟨none, 0, 0⟩

/-- `UT_hash_table`. -/
structure UtHashTable (ι : Type*) where
  buckets : ℕ → UtHashBucket ι
  numBuckets : ℕ
  log2NumBuckets : ℕ
  numItems : ℕ
  tail : Option ι
  idealChainMaxlen : ℕ
  nonidealItems : ℕ
  ineffExpands : ℕ
  noexpand : Bool

/-- The fields of the `UT_hash_handle`s of all elements. -/
structure UtHashHandles (ι : Type*) where
  /-- `next` and `prev`. -/
  app : Links ι
  /-- `hh_next` and `hh_prev`. -/
  bkt : Links ι
  /-- The string that `key` points to; its length is `keylen`. -/
  key : ι → CStr
  hashv : ι → UInt32

/-- A table: the pointer to its first element, what that element points to, and the handles. -/
@[ext]
structure UtHash (ι : Type*) where
  head : Option ι
  tbl : UtHashTable ι
  hh : UtHashHandles ι

/-- A table with the contents of its elements. -/
structure UtTable (ι δ : Type*) extends UtHash ι where
  data : ι → δ

/-- A table before its first element has been added. It does not depend on what the memory of its
elements contains. -/
def UtTable.empty {ι δ : Type*} (tbl : UtHashTable ι) (data : ι → δ) : UtTable ι δ where
  head := none
  tbl := tbl
  hh := ⟨⟨fun _ => none, fun _ => none⟩, ⟨fun _ => none, fun _ => none⟩, fun _ => [], fun _ => 0⟩
  data := data

/-- The fields of a handle that `HASH_DELETE_HH` reads. -/
structure UtHashHandle (ι : Type*) where
  /-- The table that `tbl` points to. -/
  tbl : UtHashTable ι
  prev : Option ι
  next : Option ι
  hhPrev : Option ι
  hhNext : Option ι
  hashv : UInt32

/-- The handle of an element of the table. -/
def UtHash.handle {ι : Type*} (h : UtHash ι) (x : ι) : UtHashHandle ι where
  tbl := h.tbl
  prev := h.hh.app.prev x
  next := h.hh.app.next x
  hhPrev := h.hh.bkt.prev x
  hhNext := h.hh.bkt.next x
  hashv := h.hh.hashv x

/-- `HASH_INITIAL_NUM_BUCKETS`. -/
def hashInitialNumBuckets : ℕ := 32

/-- `HASH_INITIAL_NUM_BUCKETS_LOG2`. -/
def hashInitialNumBucketsLog2 : ℕ := 5

/-- `HASH_BKT_CAPACITY_THRESH`. -/
def hashBktCapacityThresh : ℕ := 10

/-! ### The hash function -/

/-- `HASH_JEN_MIX`. -/
def hashJenMix (a b c : UInt32) : UInt32 × UInt32 × UInt32 :=
  let a := (a - b - c) ^^^ (c >>> 13)
  let b := (b - c - a) ^^^ (a <<< 8)
  let c := (c - a - b) ^^^ (b >>> 13)
  let a := (a - b - c) ^^^ (c >>> 12)
  let b := (b - c - a) ^^^ (a <<< 16)
  let c := (c - a - b) ^^^ (b >>> 5)
  let a := (a - b - c) ^^^ (c >>> 3)
  let b := (b - c - a) ^^^ (a <<< 10)
  let c := (c - a - b) ^^^ (b >>> 15)
  (a, b, c)

/-- Four bytes of a key from position `n` on, the lowest first. Bytes behind the key count as
zero. -/
def hashJenWord (key : List UInt8) (n : ℕ) : UInt32 :=
  (key.getD n 0).toUInt32 + ((key.getD (n + 1) 0).toUInt32 <<< 8) +
    ((key.getD (n + 2) 0).toUInt32 <<< 16) + ((key.getD (n + 3) 0).toUInt32 <<< 24)

/-- The loop of `HASH_JEN` over the full blocks of 12 bytes, and its `switch` over the rest. The
cases of the `switch` fall through, from the last byte down to the first. -/
def hashJenLoop (keylen : UInt32) : ℕ → List UInt8 → UInt32 → UInt32 → UInt32 → UInt32
  | blocks + 1, key, i, j, hashv =>
    let (i, j, hashv) := hashJenMix (i + hashJenWord key 0) (j + hashJenWord key 4)
      (hashv + hashJenWord key 8)
    hashJenLoop keylen blocks (key.drop 12) i j hashv
  | 0, key, i, j, hashv =>
    let hashv := hashv + keylen + ((key.getD 8 0).toUInt32 <<< 8) +
      ((key.getD 9 0).toUInt32 <<< 16) + ((key.getD 10 0).toUInt32 <<< 24)
    (hashJenMix (i + hashJenWord key 0) (j + hashJenWord key 4) hashv).2.2

/-- `HASH_JEN` of a string. -/
def hashJen (s : CStr) : UInt32 :=
  let key := stringBytes s
  hashJenLoop key.length.toUInt32 (key.length / 12) key 0x9e3779b9 0x9e3779b9 0xfeedbeef

/-- `HASH_TO_BKT`. -/
def hashToBkt (hashv : UInt32) (numBkts : ℕ) : ℕ := hashv.toNat &&& (numBkts - 1)

variable {ι : Type*} [DecidableEq ι]

/-! ### Lookups -/

omit [DecidableEq ι] in
/-- `HASH_FIND_IN_BKT`. -/
def hashFindInBkt (hh : UtHashHandles ι) (keyptr : CStr) (hashval : UInt32) (fuel : ℕ)
    (bucket : UtHashBucket ι) : Option (Option ι) :=
  search hh.bkt.next (fun out => hh.hashv out = hashval ∧ (hh.key out).length = keyptr.length ∧
    hh.key out = keyptr) fuel bucket.hhHead

omit [DecidableEq ι] in
/-- `HASH_FIND_BYHASHVALUE`. -/
def hashFindByhashvalue (h : UtHash ι) (keyptr : CStr) (hashval : UInt32) : Option (Option ι) :=
  match h.head with
  | none => some none
  | some _ =>
    hashFindInBkt h.hh keyptr hashval h.tbl.numItems
      (h.tbl.buckets (hashToBkt hashval h.tbl.numBuckets))

omit [DecidableEq ι] in
/-- `HASH_FIND_STR`. -/
def hashFindStr (hashFcn : CStr → UInt32) (h : UtHash ι) (findstr : CStr) : Option (Option ι) :=
  hashFindByhashvalue h findstr (hashFcn findstr)

/-! ### Expansion -/

/-- What `HASH_EXPAND_BUCKETS` writes while it moves elements. -/
structure Expansion (ι : Type*) where
  newBuckets : ℕ → UtHashBucket ι
  nonidealItems : ℕ
  bkt : Links ι

/-- The body of the inner loop of `HASH_EXPAND_BUCKETS`: move one element to its new bucket. -/
def expandItem (hashv : ι → UInt32) (numBuckets idealChainMaxlen : ℕ) (e : Expansion ι) (thh : ι) :
    Expansion ι :=
  let bkt := hashToBkt (hashv thh) numBuckets
  let newbkt := e.newBuckets bkt
  let count := newbkt.count + 1
  let nonideal := decide (count > idealChainMaxlen)
  { newBuckets := Function.update e.newBuckets bkt
      { hhHead := some thh
        count := count
        expandMult := if nonideal then count / idealChainMaxlen else newbkt.expandMult }
    nonidealItems := if nonideal then e.nonidealItems + 1 else e.nonidealItems
    bkt := e.bkt.pushFront newbkt.hhHead thh }

/-- The inner loop of `HASH_EXPAND_BUCKETS`, over the elements of an old bucket. -/
def expandChain (hashv : ι → UInt32) (numBuckets idealChainMaxlen : ℕ) :
    ℕ → Option ι → Expansion ι → Option (Expansion ι)
  | _, none, e => some e
  | 0, some _, _ => none
  | fuel + 1, some thh, e =>
    let nxt := e.bkt.next thh
    expandChain hashv numBuckets idealChainMaxlen fuel nxt
      (expandItem hashv numBuckets idealChainMaxlen e thh)

/-- `HASH_EXPAND_BUCKETS`. -/
def hashExpandBuckets (tbl : UtHashTable ι) (hh : UtHashHandles ι) :
    Option (UtHashTable ι × UtHashHandles ι) :=
  let idealChainMaxlen := (tbl.numItems >>> (tbl.log2NumBuckets + 1)) +
    if tbl.numItems &&& (tbl.numBuckets * 2 - 1) ≠ 0 then 1 else 0
  let start : Expansion ι := ⟨fun _ => UtHashBucket.zero ι, 0, hh.bkt⟩
  ((List.range tbl.numBuckets).foldlM (fun e i =>
    expandChain hh.hashv (tbl.numBuckets * 2) idealChainMaxlen tbl.numItems
      (tbl.buckets i).hhHead e) start).map fun e =>
    let ineffExpands :=
      if e.nonidealItems > tbl.numItems >>> 1 then tbl.ineffExpands + 1 else 0
    ({ tbl with
        buckets := e.newBuckets
        numBuckets := tbl.numBuckets * 2
        log2NumBuckets := tbl.log2NumBuckets + 1
        idealChainMaxlen := idealChainMaxlen
        nonidealItems := e.nonidealItems
        ineffExpands := ineffExpands
        noexpand := if ineffExpands > 1 then true else tbl.noexpand }, { hh with bkt := e.bkt })

/-! ### Adding and deleting elements -/

/-- The part of `HASH_ADD_TO_BKT` before the buckets may be expanded. -/
def hashLinkInBkt (tbl : UtHashTable ι) (hh : UtHashHandles ι) (bkt : ℕ) (addhh : ι) :
    UtHashTable ι × UtHashHandles ι :=
  let bucket := tbl.buckets bkt
  let linked := { bucket with hhHead := some addhh, count := bucket.count + 1 }
  ({ tbl with buckets := Function.update tbl.buckets bkt linked },
    { hh with bkt := hh.bkt.pushFront bucket.hhHead addhh })

/-- `HASH_ADD_TO_BKT`. -/
def hashAddToBkt (tbl : UtHashTable ι) (hh : UtHashHandles ι) (bkt : ℕ) (addhh : ι) :
    Option (UtHashTable ι × UtHashHandles ι) :=
  let (tbl, hh) := hashLinkInBkt tbl hh bkt addhh
  if (tbl.buckets bkt).count ≥ ((tbl.buckets bkt).expandMult + 1) * hashBktCapacityThresh ∧
      tbl.noexpand = false then
    hashExpandBuckets tbl hh
  else some (tbl, hh)

/-- `HASH_ADD_TO_TABLE`. -/
def hashAddToTable (h : UtHash ι) (hashval : UInt32) (add : ι) : Option (UtHash ι) :=
  let tbl := { h.tbl with numItems := h.tbl.numItems + 1 }
  (hashAddToBkt tbl h.hh (hashToBkt hashval tbl.numBuckets) add).map fun (tbl, hh) =>
    ⟨h.head, tbl, hh⟩

omit [DecidableEq ι] in
/-- `HASH_MAKE_TABLE`. -/
def hashMakeTable (head : ι) : UtHashTable ι where
  buckets := fun _ => UtHashBucket.zero ι
  numBuckets := hashInitialNumBuckets
  log2NumBuckets := hashInitialNumBucketsLog2
  numItems := 0
  tail := some head
  idealChainMaxlen := 0
  nonidealItems := 0
  ineffExpands := 0
  noexpand := false

/-- `HASH_APPEND_LIST`. -/
def hashAppendList (h : UtHash ι) (add : ι) : UtHash ι where
  head := h.head
  tbl := { h.tbl with tail := some add }
  hh := { h.hh with app := h.hh.app.pushBack h.tbl.tail add }

/-- `HASH_ADD_KEYPTR_BYHASHVALUE`. -/
def hashAddKeyptrByhashvalue (h : UtHash ι) (keyptr : CStr) (hashval : UInt32) (add : ι) :
    Option (UtHash ι) :=
  let h := { h with hh := { h.hh with
    hashv := Function.update h.hh.hashv add hashval
    key := Function.update h.hh.key add keyptr } }
  let h := match h.head with
    | none =>
      { head := some add
        tbl := hashMakeTable add
        hh := { h.hh with app :=
          ⟨Function.update h.hh.app.next add none, Function.update h.hh.app.prev add none⟩ } }
    | some _ => hashAppendList h add
  hashAddToTable h hashval add

/-- `HASH_ADD_STR`, for an element with the key `str`. -/
def hashAddStr (hashFcn : CStr → UInt32) (h : UtHash ι) (str : CStr) (add : ι) :
    Option (UtHash ι) :=
  hashAddKeyptrByhashvalue h str (hashFcn str) add

/-- `HASH_DEL_IN_BKT`. -/
def hashDelInBkt (tbl : UtHashTable ι) (hh : UtHashHandles ι) (bkt : ℕ) (delhh : ι) :
    UtHashTable ι × UtHashHandles ι :=
  let bucket := tbl.buckets bkt
  let unlinked := { bucket with
    count := bucket.count - 1
    hhHead := if bucket.hhHead = some delhh then hh.bkt.next delhh else bucket.hhHead }
  ({ tbl with buckets := Function.update tbl.buckets bkt unlinked },
    { hh with bkt := hh.bkt.unlink delhh })

/-- `HASH_DELETE_HH`. The last element takes the table with it. -/
def hashDelete (h : UtHash ι) (del : ι) : UtHash ι :=
  let prev := h.hh.app.prev del
  let next := h.hh.app.next del
  if prev = none ∧ next = none then { h with head := none }
  else
    let tail := if h.tbl.tail = some del then prev else h.tbl.tail
    let head := if prev = none then next else h.head
    let hh := { h.hh with app := h.hh.app.unlink del }
    let (tbl, hh) := hashDelInBkt { h.tbl with tail := tail } hh
      (hashToBkt (hh.hashv del) h.tbl.numBuckets) del
    ⟨head, { tbl with numItems := tbl.numItems - 1 }, hh⟩

/-- The memory of an element is overwritten, but for its key. -/
def UtHashHandles.overwrite (hh : UtHashHandles ι) (x : ι) (handle : UtHashHandle ι) :
    UtHashHandles ι where
  app := ⟨Function.update hh.app.next x handle.next, Function.update hh.app.prev x handle.prev⟩
  bkt := ⟨Function.update hh.bkt.next x handle.hhNext, Function.update hh.bkt.prev x handle.hhPrev⟩
  key := hh.key
  hashv := Function.update hh.hashv x handle.hashv

/-- `HASH_DELETE_HH` for an element whose memory has been overwritten. The links are those that are
read there, and so is the table if the element is the head once that may have been moved on. -/
def hashDeleteOverwritten (h : UtHash ι) (del : ι) (handle : UtHashHandle ι) : UtHash ι :=
  let head := if handle.prev = none then handle.next else h.head
  hashDelete
    { head := h.head
      tbl := if head = some del then handle.tbl else h.tbl
      hh := h.hh.overwrite del handle }
    del

/-! ### Sorting -/

/-- The variables of `HASH_SRT`, with the links it writes. -/
structure SortState (ι : Type*) where
  app : Links ι
  p : Option ι
  q : Option ι
  psize : ℕ
  qsize : ℕ
  list : Option ι
  tail : Option ι

omit [DecidableEq ι] in
/-- Take the next element from the run at `q`. -/
def SortState.takeQ (s : SortState ι) : SortState ι :=
  { s with q := s.q.bind s.app.next, qsize := s.qsize - 1 }

omit [DecidableEq ι] in
/-- Take the next element from the run at `p`. -/
def SortState.takeP (s : SortState ι) : SortState ι :=
  { s with p := s.p.bind s.app.next, psize := s.psize - 1 }

/-- Link the element `e` behind the elements merged so far. -/
def SortState.emit (s : SortState ι) (e : Option ι) : SortState ι :=
  let s := match s.tail with
    | some t => { s with app := { s.app with next := Function.update s.app.next t e } }
    | none => { s with list := e }
  let s := { s with app := { s.app with prev := write s.app.prev e s.tail } }
  { s with tail := e }

/-- The body of the merging loop of `HASH_SRT`. -/
def sortStep (cmpfcn : ι → ι → ℤ) (s : SortState ι) : SortState ι :=
  if s.psize = 0 then s.takeQ.emit s.q
  else if s.qsize = 0 then s.takeP.emit s.p
  else match s.p, s.q with
    | _, none => s.takeP.emit s.p
    | none, some _ => s.takeP.emit none
    | some p, some q => if cmpfcn p q ≤ 0 then s.takeP.emit p else s.takeQ.emit q

/-- The merging loop of `HASH_SRT`. -/
def sortMerge (cmpfcn : ι → ι → ℤ) : ℕ → SortState ι → Option (SortState ι)
  | fuel, s =>
    if s.psize ≠ 0 ∨ (s.qsize ≠ 0 ∧ s.q ≠ none) then
      match fuel with
      | 0 => none
      | fuel + 1 => sortMerge cmpfcn fuel (sortStep cmpfcn s)
    else some s

omit [DecidableEq ι] in
/-- The loop of `HASH_SRT` that moves `q` behind the run at `p`, for at most the given number of
elements: the size of the run, and `q`. -/
def sortSkip (next : ι → Option ι) : ℕ → Option ι → ℕ → ℕ × Option ι
  | 0, q, psize => (psize, q)
  | insize + 1, q, psize =>
    match q.bind next with
    | none => (psize + 1, none)
    | some q => sortSkip next insize (some q) (psize + 1)

/-- The loop over the pairs of runs in a pass of `HASH_SRT`, with the number of merges. -/
def sortPass (cmpfcn : ι → ι → ℤ) (insize : ℕ) : ℕ → SortState ι → ℕ → Option (SortState ι × ℕ)
  | fuel, s, nmerges =>
    match s.p with
    | none => some (s, nmerges)
    | some p =>
      match fuel with
      | 0 => none
      | fuel + 1 =>
        let (psize, q) := sortSkip s.app.next insize (some p) 0
        (sortMerge cmpfcn (psize + insize) { s with q := q, psize := psize, qsize := insize }).bind
          fun s => sortPass cmpfcn insize fuel { s with p := s.q } (nmerges + 1)

/-- The passes of `HASH_SRT`, in runs of `insize` elements at first: the links, and the first and
the last element. -/
def sortLoop (cmpfcn : ι → ι → ℤ) (numItems : ℕ) :
    ℕ → ℕ → Links ι → Option ι → Option (Links ι × Option ι × Option ι)
  | 0, _, _, _ => none
  | fuel + 1, insize, app, list =>
    (sortPass cmpfcn insize numItems ⟨app, list, none, 0, 0, none, none⟩ 0).bind
      fun (s, nmerges) =>
        let app := { s.app with next := write s.app.next s.tail none }
        if nmerges ≤ 1 then some (app, s.list, s.tail)
        else sortLoop cmpfcn numItems fuel (insize * 2) app s.list

/-- `HASH_SRT`. -/
def hashSrt (cmpfcn : ι → ι → ℤ) (h : UtHash ι) : Option (UtHash ι) :=
  match h.head with
  | none => some h
  | some _ =>
    (sortLoop cmpfcn h.tbl.numItems (h.tbl.numItems + 1) 1 h.hh.app h.head).map
      fun (app, list, tail) =>
        ⟨list, { h.tbl with tail := tail }, { h.hh with app := app }⟩

/-! ### Iteration and the integrity check -/

omit [DecidableEq ι] in
/-- The loop of `HASH_ITER` with the given body, from the element `el` on. The next element is read
before the body is run. -/
def hashIterLoop {σ : Type*} (hh : σ → UtHashHandles ι) (body : σ → ι → Option σ) :
    ℕ → Option ι → Option ι → σ → Option σ
  | _, none, _, s => some s
  | 0, some _, _, _ => none
  | fuel + 1, some el, tmp, s =>
    (body s el).bind fun s => hashIterLoop hh body fuel tmp (tmp.bind (hh s).app.next) s

omit [DecidableEq ι] in
/-- `HASH_ITER` over the table `h` with the given body, which may be undefined. -/
def hashIter {σ : Type*} (table : σ → UtHash ι) (body : σ → ι → Option σ) (s : σ) : Option σ :=
  let h := table s
  hashIterLoop (fun s => (table s).hh) body h.tbl.numItems h.head (h.head.bind h.hh.app.next) s

/-- A loop of `HASH_FSCK` over a list: the number of elements, if every one is linked to the one
before it. -/
def fsckList (links : Links ι) : ℕ → Option ι → Option ι → ℕ → Option ℕ
  | _, _, none, count => some count
  | 0, _, some _, _ => none
  | fuel + 1, prev, some thh, count =>
    if prev ≠ links.prev thh then none
    else fsckList links fuel (some thh) (links.next thh) (count + 1)

/-- The loop of `HASH_FSCK` over the buckets: the number of elements, if every bucket is sound. -/
def fsckBuckets (h : UtHash ι) : Option ℕ :=
  (List.range h.tbl.numBuckets).foldlM (fun count i =>
    (fsckList h.hh.bkt h.tbl.numItems none (h.tbl.buckets i).hhHead 0).bind fun bktCount =>
      if (h.tbl.buckets i).count ≠ bktCount then none else some (count + bktCount)) 0

/-- `HASH_FSCK`: whether none of its tests fails. -/
def hashFsck (h : UtHash ι) : Bool :=
  match h.head with
  | none => true
  | some _ => fsckBuckets h = some h.tbl.numItems ∧
    fsckList h.hh.app h.tbl.numItems none h.head 0 = some h.tbl.numItems

end FailureDetector
