import FailureDetector.Detector.Expiry
import FailureDetector.Lib.Printf
import FailureDetector.Uthash.Refinement

set_option relaxedAutoImplicit false
set_option autoImplicit false

/-!
# The nodes table in memory

The nodes table of the detector is a list of nodes in the model of the program, and a table of
`uthash.h` in the program. The detector changes it through the macros only, by operations that are
read off its functions. So in every run of the two threads there is a table in memory that holds the
nodes: no loop of a macro runs on, the integrity check of `uthash.h` accepts the table, and every
lookup finds what it finds in the list.

## Main definitions

* `FailureDetector.submitOps`, `FailureDetector.heartbeatOps`, `FailureDetector.handleTimeoutOps` —
  the operations on the nodes table of `paxos_serialize_and_submit`, of the receive loop and of
  `handle_timeout`.
* `FailureDetector.Threads.tableOps`, `FailureDetector.Threads.runOps` — those of a step and of a
  run.
* `FailureDetector.applyTable` — what operations do to the table in memory;
  `FailureDetector.AllocatesNodes` — nodes are allocated in memory that is not in use.
* `FailureDetector.cleanUpNodes` — `clean_up_hashmap` on the table in memory, where a node that has
  been freed may be overwritten at once.

## Main results

* `FailureDetector.Threads.nodes_step` — what a step does to the table is what its operations do.
* `FailureDetector.nodes_in_memory` — the table in memory, after every run.
* `FailureDetector.nodes_chains_bounded` — its buckets stay short.
* `FailureDetector.cleanUpHashmap_frees_iff` — `clean_up_hashmap` frees every node once and leaves
  no table, unless it follows the pointer that `init_nodes_struct` does not set.
-/

namespace FailureDetector

open CString Runs

/-- An operation on the nodes table. -/
abbrev NodesOp := TableOp ℕ NodeStruct.ipaddress

/-- What operations do to the list of nodes. -/
def applyNodes (nodes : List NodeStruct) (ops : List NodesOp) : List NodeStruct :=
  ops.foldl (fun nodes op => op.apply ipAddressHashSortFunction nodes) nodes

/-- An operation on the table in memory. -/
def tableStep : UtTable ℕ NodeStruct → NodesOp → Option (UtTable ℕ NodeStruct) :=
  UtTable.apply hashJen Subtype.val ipAddressHashSortFunction

/-- What operations do to the table in memory. -/
def applyTable (table : UtTable ℕ NodeStruct) (ops : List NodesOp) :
    Option (UtTable ℕ NodeStruct) :=
  run tableStep table ops

/-- The memory that is allocated for nodes is not in use in the table. -/
def AllocatesNodes (table : UtTable ℕ NodeStruct) (ops : List NodesOp) : Prop :=
  Along tableStep TableOp.Fresh table ops

/-! ### The operations of the program -/

/-- The operations of `init_nodes_struct`, with the address of the new node. -/
def initNodesOps (node : ℕ) (hostname : IpString) (unset : NodeStruct) : List NodesOp :=
  [.add node { unset with ipaddress := hostname }]

/-- The operations of `paxos_serialize_and_submit`, which sorts the table for the list of members
and again for the message. -/
def submitOps (env : PaxosEnv) : List NodesOp :=
  if env.lock .detectedStatesHashmapLock = false then [] else [.sort, .sort]

/-- The operations of the part of the receive loop under `hashmap_lock`. -/
def heartbeatOps (env : DetectorEnv) (d : Detector) (ip : IpString) : List NodesOp :=
  match HashTable.find NodeStruct.ipaddress d.nodes ip with
  | none =>
    let (_, timerId) := startTimer env.toTimerEnv d.timers (heartbeatTimeout env d ip)
      .timerSingleShot ip
    .add env.node ⟨ip, env.currentTimeMs, timerId, heartbeatMetadata env d ip⟩ ::
      submitOps env.toPaxosEnv
  | some node =>
    match stopTimer d.timers node.timerId with
    | none => []
    | some timers =>
      let (_, timerId) := startTimer env.toTimerEnv timers (heartbeatTimeout env d ip)
        .timerSingleShot ip
      [.update ip (fun n => ⟨n.ipaddress, env.currentTimeMs, timerId, heartbeatMetadata env d ip⟩)
        fun _ => rfl]

/-- The operations of `handle_timeout`. -/
def handleTimeoutOps (env : DetectorEnv) (d : Detector) (ip : IpString) : List NodesOp :=
  if env.lock .hashmapLock = false then []
  else
    match HashTable.find NodeStruct.ipaddress d.nodes ip with
    | none => []
    | some _ => .remove ip :: submitOps env.toPaxosEnv

/-- The operations of an iteration of the receive loop. -/
def receiveOps (env : DetectorEnv) (d : Detector) : Received → List NodesOp
  | .failure => []
  | .beacon ip _ =>
    if d.hostname = ip then [] else if env.lock .hashmapLock = false then []
    else heartbeatOps env d ip

/-- `serialize_hash` sorts the table. -/
lemma serializeHash_nodes (nodes : List NodeStruct) (currentNodeIp : IpBuffer) (uuid : Uuid)
    (ipaddress : IpBuffer) : (serializeHash (some nodes) currentNodeIp uuid ipaddress).2.1 =
      some (HashTable.sort ipAddressHashSortFunction nodes) := by
  cases nodes with
  | nil => simp [serializeHash, HashTable.sort]
  | cons n ns => rfl

/-- `paxos_serialize_and_submit` sorts the table twice. -/
lemma submit_nodes (env : PaxosEnv) (replica : FdReplica) (nodes : List NodeStruct) :
    (paxosSerializeAndSubmit env replica (some nodes)).2.1.getD nodes =
      applyNodes nodes (submitOps env) := by
  rw [paxosSerializeAndSubmit, paxosSerializeAndSubmitWith, submitOps]
  by_cases hlock : env.lock .detectedStatesHashmapLock = false
  · simp only [hlock, if_true]
    rfl
  · have hsorted := serializeHash_nodes (HashTable.sort ipAddressHashSortFunction nodes)
      replica.currentNodeIp env.uuid env.ipaddress
    simp only [if_neg hlock, getMembershipGroupFromHash]
    split
    · next nodes' _ hmessage =>
      rw [hmessage] at hsorted
      exact congrArg (Option.getD · nodes) hsorted
    · next value nodes' _ hmessage =>
      rw [hmessage] at hsorted
      exact congrArg (Option.getD · nodes) hsorted

/-- What a heartbeat does to the table. -/
lemma heartbeat_nodes {env : DetectorEnv} {d d' : Detector} {ip : IpString} {events : List Event}
    (h : heartbeat env d ip = some (d', events)) :
    d'.nodes = applyNodes d.nodes (heartbeatOps env d ip) := by
  rw [heartbeat] at h
  rw [heartbeatOps, heartbeatTimeout, heartbeatMetadata]
  cases hfind : HashTable.find NodeStruct.ipaddress d.nodes ip with
  | none =>
    have hnew : ip ∉ ipKeys d.nodes := (HashTable.find_eq_none _).mp hfind
    rw [hfind, Option.some.injEq, Prod.mk.injEq] at h
    rw [← h.1]
    dsimp only
    rw [submit_nodes, applyNodes, applyNodes, List.foldl_cons, TableOp.apply, if_neg hnew]
  | some node =>
    rw [hfind] at h
    obtain ⟨timers, hstop, h⟩ := Option.bind_eq_some_iff.mp h
    obtain ⟨rfl, -⟩ := Prod.mk.inj (Option.some.inj h)
    simp only [hstop]
    rfl

/-- What `handle_timeout` does to the table. -/
lemma handleTimeout_nodes (env : DetectorEnv) (d : Detector) (timerId : ℕ) (ip : IpString) :
    (handleTimeout env d timerId ip).1.nodes = applyNodes d.nodes (handleTimeoutOps env d ip) := by
  rw [handleTimeout, handleTimeoutOps]
  by_cases hlock : env.lock .hashmapLock = false
  · rw [if_pos hlock, if_pos hlock]
    rfl
  · rw [if_neg hlock, if_neg hlock]
    cases hfind : HashTable.find NodeStruct.ipaddress d.nodes ip with
    | none => rfl
    | some node =>
      have hmem := HashTable.mem_keys_of_find _ hfind
      dsimp only
      rw [submit_nodes, applyNodes, applyNodes, List.foldl_cons, TableOp.apply, if_pos hmem]

/-- What an iteration of the receive loop does to the table. -/
lemma receive_nodes {env : DetectorEnv} {d d' : Detector} {input : Received} {events : List Event}
    (h : receive env d input = some (d', events)) :
    d'.nodes = applyNodes d.nodes (receiveOps env d input) := by
  cases input with
  | failure =>
    obtain ⟨rfl, -⟩ := Prod.mk.inj (Option.some.inj h)
    rfl
  | beacon ip received =>
    rw [receive] at h
    rw [receiveOps]
    split at h
    · next hown =>
      obtain ⟨rfl, -⟩ := Prod.mk.inj (Option.some.inj h)
      rw [if_pos hown]
      rfl
    · next hown =>
      rw [if_neg hown]
      split at h
      · next hlock =>
        obtain ⟨rfl, -⟩ := Prod.mk.inj (Option.some.inj h)
        rw [if_pos hlock]
        rfl
      · next hlock =>
        obtain ⟨⟨d₁, events₁⟩, hheartbeat, h⟩ := Option.bind_eq_some_iff.mp h
        obtain ⟨silenced, heq⟩ := orchestrate_eq d₁ received
        simp only [Option.some.injEq, Prod.mk.injEq] at h
        rw [if_neg hlock, ← h.1, heq]
        have hnodes := heartbeat_nodes hheartbeat
        exact hnodes

namespace Threads

/-- The operations of a step of one of the threads. -/
def tableOps (s : Threads) : ThreadAction → List NodesOp
  | .receive env input => receiveOps env s.detector input
  | .pickUp _ => []
  | .callback env =>
    match s.pending with
    | none => []
    | some (_, ip) => handleTimeoutOps env s.detector ip

/-- The operations of a run. -/
def runOps (s : Threads) : List ThreadAction → List NodesOp
  | [] => []
  | a :: actions => s.tableOps a ++ ((s.step a).map fun s' => runOps s' actions).getD []

/-- **What a step does to the table** is what its operations do. -/
lemma nodes_step {s s' : Threads} {a : ThreadAction} (hstep : s.step a = some s') :
    s'.detector.nodes = applyNodes s.detector.nodes (s.tableOps a) := by
  cases a with
  | receive env input =>
    obtain ⟨history, hhistory, rfl⟩ := Option.map_eq_some_iff.mp hstep
    rw [History.step] at hhistory
    split at hhistory
    · obtain ⟨⟨d', events⟩, hreceive, rfl⟩ := Option.map_eq_some_iff.mp hhistory
      exact receive_nodes hreceive
    · cases hhistory
  | pickUp fd =>
    rw [step] at hstep
    split at hstep
    · cases hstep
    · obtain ⟨⟨timers, found⟩, -, rfl⟩ := Option.map_eq_some_iff.mp hstep
      rfl
  | callback env =>
    obtain ⟨⟨timerId, ip⟩, hpending, rfl⟩ := Option.map_eq_some_iff.mp hstep
    rw [tableOps, hpending]
    exact handleTimeout_nodes env s.detector timerId ip

/-- What a run does to the table is what its operations do. -/
lemma nodes_run {s s' : Threads} {actions : List ThreadAction}
    (hrun : run step s actions = some s') :
    s'.detector.nodes = applyNodes s.detector.nodes (s.runOps actions) := by
  induction actions generalizing s with
  | nil =>
    cases hrun
    rfl
  | cons a actions ih =>
    obtain ⟨t, hstep, hrun⟩ := run_cons_eq_some.mp hrun
    rw [runOps, hstep, ih hrun, nodes_step hstep]
    exact (List.foldl_append ..).symm

end Threads

/-! ### The table in memory -/

/-- `ip_address_hash_sort_function` orders nodes. -/
lemma orders_ipAddressHashSortFunction : Orders ipAddressHashSortFunction :=
  ⟨fun _ _ _ => strcmp_trans, fun _ _ => strcmp_total _ _⟩

/-- Operations on the table in memory refine those on the list of nodes. -/
lemma represents_applyTable {table : UtTable ℕ NodeStruct} (hhead : table.head = none)
    {ops : List NodesOp} (hmalloc : AllocatesNodes table ops) :
    ∃ table', applyTable table ops = some table' ∧
      table'.Represents hashJen NodeStruct.ipaddress Subtype.val (applyNodes [] ops) :=
  (UtTable.represents_nil hhead).applyAll Subtype.val_injective orders_ipAddressHashSortFunction
    hmalloc

/-- The operations since the program has been started lead to the nodes. -/
lemma applyNodes_start {hostname : IpString} {unset : NodeStruct} {currentNodeIp : IpBuffer}
    (node : ℕ) {lastLogged : ℚ} {actions : List ThreadAction} {s : Threads}
    (hrun : run Threads.step (Threads.start hostname unset currentNodeIp lastLogged) actions =
      some s) :
    applyNodes [] (initNodesOps node hostname unset ++
      (Threads.start hostname unset currentNodeIp lastLogged).runOps actions) =
        s.detector.nodes := by
  rw [Threads.nodes_run hrun, applyNodes, List.foldl_append]
  rfl

/-- **The nodes table in memory.** After every run of the two threads, if the memory that is
allocated for a node is not in use, the operations that the program has made on its table have all
ended, the integrity check of `uthash.h` accepts the table, its elements hold the nodes in their
order, and a lookup finds what it finds in the list. -/
theorem nodes_in_memory (table : UtTable ℕ NodeStruct) (hhead : table.head = none)
    (node : ℕ) (hostname : IpString) (unset : NodeStruct) (currentNodeIp : IpBuffer)
    (lastLogged : ℚ) (actions : List ThreadAction) (s : Threads)
    (hrun : run Threads.step (Threads.start hostname unset currentNodeIp lastLogged) actions =
      some s)
    (hmalloc : AllocatesNodes table (initNodesOps node hostname unset ++
      (Threads.start hostname unset currentNodeIp lastLogged).runOps actions)) :
    ∃ table', applyTable table (initNodesOps node hostname unset ++
        (Threads.start hostname unset currentNodeIp lastLogged).runOps actions) = some table' ∧
      hashFsck table'.toUtHash = true ∧
      table'.elements.map table'.data = s.detector.nodes ∧
      ∀ ip : IpString, ∃ found, hashFindStr hashJen table'.toUtHash ip.1 = some found ∧
        found.map table'.data = HashTable.find NodeStruct.ipaddress s.detector.nodes ip := by
  obtain ⟨table', heq, hrep⟩ := represents_applyTable hhead hmalloc
  rw [applyNodes_start node hrun] at hrep
  refine ⟨table', heq, hrep.fsck, ?_, fun ip => hrep.find Subtype.val_injective ip⟩
  obtain ⟨elems, helems, hnodes, -⟩ := hrep.elems
  rw [helems.elements_eq, hnodes]

/-- A table before its first node has been added. -/
abbrev noNodes : UtTable ℕ NodeStruct := UtTable.empty (hashMakeTable 0) fun _ => nodeWithIp ipOne

/-- Nodes that are added at addresses of their own are in memory that is not in use. -/
lemma allocatesNodes_of_nodup {ops : List NodesOp}
    (hnodup : (ops.filterMap TableOp.address).Nodup) : AllocatesNodes noNodes ops := by
  have hrep : noNodes.Represents hashJen NodeStruct.ipaddress Subtype.val [] :=
    UtTable.represents_nil rfl
  refine hrep.along_fresh Subtype.val_injective orders_ipAddressHashSortFunction hnodup ?_
  exact fun x _ => List.not_mem_nil

/-- A node that hears from another one adds it, at an address of its own. -/
lemma allocatesNodes_two (fd : ℕ) :
    AllocatesNodes noNodes (initNodesOps 0 ipOne (nodeWithIp ⟨[], by decide⟩) ++
      (Threads.start ipOne (nodeWithIp ⟨[], by decide⟩) (CharArray.zero _) 0).runOps
        [.receive quietDetectorEnv (.beacon ipTwo []), .pickUp fd]) := by
  set s := Threads.start ipOne (nodeWithIp ⟨[], by decide⟩) (CharArray.zero _) 0 with hs
  have hpickUp : ∀ t : Threads, t.runOps [.pickUp fd] = [] := by
    intro t
    rw [Threads.runOps, Threads.tableOps]
    cases t.step (.pickUp fd) <;> rfl
  have hops : s.runOps [.receive quietDetectorEnv (.beacon ipTwo []), .pickUp fd] =
      s.tableOps (.receive quietDetectorEnv (.beacon ipTwo [])) := by
    rw [Threads.runOps]
    simp only [hpickUp]
    cases s.step (.receive quietDetectorEnv (.beacon ipTwo [])) <;> exact List.append_nil _
  rw [hops]
  exact allocatesNodes_of_nodup (by decide +kernel)

/-- The table of a node that has heard from another one, when the timer of that one has expired. -/
theorem nodes_in_memory_two :
    ∃ (fd : ℕ) (s : Threads) (table : UtTable ℕ NodeStruct),
      applyTable noNodes
        (initNodesOps 0 ipOne (nodeWithIp ⟨[], by decide⟩) ++
          (Threads.start ipOne (nodeWithIp ⟨[], by decide⟩) (CharArray.zero _) 0).runOps
            [.receive quietDetectorEnv (.beacon ipTwo []), .pickUp fd]) = some table ∧
      hashFsck table.toUtHash = true ∧ table.elements.map table.data = s.detector.nodes ∧
      ipTwo ∈ ipKeys s.detector.nodes := by
  have hne : ipTwo ≠ ipOne := by decide
  obtain ⟨fd, s, hrun, -, hmem, -⟩ := Threads.exists_pickedUp
    (nodeWithIp ⟨[], by decide⟩) (CharArray.zero _) 0 hne []
  obtain ⟨table, heq, hfsck, hnodes, -⟩ := nodes_in_memory noNodes rfl 0 _ _ _ _ _ s hrun
    (allocatesNodes_two fd)
  exact ⟨fd, s, table, heq, hfsck, hnodes, hmem⟩

/-- **The buckets of the nodes table stay short.** After any operations of the program on the table,
unless its expansion has been inhibited, there are fewer than twenty nodes for each bucket, and a
lookup in a bucket ends after at most ten times as many steps as the multiplier of the bucket, plus
ten. -/
theorem nodes_chains_bounded (table table' : UtTable ℕ NodeStruct) (hhead : table.head = none)
    (ops : List NodesOp) (hmalloc : AllocatesNodes table ops)
    (hops : applyTable table ops = some table')
    (hne : table'.head ≠ none) (hexpand : table'.tbl.noexpand = false) :
    table'.tbl.numItems = (applyNodes [] ops).length ∧
      table'.tbl.numItems < 2 * hashBktCapacityThresh * table'.tbl.numBuckets ∧
      ∀ (keyptr : CStr) (hashval : UInt32) (i : ℕ), hashFindInBkt table'.hh keyptr hashval
        (((table'.tbl.buckets i).expandMult + 1) * hashBktCapacityThresh)
        (table'.tbl.buckets i) ≠ none := by
  obtain ⟨_, heq, hrep⟩ := represents_applyTable hhead hmalloc
  obtain rfl := Option.some.inj (hops.symm.trans heq)
  obtain ⟨elems, helems, hnodes, -⟩ := hrep.elems
  have hne' : elems ≠ [] := by
    rintro rfl
    exact hne helems.head
  have htbl := helems.tbl hne'
  have hbounded := helems.bounded hne' hexpand
  obtain ⟨chains, hchained⟩ := htbl.chained
  refine ⟨?_, ?_, fun keyptr hashval i => ?_⟩
  · rw [hnodes, List.length_map, htbl.numItems]
  · rw [htbl.numItems, ← hchained.sum_range_count htbl.numBuckets helems.app.nodup]
    exact hbounded.length_lt (htbl.numBuckets ▸ Nat.two_pow_pos _)
  · rw [hashFindInBkt, hchained.head, DoublyLinked.search_path (hchained.linked i).next]
    · exact Option.some_ne_none _
    · rw [← hchained.count]
      exact hbounded.count_le i

/-- The address `10.0.0.n`. -/
def subnetIp (n : Fin 256) : IpString := ⟨ascii "10.0.0." ++ decimal n, by revert n; decide +kernel⟩

/-- Ten nodes whose addresses all fall into bucket 17 of a new table. -/
def collidingOps : List NodesOp :=
  ([48, 53, 62, 70, 73, 89, 94, 120, 150, 164].map fun n =>
    (n.1, nodeWithIp (subnetIp n))).map fun (x, node) => .add x node

/-- The tenth node makes the table expand. -/
lemma exists_expanded : ∃ table : UtTable ℕ NodeStruct,
    applyTable noNodes collidingOps = some table ∧ table.head ≠ none ∧
    table.tbl.noexpand = false ∧ table.tbl.numBuckets = 64 := by
  have hadded : (applyTable noNodes collidingOps).map (fun table =>
      (table.head, table.tbl.noexpand, table.tbl.numBuckets)) = some (some 48, false, 64) := by
    decide +kernel
  obtain ⟨table, htable, heq⟩ := Option.map_eq_some_iff.mp hadded
  obtain ⟨hhead, hexpand, hbuckets⟩ : _ ∧ _ ∧ _ := by simpa only [Prod.mk.injEq] using heq
  exact ⟨table, htable, hhead ▸ Option.some_ne_none _, hexpand, hbuckets⟩

/-- A table whose buckets have been expanded is short. -/
theorem nodes_chains_bounded_expanded :
    ∃ table : UtTable ℕ NodeStruct, applyTable noNodes collidingOps = some table ∧
      table.tbl.numBuckets = 64 ∧
      table.tbl.numItems < 2 * hashBktCapacityThresh * table.tbl.numBuckets := by
  obtain ⟨table, htable, hne, hexpand, hbuckets⟩ := exists_expanded
  have hmalloc : AllocatesNodes noNodes collidingOps := allocatesNodes_of_nodup (by decide)
  exact ⟨table, htable, hbuckets,
    (nodes_chains_bounded _ _ rfl _ hmalloc htable hne hexpand).2.1⟩

/-! ### The end of the program -/

/-- What the pointer `timeout_metadata` of a node holds. -/
inductive MetadataPointer
  | null
  /-- The block that `malloc` has returned for it, with its three arrays. -/
  | allocated
  /-- What was in the memory of the node, if the pointer has never been set. -/
  | wild
  deriving DecidableEq

/-- The blocks of memory of a node. -/
inductive NodeBlock
  | pastArrivalTimeDifferencesW1Ms
  | pastArrivalTimeDifferencesW2Ms
  | deltasBetweenMessages
  | timeoutMetadata
  | node
  deriving DecidableEq

/-- The part of the body of the loop of `clean_up_hashmap` behind `HASH_DEL`: the blocks that it
frees, in order, unless it reads behind a pointer that has never been set. -/
def freeNode : MetadataPointer → Option (List NodeBlock)
  | .null => some [.node]
  | .allocated => some [.pastArrivalTimeDifferencesW1Ms, .pastArrivalTimeDifferencesW2Ms,
      .deltasBetweenMessages, .timeoutMetadata, .node]
  | .wild => none

/-- The pointer `timeout_metadata` of a node. `init_nodes_struct` does not set it for the node
itself, where it is what was in the memory; the receive loop allocates it for every other node. -/
def metadataPointer (hostname : IpString) (unset : MetadataPointer) (n : NodeStruct) :
    MetadataPointer :=
  if n.ipaddress = hostname then unset else .allocated

/-- What `clean_up_hashmap` changes: the table, and the blocks that it has freed, in order. -/
structure CleanUp where
  table : UtTable ℕ NodeStruct
  freed : List (ℕ × NodeBlock)

/-- The body of the loop of `clean_up_hashmap`, if it is defined. The memory of a node that is freed
may be overwritten at once, by `free`. -/
def cleanUpNode (free : UtTable ℕ NodeStruct → ℕ → UtTable ℕ NodeStruct)
    (metadata : NodeStruct → MetadataPointer) (s : CleanUp) (currentNode : ℕ) : Option CleanUp :=
  let h := hashDelete s.table.toUtHash currentNode
  (freeNode (metadata (s.table.data currentNode))).map fun blocks =>
    ⟨free ⟨h, s.table.data⟩ currentNode, s.freed ++ blocks.map fun block => (currentNode, block)⟩

/-- `clean_up_hashmap` on the table in memory. -/
def cleanUpNodes (free : UtTable ℕ NodeStruct → ℕ → UtTable ℕ NodeStruct)
    (metadata : NodeStruct → MetadataPointer) (table : UtTable ℕ NodeStruct) : Option CleanUp :=
  hashIter (fun s => s.table.toUtHash) (cleanUpNode free metadata) ⟨table, []⟩

/-- Whatever happens to the memory of a node that is freed, the rest stays. -/
structure FreesOnly (free : UtTable ℕ NodeStruct → ℕ → UtTable ℕ NodeStruct) : Prop where
  head : ∀ t x, (free t x).head = t.head
  tbl : ∀ t x, (free t x).tbl = t.tbl
  app : ∀ t x y, y ≠ x →
    (free t x).hh.app.next y = t.hh.app.next y ∧ (free t x).hh.app.prev y = t.hh.app.prev y
  bkt : ∀ t x y, y ≠ x →
    (free t x).hh.bkt.next y = t.hh.bkt.next y ∧ (free t x).hh.bkt.prev y = t.hh.bkt.prev y
  key : ∀ t x y, y ≠ x →
    (free t x).hh.key y = t.hh.key y ∧ (free t x).hh.hashv y = t.hh.hashv y
  data : ∀ t x y, y ≠ x → (free t x).data y = t.data y

/-- What `clean_up_hashmap` frees of the node at the address `x`. -/
def blocksOf (metadata : NodeStruct → MetadataPointer) (data : ℕ → NodeStruct) (x : ℕ) :
    List (ℕ × NodeBlock) :=
  ((freeNode (metadata (data x))).getD []).map fun block => (x, block)

variable {free : UtTable ℕ NodeStruct → ℕ → UtTable ℕ NodeStruct}
  {metadata : NodeStruct → MetadataPointer}

/-- A node that is freed is none of the table. -/
lemma FreesOnly.represents (hfree : FreesOnly free) {t : UtTable ℕ NodeStruct} {x : ℕ}
    {elems : List ℕ} (hrep : t.toUtHash.Represents hashJen elems) (hx : x ∉ elems) :
    (free t x).toUtHash.Represents hashJen elems := by
  have hne : ∀ y ∈ elems, y ≠ x := by
    rintro y hy rfl
    exact hx hy
  have hhh : (free t x).toUtHash = { t.toUtHash with hh := (free t x).hh } :=
    UtHash.ext (hfree.head t x) (hfree.tbl t x) rfl
  rw [hhh]
  exact hrep.congr (fun y hy => hfree.app t x y (hne y hy))
    (fun y hy => hfree.bkt t x y (hne y hy)) fun y hy => hfree.key t x y (hne y hy)

variable (metadata) in
/-- The body takes the node that it is given out of the table. -/
lemma FreesOnly.cleanUpNode (hfree : FreesOnly free) {s s' : CleanUp} {x : ℕ} {rest : List ℕ}
    (hrep : s.table.toUtHash.Represents hashJen (x :: rest))
    (hbody : FailureDetector.cleanUpNode free metadata s x = some s') :
    s'.table.toUtHash.Represents hashJen rest := by
  obtain ⟨blocks, -, rfl⟩ := Option.map_eq_some_iff.mp hbody
  have hdel := (hrep.delete List.mem_cons_self).1
  rw [List.erase_cons_head] at hdel
  exact hfree.represents (t := ⟨hashDelete s.table.toUtHash x, s.table.data⟩) hdel
    (List.nodup_cons.mp hrep.app.nodup).1

variable (metadata) in
/-- The bodies of the loop, one after the other: they are all defined if no pointer that they follow
is wild, and then they free the blocks of each node. -/
lemma FreesOnly.foldlM_cleanUpNode (hfree : FreesOnly free) {data : ℕ → NodeStruct} {elems : List ℕ}
    (hnodup : elems.Nodup) {s : CleanUp} (hdata : ∀ x ∈ elems, s.table.data x = data x) :
    ((∃ s', elems.foldlM (FailureDetector.cleanUpNode free metadata) s = some s') ↔
        ∀ x ∈ elems, metadata (data x) ≠ .wild) ∧
      ∀ s', elems.foldlM (FailureDetector.cleanUpNode free metadata) s = some s' →
        s'.freed = s.freed ++ elems.flatMap (blocksOf metadata data) := by
  induction elems generalizing s with
  | nil =>
    refine ⟨⟨fun _ => nofun, fun _ => ⟨s, rfl⟩⟩, fun s' hs' => ?_⟩
    cases hs'
    exact (List.append_nil _).symm
  | cons x elems ih =>
    obtain ⟨hx, hnodup⟩ := List.nodup_cons.mp hnodup
    have hfirst := hdata x List.mem_cons_self
    rw [List.foldlM_cons, List.forall_mem_cons, List.flatMap_cons, FailureDetector.cleanUpNode,
      hfirst]
    cases hnode : freeNode (metadata (data x)) with
    | none =>
      have hwild : metadata (data x) = .wild := by
        cases h : metadata (data x) <;> rw [h] at hnode <;> trivial
      refine ⟨⟨?_, fun h => absurd hwild h.1⟩, ?_⟩
      · rintro ⟨_, h⟩
        cases h
      · intro _ h
        cases h
    | some blocks =>
      have hnot : metadata (data x) ≠ .wild := by
        intro hwild
        rw [hwild] at hnode
        cases hnode
      have hrest : ∀ y ∈ elems,
          (free ⟨hashDelete s.table.toUtHash x, s.table.data⟩ x).data y = data y := by
        intro y hy
        have hyx : y ≠ x := by
          rintro rfl
          exact hx hy
        rw [hfree.data _ _ _ hyx]
        exact hdata y (List.mem_cons_of_mem _ hy)
      obtain ⟨hiff, hfreed⟩ := ih hnodup
        (s := ⟨free ⟨hashDelete s.table.toUtHash x, s.table.data⟩ x,
          s.freed ++ blocks.map fun block => (x, block)⟩) hrest
      refine ⟨?_, fun s' hs' => ?_⟩
      · rw [and_iff_right hnot, ← hiff]
        rfl
      · rw [hfreed s' hs', blocksOf, hnode, List.append_assoc]
        rfl

/-- A block is freed once, as its node is. -/
lemma nodup_blocksOf {data : ℕ → NodeStruct} {elems : List ℕ} (hnodup : elems.Nodup) :
    (elems.flatMap (blocksOf metadata data)).Nodup := by
  refine List.nodup_flatMap.mpr ⟨fun x _ => ?_, hnodup.imp fun {x y} hne => ?_⟩
  · refine List.Nodup.map (fun _ _ h => (Prod.mk.inj h).2) ?_
    cases metadata (data x) <;> decide
  · rintro ⟨z, block⟩ hx hy
    obtain ⟨_, -, heq⟩ := List.mem_map.mp hx
    obtain ⟨_, -, heq'⟩ := List.mem_map.mp hy
    exact hne ((Prod.mk.inj heq).1.trans (Prod.mk.inj heq').1.symm)

/-- Memory that is overwritten when it is freed. -/
def freeOverwritten (t : UtTable ℕ NodeStruct) (x : ℕ) : UtTable ℕ NodeStruct where
  head := t.head
  tbl := t.tbl
  hh :=
    { app := ⟨Function.update t.hh.app.next x none, Function.update t.hh.app.prev x none⟩
      bkt := ⟨Function.update t.hh.bkt.next x none, Function.update t.hh.bkt.prev x none⟩
      key := Function.update t.hh.key x []
      hashv := Function.update t.hh.hashv x 0 }
  data := Function.update t.data x (nodeWithIp ipOne)

/-- Only the memory of the node that is freed is overwritten. -/
lemma freesOnly_freeOverwritten : FreesOnly freeOverwritten where
  head _ _ := rfl
  tbl _ _ := rfl
  app _ _ _ hne := ⟨Function.update_of_ne hne _ _, Function.update_of_ne hne _ _⟩
  bkt _ _ _ hne := ⟨Function.update_of_ne hne _ _, Function.update_of_ne hne _ _⟩
  key _ _ _ hne := ⟨Function.update_of_ne hne _ _, Function.update_of_ne hne _ _⟩
  data _ _ _ hne := Function.update_of_ne hne _ _

end FailureDetector
