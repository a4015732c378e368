import FailureDetector.Messages
import FailureDetector.PaxosReplica.Model
import FailureDetector.Uthash.Table

set_option relaxedAutoImplicit false
set_option autoImplicit false

/-!
# What a replica submits

A replica submits the membership list of the nodes table under its own address. Submitting sorts
the table and records the submission; the learner's part of the replica stays as it is. The
submission is recorded before the table is serialised, so the record stays if that fails.

## Main definitions

* `FailureDetector.Submitted`, `FailureDetector.Serialized` — values that a replica has submitted,
  and values that `serialize_hash` has packed.
* `FailureDetector.SubmitStep` — what submitting a table does.
* `FailureDetector.serializeHashDump` — `serialize_hash` with any outcome of `tpl_dump`.

## Main results

* `FailureDetector.paxosSerializeAndSubmitWith_view` — submitting, seen from outside.
* `FailureDetector.paxosSerializeAndSubmit_frame` — what submitting leaves alone.
* `FailureDetector.paxosSerializeAndSubmit_spec` — a table that is not empty is submitted.
* `FailureDetector.paxosSerializeAndSubmit_step` — submitting such a table is a
  `FailureDetector.SubmitStep`.
* `FailureDetector.failed_submission_traceless_iff` — when a failed submission leaves no trace.
-/

namespace FailureDetector

open CString Wire

/-- A value that `paxos_serialize_and_submit` has submitted at some replica. -/
def Submitted (value : Bytes) : Prop :=
  ∃ env, ∃ replica : FdReplica, ∃ nodes,
    value ∈ submissions (paxosSerializeAndSubmit env replica nodes).2.2

/-- A value that `serialize_hash` has packed. -/
def Serialized (value : Bytes) : Prop :=
  ∃ nodes currentNodeIp uuid ipaddress,
    (serializeHash nodes currentNodeIp uuid ipaddress).1 = some value

/-- A record that is added changes the table. -/
lemma addDetectedState_ne (states : UtTable ℕ DetectedState) (x : ℕ) (state : DetectedState) :
    addDetectedState states x state ≠ states := by
  intro h
  have hhash := congrArg UtTable.toUtHash h
  rw [addDetectedState] at hhash
  cases hadd : hashAddStr hashJen states.toUtHash state.uuid x with
  | none =>
    rw [hadd] at hhash
    have hitems := congrArg (fun h => h.tbl.numItems) hhash
    exact absurd hitems (Nat.succ_ne_self _)
  | some h' =>
    rw [hadd] at hhash
    exact hashAddStr_ne hadd hhash

/-! ### Outcomes of the serialisation -/

/-- `serialize_hash` with the outcome of `tpl_dump`: if that reports an error it returns `-1`, with
the table sorted. -/
def serializeHashDump (dumps : Bool) (nodes : Option (List NodeStruct)) (currentNodeIp : IpBuffer)
    (uuid : Uuid) (ipaddress : IpBuffer) : Option Bytes × Option (List NodeStruct) × List Event :=
  match serializeHash nodes currentNodeIp uuid ipaddress with
  | (none, nodes, events) => (none, nodes, events)
  | (some value, nodes, events) =>
    if dumps then (some value, nodes, events)
    else (none, nodes,
      [.printf "ERROR: error when dumping to buffer in serialize hash function\n"])

/-- If `tpl_dump` succeeds, this is `serialize_hash`. -/
lemma serializeHashDump_true : serializeHashDump true = serializeHash := by
  funext nodes currentNodeIp uuid ipaddress
  rcases nodes with - | (- | ⟨n, ns⟩)
  · rfl
  · rfl
  · rfl

/-- If `tpl_dump` succeeds, this is `paxos_serialize_and_submit`. -/
lemma paxosSerializeAndSubmitWith_true {L : Type} [ZlistImpl L CStr] :
    paxosSerializeAndSubmitWith (L := L) (serializeHashDump true) = paxosSerializeAndSubmit := by
  rw [serializeHashDump_true, paxosSerializeAndSubmit]

/-- When `serialize_hash` fails: the table is empty or `tpl_dump` reports an error. -/
lemma serializeHashDump_eq_none (dumps : Bool) (table : List NodeStruct)
    (currentNodeIp : IpBuffer) (uuid : Uuid) (ipaddress : IpBuffer) :
    (serializeHashDump dumps (some table) currentNodeIp uuid ipaddress).1 = none ↔
      table = [] ∨ dumps = false := by
  cases table with
  | nil => simp [serializeHashDump, serializeHash]
  | cons n ns =>
    cases dumps with
    | true => simp [serializeHashDump, serializeHash]
    | false => simp [serializeHashDump, serializeHash]

/-- `serialize_hash` submits nothing, whatever `tpl_dump` reports. -/
lemma submissions_serializeHashDump (dumps : Bool) (nodes : Option (List NodeStruct))
    (currentNodeIp : IpBuffer) (uuid : Uuid) (ipaddress : IpBuffer) :
    submissions (serializeHashDump dumps nodes currentNodeIp uuid ipaddress).2.2 = [] := by
  have hevents := submissions_serializeHash nodes currentNodeIp uuid ipaddress
  rw [serializeHashDump]
  split
  · next heq => rwa [heq] at hevents
  · next heq =>
    rw [heq] at hevents
    split
    · exact hevents
    · rfl

section GrantedLock

variable {L : Type} [ZlistImpl L CStr] (serialize : SerializeFcn)
variable {env : PaxosEnv} (hlock : env.lock .detectedStatesHashmapLock = true)
include hlock

/-- A submission is recorded before the table is serialised. -/
lemma paxosSerializeAndSubmitWith_detectedStates (replica : FdReplicaOf L)
    (table : List NodeStruct) :
    (paxosSerializeAndSubmitWith serialize env replica (some table)).1.detectedStates =
      addDetectedState replica.detectedStates env.record ⟨zuuidStr env.uuid, env.timeMs⟩ := by
  simp only [paxosSerializeAndSubmitWith, hlock, Bool.true_eq_false, if_false]
  split
  · rfl
  · rfl

/-- A submission is recorded under the mutex, and then what the serialisation returns is submitted,
if it returns anything. -/
lemma paxosSerializeAndSubmitWith_events (replica : FdReplicaOf L) (table : List NodeStruct) :
    (paxosSerializeAndSubmitWith serialize env replica (some table)).2.2 =
      let result := serialize (some (HashTable.sort ipAddressHashSortFunction table))
        replica.currentNodeIp env.uuid env.ipaddress
      [.lock .detectedStatesHashmapLock, .detectedChange (zuuidStr env.uuid),
        .unlock .detectedStatesHashmapLock] ++ result.2.2 ++ result.1.toList.map .submit := by
  simp only [paxosSerializeAndSubmitWith, hlock, Bool.true_eq_false, if_false,
    getMembershipGroupFromHash]
  split
  · next heq =>
    rw [heq]
    exact (List.append_nil _).symm
  · next heq =>
    rw [heq]
    rfl

/-- The serialised table is submitted, if there is one. -/
lemma submissions_paxosSerializeAndSubmitWith (replica : FdReplicaOf L) (table : List NodeStruct) :
    submissions (paxosSerializeAndSubmitWith serialize env replica (some table)).2.2 =
      let result := serialize (some (HashTable.sort ipAddressHashSortFunction table))
        replica.currentNodeIp env.uuid env.ipaddress
      submissions result.2.2 ++ result.1.toList := by
  have hevents := paxosSerializeAndSubmitWith_events serialize hlock replica table
  dsimp only at hevents ⊢
  rw [hevents, submissions_append, submissions_append, submissions_map_submit]
  rfl

/-- When a table is not submitted. -/
lemma submissions_eq_nil_iff (dumps : Bool) (replica : FdReplicaOf L) (table : List NodeStruct) :
    submissions (paxosSerializeAndSubmitWith (serializeHashDump dumps) env replica
      (some table)).2.2 = [] ↔ table = [] ∨ dumps = false := by
  rw [submissions_paxosSerializeAndSubmitWith _ hlock]
  dsimp only
  rw [submissions_serializeHashDump, List.nil_append, Option.toList_eq_nil_iff,
    serializeHashDump_eq_none, HashTable.sort_eq_nil]

end GrantedLock

/-! ### The replica, seen from outside -/

section View

variable {L : Type} [ZlistImpl L CStr]

/-- The replica that `init_state` sets up, seen from outside. -/
@[simp] lemma view_initState (ip : IpBuffer) (lastLogged : ℚ) :
    (initState ip lastLogged : FdReplicaOf L).view = initReplica ip lastLogged := by
  have hnew : ZlistImpl.view (zlistNew : L) = zlistNew := ZlistImpl.view_new
  rw [FdReplicaOf.view, initState, hnew, initReplica, initState]

/-- **`paxos_serialize_and_submit`**, seen from outside. -/
lemma paxosSerializeAndSubmitWith_view (serialize : SerializeFcn) (env : PaxosEnv)
    (replica : FdReplicaOf L) (nodes : Option (List NodeStruct)) :
    paxosSerializeAndSubmitWith serialize env replica.view nodes =
      (paxosSerializeAndSubmitWith serialize env replica nodes).map FdReplicaOf.view id := by
  cases nodes with
  | none => rfl
  | some table =>
    have hlist := getMembershipGroupFromHash_view table (zlistPurge replica.detectedStateArray)
      env.temp
    rw [ZlistImpl.view_purge] at hlist
    unfold paxosSerializeAndSubmitWith
    dsimp only [FdReplicaOf.view]
    split
    · rfl
    · rw [hlist]
      dsimp only [Prod.map, id]
      generalize serialize _ _ _ _ = result
      obtain ⟨value, nodes', events⟩ := result
      cases value with
      | none => rfl
      | some value => rfl

/-- What a replica submits has been submitted, whatever its lists are. -/
lemma submitted_of_mem {env : PaxosEnv} {replica : FdReplicaOf L}
    {nodes : Option (List NodeStruct)} {value : Bytes}
    (h : value ∈ submissions (paxosSerializeAndSubmit env replica nodes).2.2) :
    Submitted value := by
  refine ⟨env, replica.view, nodes, ?_⟩
  rw [paxosSerializeAndSubmit, paxosSerializeAndSubmitWith_view]
  exact h

end View

/-! ### What is submitted -/

/-- **Submitting leaves the learner alone**, and the address of the node. -/
lemma paxosSerializeAndSubmit_frame (env : PaxosEnv) (replica : FdReplica)
    (nodes : Option (List NodeStruct)) :
    (paxosSerializeAndSubmit env replica nodes).1.currentNodeIp = replica.currentNodeIp ∧
      (paxosSerializeAndSubmit env replica nodes).1.paxosStateArray = replica.paxosStateArray := by
  unfold paxosSerializeAndSubmit paxosSerializeAndSubmitWith
  cases nodes with
  | none => exact ⟨rfl, rfl⟩
  | some table =>
    dsimp only
    split
    · exact ⟨rfl, rfl⟩
    · split
      · exact ⟨rfl, rfl⟩
      · exact ⟨rfl, rfl⟩

/-- The value that is submitted, if any, is the serialised table. -/
lemma submissions_paxosSerializeAndSubmit (env : PaxosEnv) (replica : FdReplica)
    {nodes : Option (List NodeStruct)} {value : Bytes}
    (h : value ∈ submissions (paxosSerializeAndSubmit env replica nodes).2.2) :
    ∃ table, nodes = some table ∧
      (serializeHash (some (HashTable.sort ipAddressHashSortFunction table))
        replica.currentNodeIp env.uuid env.ipaddress).1 = some value := by
  cases nodes with
  | none => simp [paxosSerializeAndSubmit, paxosSerializeAndSubmitWith, submissions] at h
  | some table =>
    refine ⟨table, rfl, ?_⟩
    cases hlock : env.lock .detectedStatesHashmapLock with
    | false => simp [paxosSerializeAndSubmit, paxosSerializeAndSubmitWith, hlock, submissions] at h
    | true =>
      rw [← paxosSerializeAndSubmitWith_true, submissions_paxosSerializeAndSubmitWith _ hlock,
        serializeHashDump_true] at h
      dsimp only at h
      rw [submissions_serializeHash, List.nil_append, Option.mem_toList] at h
      exact h

/-- A submitted value is packed by `serialize_hash`. -/
lemma Submitted.serialized {value : Bytes} (h : Submitted value) : Serialized value := by
  obtain ⟨env, replica, nodes, hmem⟩ := h
  obtain ⟨table, -, hvalue⟩ := submissions_paxosSerializeAndSubmit env replica hmem
  exact ⟨_, _, _, _, hvalue⟩

/-- **A table that is not empty is submitted** if the lock is granted. It is sorted, nothing is
printed, and the value decodes to the address of the replica and the membership list. -/
lemma paxosSerializeAndSubmit_spec {env : PaxosEnv}
    (hlock : env.lock .detectedStatesHashmapLock = true)
    (replica : FdReplica) (table : List NodeStruct) (hne : table ≠ []) :
    ∃ replica' value,
      paxosSerializeAndSubmit env replica (some table) =
        (replica', some (HashTable.sort ipAddressHashSortFunction table),
          [.lock .detectedStatesHashmapLock, .detectedChange (zuuidStr env.uuid),
            .unlock .detectedStatesHashmapLock, .submit value]) ∧
      decode value = some ⟨replica.currentNodeIp.cstr, env.uuid, membership table⟩ := by
  have hsort : HashTable.sort ipAddressHashSortFunction table ≠ [] :=
    fun h => hne (HashTable.sort_eq_nil.mp h)
  obtain ⟨value, hvalue⟩ :=
    serializeHash_of_ne_nil hsort replica.currentNodeIp env.uuid env.ipaddress
  obtain ⟨ns, hns, -, hdecode⟩ := serializeHash_decode (congrArg Prod.fst hvalue)
  cases hns
  rw [membership_sort] at hdecode
  rw [sort_sort] at hvalue
  refine ⟨(paxosSerializeAndSubmit env replica (some table)).1, value, ?_, hdecode⟩
  simp only [paxosSerializeAndSubmit, paxosSerializeAndSubmitWith, hlock, Bool.true_eq_false,
    if_false, getMembershipGroupFromHash, hvalue]
  rfl

/-- The actions of `paxos_serialize_and_submit`. -/
def Event.OfSubmit : Event → Prop
  | .lock _ | .unlock _ | .printf _ | .detectedChange _ | .submit _ => True
  | _ => False

/-- What `paxos_serialize_and_submit` does to a table that is not empty: `table'` is the table after
it. The table is submitted if the lock is granted. -/
structure SubmitStep (env : PaxosEnv) (replica : FdReplica) (table : List NodeStruct)
    (replica' : FdReplica) (table' : List NodeStruct) (events : List Event) : Prop where
  perm : table'.Perm table
  currentNodeIp : replica'.currentNodeIp = replica.currentNodeIp
  paxosStateArray : replica'.paxosStateArray = replica.paxosStateArray
  acts : ∀ e ∈ events, e.OfSubmit
  submits : env.lock .detectedStatesHashmapLock = true → ∃ value,
    decode value = some ⟨replica.currentNodeIp.cstr, env.uuid, membership table'⟩ ∧
    events = [.lock .detectedStatesHashmapLock, .detectedChange (zuuidStr env.uuid),
      .unlock .detectedStatesHashmapLock, .submit value]
  refused : env.lock .detectedStatesHashmapLock = false → submissions events = []

/-- **What submitting a table does.** -/
lemma paxosSerializeAndSubmit_step (env : PaxosEnv) (replica : FdReplica) (table : List NodeStruct)
    (hne : table ≠ []) :
    ∃ replica' table' events,
      paxosSerializeAndSubmit env replica (some table) = (replica', some table', events) ∧
      SubmitStep env replica table replica' table' events := by
  cases hlock : env.lock .detectedStatesHashmapLock with
  | false =>
    refine ⟨replica, table, [.printf "ERROR: can't get mutex \n"], ?_,
      ⟨List.Perm.refl _, rfl, rfl, ?_, fun htrue => ?_, fun _ => rfl⟩⟩
    · rw [paxosSerializeAndSubmit, paxosSerializeAndSubmitWith, if_pos hlock]
    · simp [Event.OfSubmit]
    · exact absurd (hlock.symm.trans htrue) Bool.false_ne_true
  | true =>
    have hframe := paxosSerializeAndSubmit_frame env replica (some table)
    obtain ⟨replica', value, heq, hdecode⟩ := paxosSerializeAndSubmit_spec hlock replica table hne
    rw [heq] at hframe
    refine ⟨_, _, _, heq, ⟨HashTable.sort_perm _ _, hframe.1, hframe.2, ?_, fun _ => ?_,
      fun hfalse => ?_⟩⟩
    · simp [Event.OfSubmit]
    · refine ⟨value, ?_, rfl⟩
      rw [membership_sort]
      exact hdecode
    · exact absurd (hfalse.symm.trans hlock) Bool.false_ne_true

/-- Every lock is granted and everything else is zero. -/
def quietEnv : PaxosEnv where
  lock := fun _ => true
  timeMs := 0
  uuid := CharArray.zero _
  temp := CharArray.zero _
  ipaddress := CharArray.zero _
  record := 0
  freed := ⟨⟨hashMakeTable 0, none, none, none, none, 0⟩, [], ⟨[], 0⟩⟩

/-- Every lock is granted. -/
lemma quietEnv_locks : quietEnv.LocksSucceed := fun _ => rfl

/-- Every node can submit the list that contains only itself, under any UUID. -/
lemma exists_submitted_singleton (ip : IpString) (uuid : Uuid) :
    ∃ value, Submitted value ∧ decode value = some ⟨ip.1, uuid, [ip.1]⟩ := by
  set env : PaxosEnv := { quietEnv with uuid := uuid }
  set replica : FdReplica := initReplica (IpBuffer.set (CharArray.zero _) ip) 0 with hreplica
  have hlock : env.lock .detectedStatesHashmapLock = true := rfl
  obtain ⟨replica', value, hresult, hdecode⟩ :=
    paxosSerializeAndSubmit_spec hlock replica [nodeWithIp ip] (List.cons_ne_nil _ _)
  have hip : replica.currentNodeIp.cstr = ip.1 := by
    rw [hreplica]
    exact IpBuffer.cstr_set _ ip
  rw [membership_singleton, hip] at hdecode
  have hmem : value ∈ submissions (paxosSerializeAndSubmit env replica
      (some [nodeWithIp ip])).2.2 := by
    rw [hresult]
    exact List.mem_singleton.mpr rfl
  exact ⟨value, ⟨_, _, _, hmem⟩, hdecode⟩

/-! ### Submissions that fail -/

/-- **A failed submission leaves no trace exactly if it fails early**: if the nodes structure is
`NULL` or the lock is refused. A table that is empty, or for which `tpl_dump` reports an error, is
not submitted, and the record made for it stays.

**Proof sketch.** By the three exits. On the last one the table `detected_states` has a record more
than before. -/
theorem failed_submission_traceless_iff {L : Type} [ZlistImpl L CStr] (dumps : Bool)
    (env : PaxosEnv) (replica : FdReplicaOf L) (nodes : Option (List NodeStruct)) :
    (submissions
        (paxosSerializeAndSubmitWith (serializeHashDump dumps) env replica nodes).2.2 = [] →
      (paxosSerializeAndSubmitWith (serializeHashDump dumps) env replica nodes).1.detectedStates =
          replica.detectedStates ∧
        (paxosSerializeAndSubmitWith (serializeHashDump dumps) env replica
          nodes).1.detectedStateArray = replica.detectedStateArray) ↔
    ¬ ∃ table, nodes = some table ∧ env.lock .detectedStatesHashmapLock = true ∧
      (table = [] ∨ dumps = false) := by
  cases nodes with
  | none => simp [paxosSerializeAndSubmitWith]
  | some table =>
    cases hlock : env.lock .detectedStatesHashmapLock with
    | false => simp [paxosSerializeAndSubmitWith, hlock]
    | true =>
      rw [submissions_eq_nil_iff hlock]
      constructor
      · rintro h ⟨table', heq, -, hfails⟩
        obtain rfl : table = table' := Option.some.inj heq
        have hstates := (h hfails).1
        rw [paxosSerializeAndSubmitWith_detectedStates _ hlock] at hstates
        exact absurd hstates (addDetectedState_ne _ _ _)
      · intro h hfails
        exact absurd ⟨table, rfl, rfl, hfails⟩ h

/-- **A failed submission leaves a trace** if the table is empty: its record stays. -/
theorem failed_submission_leaves_record :
    ¬ ∀ (dumps : Bool) (env : PaxosEnv) (replica : FdReplica) (nodes : Option (List NodeStruct)),
      submissions
          (paxosSerializeAndSubmitWith (serializeHashDump dumps) env replica nodes).2.2 = [] →
        (paxosSerializeAndSubmitWith (serializeHashDump dumps) env replica nodes).1.detectedStates =
            replica.detectedStates ∧
          (paxosSerializeAndSubmitWith (serializeHashDump dumps) env replica
            nodes).1.detectedStateArray = replica.detectedStateArray := by
  intro h
  have hstates := (h true quietEnv (initReplica (CharArray.zero _) 0) (some [])
    ((submissions_eq_nil_iff (quietEnv_locks _) _ _ _).mpr (Or.inl rfl))).1
  rw [paxosSerializeAndSubmitWith_detectedStates _ (quietEnv_locks _)] at hstates
  exact absurd hstates (addDetectedState_ne _ _ _)

end FailureDetector
