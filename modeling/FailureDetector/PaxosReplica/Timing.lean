import FailureDetector.Lib.Pending
import FailureDetector.PaxosReplica.Learner
import FailureDetector.Uthash.Refinement

set_option relaxedAutoImplicit false
set_option autoImplicit false

/-!
# The timing of consensus

A replica records the time at which it submits a value under the UUID of the value. When the
value is delivered back to it, the record is reported and removed. The record is freed before it
is deleted, so that `HASH_DEL` reads the handle of the record from freed memory: the table is right
if the handle still reads as before, and with unspecified contents only if nothing is ever
delivered back.

## Main definitions

* `FailureDetector.ReplicaCall`, `FailureDetector.FdReplica.call` — the calls of
  `paxos_serialize_and_submit` and `on_deliver`.
* `FailureDetector.ownUuid` — the UUID in a value of the node itself.
* `FailureDetector.Outstanding` — the records that are due after some calls.
* `FailureDetector.Exact` — a table of just these records.
* `FailureDetector.Intact` — the handle of a freed record still reads as before.
* `FailureDetector.AllocatesUnused` — a new record is in memory that is not in use.
* `FailureDetector.ReportedOnce` — what delivering a value does to the table.

## Main results

* `FailureDetector.onDeliver_of_find_none`, `FailureDetector.onDeliver_of_find_some` — the step
  lemmas.
* `FailureDetector.detectedStates_run` — the table refines the pending records of the calls.
* `FailureDetector.timing_table_exact` — the table over every run.
-/

namespace FailureDetector

open CString Wire Pending
open HashTable (find keys)

/-! ### UUIDs as strings -/

/-- Different digits are different characters. -/
lemma hexDigit_injective : Function.Injective hexDigit := by
  intro a b
  revert a b
  decide

/-- Different UUIDs are different strings.

**Proof sketch.** Induction on the bytes: the first two digits give the first byte. -/
lemma zuuidStr_injective : Function.Injective zuuidStr := by
  intro u v h
  refine CharArray.ext ?_
  unfold zuuidStr at h
  generalize u.bytes = bs at h
  generalize v.bytes = cs at h
  induction bs generalizing cs with
  | nil =>
    cases cs with
    | nil => rfl
    | cons c cs => simp at h
  | cons b bs ih =>
    cases cs with
    | nil => simp at h
    | cons c cs =>
      simp only [List.flatMap_cons, List.cons_append, List.nil_append, List.cons.injEq] at h
      obtain ⟨hhigh, hlow, hrest⟩ := h
      have hdiv : b.toNat / 16 = c.toNat / 16 := congrArg Fin.val (hexDigit_injective hhigh)
      have hmod : b.toNat % 16 = c.toNat % 16 := congrArg Fin.val (hexDigit_injective hlow)
      have hbyte : b = c := UInt8.toNat_inj.mp (by omega)
      rw [hbyte, ih cs hrest]

/-! ### Calls of a replica -/

/-- A call that uses the table `detected_states`. -/
inductive ReplicaCall
  /-- `paxos_serialize_and_submit`. -/
  | submit (env : PaxosEnv) (nodes : Option (List NodeStruct))
  /-- `on_deliver`. -/
  | deliver (d : Delivery)

/-- The replica after a call, and the visible actions of the call. -/
def FdReplica.call (replica : FdReplica) : ReplicaCall → FdReplica × List Event
  | .submit env nodes =>
    let (replica, _, events) := paxosSerializeAndSubmit env replica nodes
    (replica, events)
  | .deliver d => onDeliver d.env replica d.iid d.value

/-- The step of a run of calls. Every call returns. -/
def replicaStep (replica : FdReplica) (c : ReplicaCall) : Option FdReplica :=
  some (replica.call c).1

/-- The times that are reported from submission to consensus, with their UUIDs. -/
def reports (events : List Event) : List (CStr × ℚ) :=
  events.filterMap fun event => match event with
    | .reachedConsensus uuid timeMs => some (uuid, timeMs)
    | _ => none

/-- The UUID of a value that the node `own` has sent. -/
def ownUuid (own : CStr) (value : Bytes) : Option Uuid :=
  (decode value).bind fun m => if m.sender = own then some m.uuid else none

/-- The UUID that a call submits a value under. -/
def ReplicaCall.uuid : ReplicaCall → Option Uuid
  | .submit env _ => some env.uuid
  | .deliver _ => none

/-- The record that a call makes. -/
def ReplicaCall.record : ReplicaCall → Option DetectedState
  | .submit env _ => some ⟨zuuidStr env.uuid, env.timeMs⟩
  | .deliver _ => none

/-- The UUID of the node `own` that a call delivers back to it. -/
def ReplicaCall.returnedUuid (own : CStr) : ReplicaCall → Option Uuid
  | .submit _ _ => none
  | .deliver d => ownUuid own d.value

/-- The key that a call is to remove at the node `own`. -/
def ReplicaCall.returned (own : CStr) (c : ReplicaCall) : Option CStr :=
  (c.returnedUuid own).map zuuidStr

/-- A call at which every lock and the serialisation succeed. -/
def ReplicaCall.Regular : ReplicaCall → Prop
  | .submit env nodes => env.LocksSucceed ∧ ∃ table, nodes = some table ∧ table ≠ []
  | .deliver d => d.env.LocksSucceed

/-- The record of a submission among the calls whose value has not been delivered back since. -/
def Outstanding (own : CStr) (calls : List ReplicaCall) (state : DetectedState) : Prop :=
  ∃ pre env nodes post, calls = pre ++ .submit env nodes :: post ∧
    state = ⟨zuuidStr env.uuid, env.timeMs⟩ ∧ ∀ c ∈ post, c.returnedUuid own ≠ some env.uuid

/-- The table of `uthash.h` holds the records `t`, each under its UUID. -/
def HoldsRecords (states : UtTable ℕ DetectedState) (t : List DetectedState) : Prop :=
  states.Represents hashJen DetectedState.uuid id t

/-- The table is sound, and holds one record for each outstanding submission and no others. -/
def Exact (own : CStr) (calls : List ReplicaCall) (states : UtTable ℕ DetectedState) : Prop :=
  ∃ t, HoldsRecords states t ∧ ∀ state, state ∈ t ↔ Outstanding own calls state

/-- The record that `HASH_FIND_STR` finds. -/
def lookupDetectedState (states : UtTable ℕ DetectedState) (uuid : CStr) : Option DetectedState :=
  (findDetectedState states uuid).map states.data

/-- If a call frees a record of the table, what `HASH_DEL` reads from the handle of the record still
reads as before: the links of both lists, the hash value, and the table if the record is its
head. -/
def Intact (replica : FdReplica) : ReplicaCall → Prop
  | .submit _ _ => True
  | .deliver d => ∀ uuid, ownUuid replica.currentNodeIp.cstr d.value = some uuid →
      ∀ x, findDetectedState replica.detectedStates (zuuidStr uuid) = some x →
        d.env.freed.handle = replica.detectedStates.handle x

/-- The memory for the record that a call makes is not that of another record. -/
def AllocatesUnused (replica : FdReplica) : ReplicaCall → Prop
  | .submit env _ => env.record ∉ replica.detectedStates.elements
  | .deliver _ => True

/-- No value of the node `own` is delivered to it after its submission. -/
def NeverReturned (own : CStr) (calls : List ReplicaCall) : Prop :=
  calls.Pairwise fun c c' => ∀ uuid, c.uuid = some uuid → c'.returnedUuid own ≠ some uuid

/-- Memory that has been cleared. -/
def noRecord : FreedRecord := ⟨⟨hashMakeTable 0, none, none, none, none, 0⟩, [], ⟨[], 0⟩⟩

/-- A call with the contents of freed memory left out. -/
def ReplicaCall.forgetFreed : ReplicaCall → ReplicaCall
  | .submit env nodes => .submit env nodes
  | .deliver d => .deliver { d with env := { d.env with freed := noRecord } }

/-- The same calls, but for the contents of freed memory. -/
def SameButFreed (calls calls' : List ReplicaCall) : Prop :=
  calls'.map ReplicaCall.forgetFreed = calls.map ReplicaCall.forgetFreed

/-- What delivering a value does to the table: a value of the node itself reports its record, if
there is one, and removes it and no other; delivering it again does nothing. Any other value does
nothing either. -/
structure ReportedOnce (own : CStr) (replica : FdReplica) (d : Delivery)
    (result : FdReplica × List Event) : Prop where
  reports : ∀ uuid, ownUuid own d.value = some uuid →
    reports result.2 =
      ((lookupDetectedState replica.detectedStates (zuuidStr uuid)).map fun state =>
        (state.uuid, d.env.timeMs - state.timeDiscovered)).toList
  find : ∀ uuid, ownUuid own d.value = some uuid → ∀ key,
    lookupDetectedState result.1.detectedStates key =
      if key = zuuidStr uuid then none else lookupDetectedState replica.detectedStates key
  again : ∀ uuid, ownUuid own d.value = some uuid → ∀ d' : Delivery, d'.env.LocksSucceed →
    ownUuid own d'.value = some uuid →
    (onDeliver d'.env result.1 d'.iid d'.value).1.detectedStates = result.1.detectedStates ∧
      FailureDetector.reports (onDeliver d'.env result.1 d'.iid d'.value).2 = []
  other : ownUuid own d.value = none →
    result.1.detectedStates = replica.detectedStates ∧ FailureDetector.reports result.2 = []

/-! ### One call -/

/-- The values with a UUID of the node are those that it has sent. -/
lemma ownUuid_eq {own : CStr} {value : Bytes} {m : Message} (hdecode : decode value = some m) :
    ownUuid own value = if m.sender = own then some m.uuid else none := by
  rw [ownUuid, hdecode, Option.bind_some]

/-- A value that the node has not sent leaves the table as it is, and reports nothing. -/
lemma onDeliver_of_not_own {d : Delivery} (replica : FdReplica)
    (hown : ownUuid replica.currentNodeIp.cstr d.value = none) :
    (onDeliver d.env replica d.iid d.value).1.detectedStates = replica.detectedStates ∧
      reports (onDeliver d.env replica d.iid d.value).2 = [] := by
  have hstep := onDeliver_step d.env replica d.iid d.value
  generalize onDeliver d.env replica d.iid d.value = result at hstep ⊢
  cases hstep with
  | ownKnown m received x _ hdecode hsender =>
    rw [ownUuid_eq hdecode, if_pos hsender] at hown
    cases hown
  | _ => exact ⟨rfl, rfl⟩

/-- A value of the node is looked up. Without a record in the table it leaves that as it is, and
otherwise it is reported, and the record is freed. -/
lemma onDeliver_of_own {d : Delivery} (hlocks : d.env.LocksSucceed) (replica : FdReplica)
    {uuid : Uuid} (hown : ownUuid replica.currentNodeIp.cstr d.value = some uuid) :
    (findDetectedState replica.detectedStates (zuuidStr uuid) = none ∧
      (onDeliver d.env replica d.iid d.value).1.detectedStates = replica.detectedStates ∧
      reports (onDeliver d.env replica d.iid d.value).2 = []) ∨
    ∃ x, findDetectedState replica.detectedStates (zuuidStr uuid) = some x ∧
      (onDeliver d.env replica d.iid d.value).1.detectedStates =
        freeDetectedState replica.detectedStates x d.env.freed ∧
      reports (onDeliver d.env replica d.iid d.value).2 =
        [((replica.detectedStates.data x).uuid,
          d.env.timeMs - (replica.detectedStates.data x).timeDiscovered)] := by
  have hstep := onDeliver_step d.env replica d.iid d.value
  generalize onDeliver d.env replica d.iid d.value = result at hstep ⊢
  cases hstep with
  | refused hlistener => exact absurd (hlistener.symm.trans (hlocks _)) Bool.false_ne_true
  | rejected received _ hdecode =>
    rw [ownUuid, hdecode] at hown
    cases hown
  | ownRefused m received _ _ _ hstates =>
    exact absurd (hstates.symm.trans (hlocks _)) Bool.false_ne_true
  | ownUnknown m received _ hdecode hsender _ hfind =>
    rw [ownUuid_eq hdecode, if_pos hsender] at hown
    obtain rfl := Option.some.inj hown
    exact Or.inl ⟨hfind, rfl, rfl⟩
  | ownKnown m received x _ hdecode hsender _ hfind =>
    rw [ownUuid_eq hdecode, if_pos hsender] at hown
    obtain rfl := Option.some.inj hown
    exact Or.inr ⟨x, hfind, rfl, rfl⟩
  | same m received current _ hdecode hsender =>
    rw [ownUuid_eq hdecode, if_neg hsender] at hown
    cases hown
  | changed m received current _ hdecode hsender =>
    rw [ownUuid_eq hdecode, if_neg hsender] at hown
    cases hown

/-- A value of the node without a record in the table leaves the table as it is. -/
lemma onDeliver_of_find_none {d : Delivery} (hlocks : d.env.LocksSucceed) (replica : FdReplica)
    {uuid : Uuid} (hown : ownUuid replica.currentNodeIp.cstr d.value = some uuid)
    (hfind : findDetectedState replica.detectedStates (zuuidStr uuid) = none) :
    (onDeliver d.env replica d.iid d.value).1.detectedStates = replica.detectedStates ∧
      reports (onDeliver d.env replica d.iid d.value).2 = [] := by
  rcases onDeliver_of_own hlocks replica hown with ⟨-, hresult⟩ | ⟨x, hsome, -⟩
  · exact hresult
  · rw [hfind] at hsome
    cases hsome

/-- A value of the node with a record in the table is reported, and the record is freed. -/
lemma onDeliver_of_find_some {d : Delivery} (hlocks : d.env.LocksSucceed) (replica : FdReplica)
    {uuid : Uuid} (hown : ownUuid replica.currentNodeIp.cstr d.value = some uuid) {x : ℕ}
    (hfind : findDetectedState replica.detectedStates (zuuidStr uuid) = some x) :
    (onDeliver d.env replica d.iid d.value).1.detectedStates =
        freeDetectedState replica.detectedStates x d.env.freed ∧
      reports (onDeliver d.env replica d.iid d.value).2 =
        [((replica.detectedStates.data x).uuid,
          d.env.timeMs - (replica.detectedStates.data x).timeDiscovered)] := by
  rcases onDeliver_of_own hlocks replica hown with ⟨hnone, -⟩ | ⟨y, hsome, hresult⟩
  · rw [hfind] at hnone
    cases hnone
  · rw [hfind] at hsome
    obtain rfl := Option.some.inj hsome
    exact hresult

/-- Submitting adds a record to the table, whatever becomes of the value. -/
lemma paxosSerializeAndSubmit_detectedStates {env : PaxosEnv}
    (hlock : env.lock .detectedStatesHashmapLock = true) (replica : FdReplica)
    (table : List NodeStruct) :
    (paxosSerializeAndSubmit env replica (some table)).1.detectedStates =
      addDetectedState replica.detectedStates env.record ⟨zuuidStr env.uuid, env.timeMs⟩ :=
  paxosSerializeAndSubmitWith_detectedStates _ hlock replica table

/-! ### The table in memory -/

section Memory

variable {states : UtTable ℕ DetectedState} {t : List DetectedState}

/-- A lookup finds what it finds in the list of records. -/
lemma lookupDetectedState_eq (hholds : HoldsRecords states t) (uuid : CStr) :
    lookupDetectedState states uuid = find DetectedState.uuid t uuid := by
  obtain ⟨found, hfind, hdata⟩ := hholds.find Function.injective_id uuid
  have hfound : hashFindStr hashJen states.toUtHash uuid = some found := hfind
  rw [lookupDetectedState, findDetectedState, hfound, ← hdata]
  rfl

/-- Where a lookup ends. -/
lemma findDetectedState_cases (hholds : HoldsRecords states t) (uuid : CStr) :
    ∃ elems, states.toUtHash.Represents hashJen elems ∧ t = elems.map states.data ∧
      (∀ x ∈ elems, states.hh.key x = (states.data x).uuid) ∧
      Found DetectedState.uuid states elems t uuid (findDetectedState states uuid) := by
  obtain ⟨elems, helems, heq, hkeys⟩ := hholds.elems
  obtain ⟨found, hfind, hfound⟩ := hholds.found Function.injective_id helems heq hkeys uuid
  have hsome : hashFindStr hashJen states.toUtHash uuid = some found := hfind
  refine ⟨elems, helems, heq, hkeys, ?_⟩
  rw [findDetectedState, hsome]
  exact hfound

/-- **Adding a record** with a new UUID, in memory that is not in use. -/
lemma HoldsRecords.add (hholds : HoldsRecords states t) {x : ℕ} (hx : x ∉ states.elements)
    {state : DetectedState} (hnew : state.uuid ∉ keys DetectedState.uuid t) :
    (addDetectedState states x state).elements = states.elements ++ [x] ∧
      HoldsRecords (addDetectedState states x state) (t ++ [state]) := by
  obtain ⟨h', hadd, helements, hrep⟩ := hholds.hashAddStr hx hnew
  have heq : hashAddStr hashJen states.toUtHash state.uuid x = some h' := hadd
  rw [HoldsRecords, addDetectedState, heq]
  exact ⟨helements, hrep⟩

/-- **Freeing and deleting a record** whose handle still reads as before. -/
lemma HoldsRecords.free (hholds : HoldsRecords states t) {uuid : CStr} {x : ℕ}
    (hfind : findDetectedState states uuid = some x) {freed : FreedRecord}
    (hfreed : freed.handle = states.handle x) :
    HoldsRecords (freeDetectedState states x freed)
      (t.filter fun state => state.uuid ≠ uuid) := by
  obtain ⟨elems, helems, heq, hkeys, hfound⟩ := findDetectedState_cases hholds uuid
  rw [hfind] at hfound
  cases hfound with
  | present _ hx _ hiff =>
    rw [HoldsRecords, freeDetectedState, hfreed]
    exact UtTable.Represents.hashDeleteOverwritten hholds helems heq hkeys hx hiff freed.key
      freed.contents

end Memory

/-! ### Calls on a sound table -/

/-- No call changes the address of the node. -/
lemma call_currentNodeIp (replica : FdReplica) (c : ReplicaCall) :
    (replica.call c).1.currentNodeIp = replica.currentNodeIp := by
  cases c with
  | submit env nodes => exact (paxosSerializeAndSubmit_frame env replica nodes).1
  | deliver d => exact onDeliver_currentNodeIp d.env replica d.iid d.value

/-- **What an intact call does to the table**: the records whose keys it does not return stay, and
the record that it makes is added.

**Proof sketch.** A submission adds its record. A delivery deletes the record it has found along
the links of that record, which takes out the record and nothing else. -/
lemma detectedStates_call {replica : FdReplica} {c : ReplicaCall} (hregular : c.Regular)
    (hmalloc : AllocatesUnused replica c) (hintact : Intact replica c) {t : List DetectedState}
    (hholds : HoldsRecords replica.detectedStates t)
    (hnodup : (keys DetectedState.uuid (afterAction DetectedState.uuid ReplicaCall.record
      (ReplicaCall.returned replica.currentNodeIp.cstr) t c)).Nodup) :
    HoldsRecords (replica.call c).1.detectedStates
      (afterAction DetectedState.uuid ReplicaCall.record
        (ReplicaCall.returned replica.currentNodeIp.cstr) t c) := by
  cases c with
  | submit env nodes =>
    obtain ⟨hlocks, table, rfl, -⟩ := hregular
    have hnew : zuuidStr env.uuid ∉ keys DetectedState.uuid t := by
      intro hmem
      simp only [afterAction, ReplicaCall.returned, ReplicaCall.returnedUuid, ReplicaCall.record,
        Option.map_none, Option.toList_some, keys, List.map_append, List.nodup_append] at hnodup
      exact hnodup.2.2 _ hmem _ (List.mem_singleton.mpr rfl) rfl
    show HoldsRecords (paxosSerializeAndSubmit env replica (some table)).1.detectedStates _
    rw [paxosSerializeAndSubmit_detectedStates (hlocks _)]
    exact (hholds.add hmalloc hnew).2
  | deliver d =>
    show HoldsRecords (onDeliver d.env replica d.iid d.value).1.detectedStates _
    simp only [afterAction, ReplicaCall.returned, ReplicaCall.returnedUuid, ReplicaCall.record,
      Option.toList_none, List.append_nil]
    cases hown : ownUuid replica.currentNodeIp.cstr d.value with
    | none =>
      rw [(onDeliver_of_not_own replica hown).1]
      exact hholds
    | some uuid =>
      simp only [Option.map_some]
      cases hfind : findDetectedState replica.detectedStates (zuuidStr uuid) with
      | none =>
        rw [(onDeliver_of_find_none hregular replica hown hfind).1]
        have hnone := lookupDetectedState_eq hholds (zuuidStr uuid)
        rw [lookupDetectedState, hfind, Option.map_none] at hnone
        rw [List.filter_eq_self.mpr fun state hstate => ?_]
        · exact hholds
        · have hne : state.uuid ≠ zuuidStr uuid := by
            intro heq
            exact (HashTable.find_eq_none _).mp hnone.symm (heq ▸ List.mem_map_of_mem hstate)
          exact decide_eq_true hne
      | some x =>
        rw [(onDeliver_of_find_some hregular replica hown hfind).1]
        exact hholds.free hfind (hintact uuid hown x hfind)

/-! ### Runs of calls -/

/-- What is outstanding is what is pending, of the records that the calls make and return. -/
lemma outstanding_iff_mem_pending {own : CStr} {calls : List ReplicaCall} {state : DetectedState} :
    Outstanding own calls state ↔
      state ∈ pending DetectedState.uuid ReplicaCall.record (ReplicaCall.returned own) calls := by
  rw [mem_pending]
  constructor
  · rintro ⟨pre, env, nodes, post, rfl, rfl, hpost⟩
    refine ⟨pre, _, post, rfl, rfl, fun c hc hreturned => ?_⟩
    obtain ⟨uuid, hown, heq⟩ := Option.map_eq_some_iff.mp hreturned
    exact hpost c hc (zuuidStr_injective heq ▸ hown)
  · rintro ⟨pre, c, post, rfl, hrecord, hpost⟩
    cases c with
    | deliver d => cases hrecord
    | submit env nodes =>
      cases hrecord
      refine ⟨pre, env, nodes, post, rfl, rfl, fun b hb hown => hpost b hb ?_⟩
      rw [ReplicaCall.returned, hown, Option.map_some]

/-- Submissions with distinct UUIDs make records with distinct keys. -/
lemma nodup_records {calls : List ReplicaCall} (hfresh : (calls.filterMap ReplicaCall.uuid).Nodup) :
    (calls.filterMap fun c => c.record.map DetectedState.uuid).Nodup := by
  have hkeys : (fun c : ReplicaCall => c.record.map DetectedState.uuid) =
      fun c => c.uuid.map zuuidStr := by
    funext c
    cases c with
    | submit env nodes => rfl
    | deliver d => rfl
  rw [hkeys, ← List.map_filterMap]
  exact hfresh.map zuuidStr_injective

/-- A table that holds the pending records is exact. -/
lemma exact_of_pending {own : CStr} {calls : List ReplicaCall} {states : UtTable ℕ DetectedState}
    (hholds : HoldsRecords states
      (pending DetectedState.uuid ReplicaCall.record (ReplicaCall.returned own) calls)) :
    Exact own calls states :=
  ⟨_, hholds, fun _ => outstanding_iff_mem_pending.symm⟩

/-- **The table refines the pending records** along a run whose calls are all intact.

**Proof sketch.** Induction on the calls from the right, with the step lemma
`FailureDetector.detectedStates_call`. -/
lemma detectedStates_run {init : FdReplica} (hinit : init.detectedStates.head = none)
    {calls : List ReplicaCall} (hregular : ∀ c ∈ calls, c.Regular)
    (hfresh : (calls.filterMap ReplicaCall.uuid).Nodup)
    (hmalloc : Runs.Along replicaStep AllocatesUnused init calls)
    (hintact : Runs.Along replicaStep Intact init calls) :
    ∃ replica, Runs.run replicaStep init calls = some replica ∧
      replica.currentNodeIp = init.currentNodeIp ∧
      HoldsRecords replica.detectedStates (pending DetectedState.uuid ReplicaCall.record
        (ReplicaCall.returned init.currentNodeIp.cstr) calls) := by
  induction calls using List.reverseRecOn with
  | nil => exact ⟨init, rfl, rfl, UtTable.represents_nil hinit⟩
  | append_singleton calls c ih =>
    have hnodup : (keys DetectedState.uuid (pending DetectedState.uuid ReplicaCall.record
        (ReplicaCall.returned init.currentNodeIp.cstr) (calls ++ [c]))).Nodup :=
      nodup_pending (nodup_records hfresh)
    rw [List.filterMap_append, List.nodup_append] at hfresh
    rw [Runs.along_concat] at hmalloc hintact
    obtain ⟨replica, hrun, hip, hholds⟩ :=
      ih (fun c hc => hregular c (List.mem_append_left _ hc)) hfresh.1 hmalloc.1 hintact.1
    refine ⟨(replica.call c).1, Runs.run_concat_eq_some.mpr ⟨replica, hrun, rfl⟩,
      (call_currentNodeIp replica c).trans hip, ?_⟩
    rw [pending_concat, ← hip] at hnodup ⊢
    rw [← hip] at hholds
    exact detectedStates_call (hregular c (by simp)) (hmalloc.2 replica hrun)
      (hintact.2 replica hrun) hholds hnodup

/-- Every call returns, so every run is possible. -/
lemma exists_replica_run (init : FdReplica) (calls : List ReplicaCall) :
    ∃ replica, Runs.run replicaStep init calls = some replica ∧
      replica.currentNodeIp = init.currentNodeIp := by
  induction calls using List.reverseRecOn with
  | nil => exact ⟨init, rfl, rfl⟩
  | append_singleton calls c ih =>
    obtain ⟨replica, hrun, hip⟩ := ih
    exact ⟨(replica.call c).1, Runs.run_concat_eq_some.mpr ⟨replica, hrun, rfl⟩,
      (call_currentNodeIp replica c).trans hip⟩

/-- **Delivering a value with a sound table**, if a record that it frees still reads as before. -/
lemma reportedOnce_of_intact {replica : FdReplica} {d : Delivery} (hlocks : d.env.LocksSucceed)
    (hintact : Intact replica (.deliver d)) {t : List DetectedState}
    (hholds : HoldsRecords replica.detectedStates t) :
    ReportedOnce replica.currentNodeIp.cstr replica d
      (onDeliver d.env replica d.iid d.value) := by
  have hfind : ∀ uuid, ownUuid replica.currentNodeIp.cstr d.value = some uuid → ∀ key,
      lookupDetectedState (onDeliver d.env replica d.iid d.value).1.detectedStates key =
        if key = zuuidStr uuid then none else lookupDetectedState replica.detectedStates key := by
    intro uuid hown key
    cases hfound : findDetectedState replica.detectedStates (zuuidStr uuid) with
    | none =>
      rw [(onDeliver_of_find_none hlocks replica hown hfound).1]
      split
      · next hkey => rw [hkey, lookupDetectedState, hfound, Option.map_none]
      · rfl
    | some x =>
      rw [(onDeliver_of_find_some hlocks replica hown hfound).1,
        lookupDetectedState_eq (hholds.free hfound (hintact uuid hown x hfound)),
        lookupDetectedState_eq hholds, HashTable.find_filter]
  refine ⟨fun uuid hown => ?_, hfind, fun uuid hown d' hlocks' hown' => ?_,
    fun hother => onDeliver_of_not_own replica hother⟩
  · rw [lookupDetectedState]
    cases h : findDetectedState replica.detectedStates (zuuidStr uuid) with
    | none => exact (onDeliver_of_find_none hlocks replica hown h).2
    | some x => exact (onDeliver_of_find_some hlocks replica hown h).2
  · rw [← onDeliver_currentNodeIp d.env replica d.iid d.value] at hown'
    refine onDeliver_of_find_none hlocks' _ hown' ?_
    have hgone := hfind uuid hown (zuuidStr uuid)
    rw [if_pos rfl, lookupDetectedState, Option.map_eq_none_iff] at hgone
    exact hgone

/-! ### Unspecified contents -/

/-- If no value is delivered back, no record is freed.

**Proof sketch.** Induction on the calls from the right. Before the last one the table is exact, so
a record that it frees would be that of an earlier submission. -/
lemma intact_of_neverReturned {init : FdReplica} (hinit : init.detectedStates.head = none)
    {calls : List ReplicaCall} (hregular : ∀ c ∈ calls, c.Regular)
    (hfresh : (calls.filterMap ReplicaCall.uuid).Nodup)
    (hmalloc : Runs.Along replicaStep AllocatesUnused init calls)
    (hnever : NeverReturned init.currentNodeIp.cstr calls) :
    Runs.Along replicaStep Intact init calls := by
  induction calls using List.reverseRecOn with
  | nil => exact Runs.along_nil
  | append_singleton calls c ih =>
    rw [List.filterMap_append, List.nodup_append] at hfresh
    obtain ⟨hcalls, -, hlast⟩ := List.pairwise_append.mp hnever
    have hregular' : ∀ b ∈ calls, b.Regular := fun b hb => hregular b (List.mem_append_left _ hb)
    have hmalloc' := (Runs.along_concat.mp hmalloc).1
    have hintact := ih hregular' hfresh.1 hmalloc' hcalls
    refine Runs.along_concat.mpr ⟨hintact, fun replica hrun => ?_⟩
    obtain ⟨replica', hrun', hip, hholds⟩ :=
      detectedStates_run hinit hregular' hfresh.1 hmalloc' hintact
    obtain rfl : replica' = replica := Option.some.inj (hrun'.symm.trans hrun)
    cases c with
    | submit env nodes => trivial
    | deliver d =>
      intro uuid hown x hfind
      have hlookup := lookupDetectedState_eq hholds (zuuidStr uuid)
      rw [lookupDetectedState, hfind, Option.map_some] at hlookup
      obtain ⟨hmem, hkey⟩ := HashTable.find_eq_some _ hlookup.symm
      rw [← outstanding_iff_mem_pending] at hmem
      obtain ⟨pre, env, nodes, post, rfl, hstate, -⟩ := hmem
      rw [hstate] at hkey
      have huuid : env.uuid = uuid := zuuidStr_injective hkey
      refine absurd ?_ (hlast (.submit env nodes) (by simp) (.deliver d) (by simp) env.uuid rfl)
      show ownUuid init.currentNodeIp.cstr d.value = some env.uuid
      rw [← hip, huuid, hown]

/-- What a call submits, returns and needs does not depend on the contents of freed memory. -/
lemma forgetFreed_facts (own : CStr) (c : ReplicaCall) :
    c.forgetFreed.uuid = c.uuid ∧ c.forgetFreed.returnedUuid own = c.returnedUuid own ∧
      (c.forgetFreed.Regular ↔ c.Regular) := by
  cases c with
  | submit env nodes => exact ⟨rfl, rfl, Iff.rfl⟩
  | deliver d => exact ⟨rfl, rfl, Iff.rfl⟩

/-- The locks and the serialisation of the same calls succeed. -/
lemma SameButFreed.regular {calls calls' : List ReplicaCall} (h : SameButFreed calls calls')
    (hregular : ∀ c ∈ calls, c.Regular) : ∀ c ∈ calls', c.Regular := by
  intro c hc
  have hmem : c.forgetFreed ∈ calls.map ReplicaCall.forgetFreed := h ▸ List.mem_map_of_mem hc
  obtain ⟨b, hb, heq⟩ := List.mem_map.mp hmem
  rw [← (forgetFreed_facts [] c).2.2, ← heq, (forgetFreed_facts [] b).2.2]
  exact hregular b hb

/-- The same calls submit the same UUIDs. -/
lemma SameButFreed.uuids {calls calls' : List ReplicaCall} (h : SameButFreed calls calls') :
    calls'.filterMap ReplicaCall.uuid = calls.filterMap ReplicaCall.uuid := by
  have huuid : ReplicaCall.uuid ∘ ReplicaCall.forgetFreed = ReplicaCall.uuid := by
    funext c
    exact (forgetFreed_facts [] c).1
  rw [← huuid, ← List.filterMap_map, ← List.filterMap_map, h]

/-- The same calls deliver the same values back. -/
lemma SameButFreed.neverReturned {own : CStr} {calls calls' : List ReplicaCall}
    (h : SameButFreed calls calls') (hnever : NeverReturned own calls) :
    NeverReturned own calls' := by
  have hforget : ∀ cs : List ReplicaCall,
      NeverReturned own (cs.map ReplicaCall.forgetFreed) ↔ NeverReturned own cs := by
    intro cs
    rw [NeverReturned, List.pairwise_map]
    simp only [(forgetFreed_facts own _).1, (forgetFreed_facts own _).2.1]
    rfl
  rw [← hforget, h, hforget]
  exact hnever

/-- If no value is delivered back, every submission is outstanding. -/
lemma outstanding_of_neverReturned {own : CStr} {calls : List ReplicaCall}
    (hnever : NeverReturned own calls) {env : PaxosEnv} {nodes : Option (List NodeStruct)}
    (hmem : .submit env nodes ∈ calls) :
    Outstanding own calls ⟨zuuidStr env.uuid, env.timeMs⟩ := by
  obtain ⟨pre, post, rfl⟩ := List.append_of_mem hmem
  have hpost := (List.pairwise_cons.mp (List.pairwise_append.mp hnever).2.1).1
  exact ⟨pre, env, nodes, post, rfl, rfl, fun c hc => hpost c hc env.uuid rfl⟩

/-- What is outstanding before a delivery is outstanding after it, but for the record of the value
that is delivered. -/
lemma Outstanding.deliver {own : CStr} {calls : List ReplicaCall} {state : DetectedState}
    (h : Outstanding own calls state) {d : Delivery} {uuid : Uuid}
    (hown : ownUuid own d.value = some uuid) (hne : state.uuid ≠ zuuidStr uuid) :
    Outstanding own (calls ++ [.deliver d]) state := by
  rw [outstanding_iff_mem_pending] at h ⊢
  rw [pending_concat, mem_afterAction]
  refine Or.inl ⟨h, fun hreturned => hne ?_⟩
  rw [ReplicaCall.returned, ReplicaCall.returnedUuid, hown, Option.map_some] at hreturned
  exact (Option.some.inj hreturned).symm

/-- A submission is no longer outstanding once its value has just been delivered. -/
lemma not_outstanding_of_delivered {own : CStr} {calls : List ReplicaCall} {d : Delivery}
    {uuid : Uuid} (hown : ownUuid own d.value = some uuid) (timeMs : ℚ) :
    ¬ Outstanding own (calls ++ [.deliver d]) ⟨zuuidStr uuid, timeMs⟩ := by
  rintro ⟨pre, env, nodes, post, hsplit, hstate, hpost⟩
  have huuid : uuid = env.uuid := zuuidStr_injective (congrArg DetectedState.uuid hstate)
  rcases Runs.concat_eq_append_cons.mp hsplit with ⟨-, hcall, -⟩ | ⟨post', -, rfl⟩
  · cases hcall
  · refine hpost (.deliver d) (by simp) ?_
    rw [← huuid]
    exact hown

/-- **Without links the other records are lost**: no record is outstanding but that of the value
that has been delivered, if the table is exact afterwards. -/
lemma not_exact_of_no_links {own : CStr} {calls : List ReplicaCall} {d : Delivery} {uuid : Uuid}
    (hown : ownUuid own d.value = some uuid) {states : UtTable ℕ DetectedState} {x : ℕ}
    {freed : FreedRecord} (hprev : freed.handle.prev = none) (hnext : freed.handle.next = none)
    {state : DetectedState} (hout : Outstanding own calls state)
    (hne : state.uuid ≠ zuuidStr uuid) :
    ¬ Exact own (calls ++ [.deliver d]) (freeDetectedState states x freed) := by
  rintro ⟨t, hholds, hmem⟩
  have hstate := (hmem state).mpr (hout.deliver hown hne)
  obtain ⟨elems, helems, heq, -⟩ := hholds.elems
  have hhead : (freeDetectedState states x freed).head = none :=
    hashDeleteOverwritten_head_of_none _ _ hprev hnext
  have hnil : elems = [] := List.head?_eq_none_iff.mp (helems.head.symm.trans hhead)
  rw [heq, hnil] at hstate
  cases hstate

/-- **With a record before it the first record stays**: the table is not exact afterwards if the
memory of the record still reads as the record. -/
lemma not_exact_of_prev {own : CStr} {calls : List ReplicaCall} {d : Delivery} {uuid : Uuid}
    (hown : ownUuid own d.value = some uuid) {states : UtTable ℕ DetectedState} {x : ℕ}
    (hx : states.head = some x) {freed : FreedRecord} (hprev : freed.handle.prev ≠ none)
    {timeMs : ℚ} (hcontents : freed.contents = ⟨zuuidStr uuid, timeMs⟩) :
    ¬ Exact own (calls ++ [.deliver d]) (freeDetectedState states x freed) := by
  rintro ⟨t, hholds, hmem⟩
  obtain ⟨elems, helems, heq, -⟩ := hholds.elems
  have hhead : (freeDetectedState states x freed).head = some x :=
    (hashDeleteOverwritten_head_of_prev _ _ hprev).trans hx
  have hxmem : x ∈ elems := List.mem_of_head? (helems.head.symm.trans hhead)
  have hdata : (freeDetectedState states x freed).data x = ⟨zuuidStr uuid, timeMs⟩ :=
    (Function.update_self _ _ _).trans hcontents
  have hstate : ⟨zuuidStr uuid, timeMs⟩ ∈ t := by
    rw [heq, ← hdata]
    exact List.mem_map_of_mem hxmem
  exact not_outstanding_of_delivered hown timeMs ((hmem _).mp hstate)

/-- **Some contents of a freed record damage the table**, if a value is delivered back while its
record is in the table. Either the table has another record, which is lost if the links read as
null, or the record is the only one, and stays if it reads as if there were one before it. -/
lemma exists_freed_not_exact {own : CStr} {calls : List ReplicaCall} {uuid : Uuid}
    {states : UtTable ℕ DetectedState} (hexact : Exact own calls states) {timeMs : ℚ}
    (hout : Outstanding own calls ⟨zuuidStr uuid, timeMs⟩) :
    ∃ x freed, findDetectedState states (zuuidStr uuid) = some x ∧
      ∀ d : Delivery, ownUuid own d.value = some uuid →
        ¬ Exact own (calls ++ [.deliver d]) (freeDetectedState states x freed) := by
  obtain ⟨t, hholds, hmem⟩ := hexact
  have hstate := (hmem _).mpr hout
  obtain ⟨elems, helems, heq, hkeys, hfound⟩ := findDetectedState_cases hholds (zuuidStr uuid)
  cases hfind : findDetectedState states (zuuidStr uuid) with
  | none =>
    rw [hfind] at hfound
    cases hfound with
    | absent hnew => exact absurd (List.mem_map_of_mem hstate) hnew
  | some x =>
    rw [hfind] at hfound
    cases hfound with
    | present _ hx _ hiff =>
      refine ⟨x, ?_⟩
      by_cases hother : ∃ y ∈ elems, y ≠ x
      · obtain ⟨y, hy, hne⟩ := hother
        have houty := (hmem (states.data y)).mp (heq ▸ List.mem_map_of_mem hy)
        exact ⟨noRecord, rfl, fun d hown => not_exact_of_no_links hown rfl rfl houty
          fun hkey => hne ((hiff y hy).mp hkey)⟩
      · have hhead : states.head = some x := by
          cases elems with
          | nil => cases hx
          | cons y elems =>
            have hy : y = x := by
              by_contra hne
              exact hother ⟨y, List.mem_cons_self, hne⟩
            rw [helems.head, hy]
            rfl
        exact ⟨⟨{ states.handle x with prev := some x }, [], ⟨zuuidStr uuid, timeMs⟩⟩, rfl,
          fun d hown => not_exact_of_prev hown hhead (Option.some_ne_none x) rfl⟩

/-- **The table goes wrong as soon as a value is delivered back**, with some contents of the freed
record.

**Proof sketch.** Induction on the calls from the right. Before the last one the table is exact, so
if that delivers a value back its record is in the table, and some contents of the record damage
the table (`FailureDetector.exists_freed_not_exact`). -/
lemma neverReturned_of_exact {init : FdReplica} {calls : List ReplicaCall}
    (hregular : ∀ c ∈ calls, c.Regular)
    (hmalloc : Runs.Along replicaStep AllocatesUnused init calls)
    (hexact : ∀ calls', SameButFreed calls calls' → ∀ pre replica, pre <+: calls' →
      Runs.Along replicaStep AllocatesUnused init pre →
      Runs.run replicaStep init pre = some replica →
        Exact init.currentNodeIp.cstr pre replica.detectedStates) :
    NeverReturned init.currentNodeIp.cstr calls := by
  induction calls using List.reverseRecOn with
  | nil => exact List.Pairwise.nil
  | append_singleton calls c ih =>
    have hmalloc' := (Runs.along_concat.mp hmalloc).1
    have hcalls : NeverReturned init.currentNodeIp.cstr calls := by
      refine ih (fun b hb => hregular b (List.mem_append_left _ hb)) hmalloc' fun calls' hsame pre
        replica hpre => hexact (calls' ++ [c]) ?_ pre replica (hpre.trans (List.prefix_append _ _))
      rw [SameButFreed, List.map_append, List.map_append, hsame]
    refine List.pairwise_append.mpr ⟨hcalls, List.pairwise_singleton _ _, ?_⟩
    intro b hb c' hc' uuid huuid hreturned
    obtain rfl := List.mem_singleton.mp hc'
    cases b with
    | deliver d => cases huuid
    | submit env nodes =>
      obtain rfl : env.uuid = uuid := Option.some.inj huuid
      cases c' with
      | submit env' nodes' => cases hreturned
      | deliver d =>
        have hout := outstanding_of_neverReturned hcalls hb
        obtain ⟨replica, hrun, hip⟩ := exists_replica_run init calls
        have hbefore := hexact _ rfl calls replica (List.prefix_append _ _) hmalloc' hrun
        obtain ⟨x, freed, hfind, hwrong⟩ := exists_freed_not_exact hbefore hout
        set d' : Delivery := { d with env := { d.env with freed := freed } }
        have hlocks : d'.env.LocksSucceed := hregular (.deliver d) (by simp)
        have hsame : SameButFreed (calls ++ [.deliver d]) (calls ++ [.deliver d']) := by
          rw [SameButFreed, List.map_append, List.map_append]
          rfl
        have hafter := hexact _ hsame _ (replica.call (.deliver d')).1 (List.prefix_refl _)
          (Runs.along_concat.mpr ⟨hmalloc', fun _ _ => trivial⟩)
          (Runs.run_concat_eq_some.mpr ⟨replica, hrun, rfl⟩)
        have hown : ownUuid replica.currentNodeIp.cstr d'.value = some env.uuid := hip ▸ hreturned
        have hstates : (replica.call (.deliver d')).1.detectedStates =
            freeDetectedState replica.detectedStates x freed :=
          (onDeliver_of_find_some hlocks replica hown hfind).1
        rw [hstates] at hafter
        exact hwrong d' hreturned hafter

/-- **The timing table over a run.** Let the locks and the serialisation of all calls succeed, every
submission have a UUID of its own, and every record be in memory that is not in use. Then if the
handle of each freed record still reads as before, the table is sound and holds one record with its
own time for each submission that has not been delivered back, and no others. The next delivery of a
value of the node reports its record once, with the time since its submission, removes it and leaves
the others as they are, and delivering the value again does nothing. If the contents of a freed
record are unspecified, so that the table is to be right throughout the run for all of them, this
holds exactly if nothing is delivered back.

**Proof sketch.** The run lemma `FailureDetector.detectedStates_run` and the step lemma
`FailureDetector.reportedOnce_of_intact`. With unspecified contents, nothing delivered back means
that nothing is freed, and the first record that is freed can be made to damage the table. -/
theorem timing_table_exact (ip : IpBuffer) (lastLogged : ℚ) (calls : List ReplicaCall)
    (hregular : ∀ c ∈ calls, c.Regular) (hfresh : (calls.filterMap ReplicaCall.uuid).Nodup)
    (hmalloc : Runs.Along replicaStep AllocatesUnused (initReplica ip lastLogged) calls) :
    (Runs.Along replicaStep Intact (initReplica ip lastLogged) calls →
      ∃ replica, Runs.run replicaStep (initReplica ip lastLogged) calls = some replica ∧
        Exact ip.cstr calls replica.detectedStates ∧
        ∀ d : Delivery, d.env.LocksSucceed → Intact replica (.deliver d) →
          ReportedOnce ip.cstr replica d (onDeliver d.env replica d.iid d.value)) ∧
    ((∀ calls', SameButFreed calls calls' → ∀ pre replica, pre <+: calls' →
          Runs.Along replicaStep AllocatesUnused (initReplica ip lastLogged) pre →
          Runs.run replicaStep (initReplica ip lastLogged) pre = some replica →
          Exact ip.cstr pre replica.detectedStates) ↔
      NeverReturned ip.cstr calls) := by
  have hinit : (initReplica ip lastLogged).detectedStates.head = none := rfl
  refine ⟨fun hintact => ?_, fun hexact => ?_,
    fun hnever calls' hsame pre replica hpre hmallocPre hrun => ?_⟩
  · obtain ⟨replica, hrun, hip, hholds⟩ :=
      detectedStates_run hinit hregular hfresh hmalloc hintact
    refine ⟨replica, hrun, exact_of_pending hholds, fun d hlocks hd => ?_⟩
    have hreported := reportedOnce_of_intact hlocks hd hholds
    rwa [hip] at hreported
  · exact neverReturned_of_exact hregular hmalloc hexact
  · have hregularPre : ∀ c ∈ pre, c.Regular := fun c hc => hsame.regular hregular c (hpre.subset hc)
    have hfreshPre : (pre.filterMap ReplicaCall.uuid).Nodup := by
      rw [← hsame.uuids] at hfresh
      exact hfresh.sublist (hpre.sublist.filterMap ReplicaCall.uuid)
    have hintact := intact_of_neverReturned hinit hregularPre hfreshPre hmallocPre
      ((hsame.neverReturned hnever).sublist hpre.sublist)
    obtain ⟨replica', hrun', -, hholds⟩ :=
      detectedStates_run hinit hregularPre hfreshPre hmallocPre hintact
    obtain rfl : replica' = replica := Option.some.inj (hrun'.symm.trans hrun)
    exact exact_of_pending hholds

/-- The first record of a replica is the only element of its table. -/
lemma elements_first (ip : IpBuffer) (lastLogged : ℚ) (table : List NodeStruct) :
    (paxosSerializeAndSubmit quietEnv (initReplica ip lastLogged)
      (some table)).1.detectedStates.elements = [0] ∧
    HoldsRecords (paxosSerializeAndSubmit quietEnv (initReplica ip lastLogged)
      (some table)).1.detectedStates [⟨zuuidStr quietEnv.uuid, 0⟩] := by
  have hnone : HoldsRecords (initReplica ip lastLogged).detectedStates [] :=
    UtTable.represents_nil rfl
  rw [paxosSerializeAndSubmit_detectedStates (quietEnv_locks _)]
  exact hnone.add List.not_mem_nil List.not_mem_nil

/-- The node `1` submits the table with itself, and the value is delivered back to it. -/
theorem timing_table_exact_one :
    ∃ value env replica, decode value = some ⟨ipOne.1, quietEnv.uuid, [ipOne.1]⟩ ∧
      Runs.run replicaStep (initReplica (IpBuffer.set (CharArray.zero _) ipOne) 0)
        [.submit quietEnv (some [nodeWithIp ipOne]), .deliver ⟨env, 1, value⟩] = some replica ∧
      Exact ipOne.1 [.submit quietEnv (some [nodeWithIp ipOne]), .deliver ⟨env, 1, value⟩]
        replica.detectedStates := by
  obtain ⟨value, -, hdecode⟩ := exists_submitted_singleton ipOne quietEnv.uuid
  set own : IpBuffer := IpBuffer.set (CharArray.zero _) ipOne with hown
  set first : ReplicaCall := .submit quietEnv (some [nodeWithIp ipOne]) with hfirst
  set before : FdReplica := ((initReplica own 0).call first).1 with hbefore
  -- the only record is at the address `0`, and its handle reads as before
  set env : PaxosEnv :=
    { quietEnv with freed := { quietEnv.freed with handle := before.detectedStates.handle 0 } }
  have hintact : Runs.Along replicaStep Intact (initReplica own 0)
      [first, .deliver ⟨env, 1, value⟩] := by
    refine Runs.along_cons.mpr ⟨trivial, fun t ht => ?_⟩
    obtain rfl : before = t := Option.some.inj ht
    refine Runs.along_cons.mpr ⟨fun uuid _ x hfind => ?_, fun _ _ => Runs.along_nil⟩
    obtain ⟨hzero, hholds⟩ := elements_first own 0 [nodeWithIp ipOne]
    obtain ⟨elems, helems, -, -, hfound⟩ := findDetectedState_cases hholds (zuuidStr uuid)
    have hfind' : findDetectedState (paxosSerializeAndSubmit quietEnv (initReplica own 0)
        (some [nodeWithIp ipOne])).1.detectedStates (zuuidStr uuid) = some x := hfind
    rw [hfind'] at hfound
    cases hfound with
    | present _ hx =>
      rw [← helems.elements_eq, hzero, List.mem_singleton] at hx
      rw [hx]
  have hmalloc : Runs.Along replicaStep AllocatesUnused (initReplica own 0)
      [first, .deliver ⟨env, 1, value⟩] := by
    refine Runs.along_cons.mpr ⟨List.not_mem_nil, fun t ht => ?_⟩
    exact Runs.along_cons.mpr ⟨trivial, fun _ _ => Runs.along_nil⟩
  obtain ⟨replica, hrun, hexact, -⟩ := (timing_table_exact own 0
    [first, .deliver ⟨env, 1, value⟩]
    (by simp [first, env, ReplicaCall.Regular, PaxosEnv.LocksSucceed, quietEnv])
    (List.nodup_singleton quietEnv.uuid) hmalloc).1 hintact
  rw [hown, IpBuffer.cstr_set] at hexact
  exact ⟨value, env, replica, hdecode, hrun, hexact⟩

/-- **The table is not always right**: when the first of two outstanding values is delivered back
and the links of its freed record read as null, the record of the second is lost as well. -/
theorem timing_table_not_exact :
    ¬ ∀ (ip : IpBuffer) (lastLogged : ℚ) (calls : List ReplicaCall),
      (∀ c ∈ calls, c.Regular) → (calls.filterMap ReplicaCall.uuid).Nodup →
      Runs.Along replicaStep AllocatesUnused (initReplica ip lastLogged) calls →
      ∀ replica, Runs.run replicaStep (initReplica ip lastLogged) calls = some replica →
        Exact ip.cstr calls replica.detectedStates := by
  intro h
  obtain ⟨value, -, hdecode⟩ := exists_submitted_singleton ipOne quietEnv.uuid
  set own : IpBuffer := IpBuffer.set (CharArray.zero _) ipOne with hown
  set env : PaxosEnv :=
    { quietEnv with uuid := IpBuffer.set (CharArray.zero _) ipOne, record := 1 } with henv
  have hlocks : env.LocksSucceed := fun _ => rfl
  have hne : quietEnv.uuid ≠ env.uuid := by decide
  set first : ReplicaCall := .submit quietEnv (some [nodeWithIp ipOne])
  set second : ReplicaCall := .submit env (some [nodeWithIp ipOne])
  set back : ReplicaCall := .deliver ⟨quietEnv, 1, value⟩
  have hregular : ∀ c ∈ [first, second, back], c.Regular := by
    simp [first, second, back, ReplicaCall.Regular, quietEnv_locks, hlocks]
  have huuids : [quietEnv.uuid, env.uuid].Nodup := by simpa using hne
  have hmalloc : Runs.Along replicaStep AllocatesUnused (initReplica own 0)
      [first, second, back] := by
    refine Runs.along_cons.mpr ⟨List.not_mem_nil, fun t ht => ?_⟩
    obtain rfl := Option.some.inj ht
    refine Runs.along_cons.mpr ⟨?_, fun _ _ => Runs.along_cons.mpr ⟨trivial, fun _ _ =>
      Runs.along_nil⟩⟩
    show 1 ∉ (paxosSerializeAndSubmit quietEnv (initReplica own 0)
      (some [nodeWithIp ipOne])).1.detectedStates.elements
    rw [(elements_first own 0 _).1]
    decide
  have hreturned : ownUuid own.cstr value = some quietEnv.uuid := by
    rw [ownUuid_eq hdecode, hown, IpBuffer.cstr_set, if_pos rfl]
  obtain ⟨before, hrun, hip⟩ := exists_replica_run (initReplica own 0) [first, second]
  have hbefore := h own 0 [first, second] (fun c hc => hregular c (by simp at hc ⊢; tauto)) huuids
    (Runs.along_concat.mp hmalloc).1 before hrun
  have hout : Outstanding own.cstr [first, second] ⟨zuuidStr env.uuid, 0⟩ :=
    ⟨[first], env, _, [], rfl, rfl, fun c hc => absurd hc List.not_mem_nil⟩
  have hfirst : Outstanding own.cstr [first, second] ⟨zuuidStr quietEnv.uuid, 0⟩ := by
    refine ⟨[], quietEnv, _, [second], rfl, rfl, fun c hc => ?_⟩
    rw [List.mem_singleton.mp hc]
    exact nofun
  obtain ⟨x, hfind⟩ : ∃ x, findDetectedState before.detectedStates (zuuidStr quietEnv.uuid) =
      some x := by
    obtain ⟨x, freed, hfind, -⟩ := exists_freed_not_exact hbefore hfirst
    exact ⟨x, hfind⟩
  have hstates : (before.call back).1.detectedStates =
      freeDetectedState before.detectedStates x quietEnv.freed :=
    (onDeliver_of_find_some quietEnv_locks before (hip ▸ hreturned) hfind).1
  have hafter := h own 0 [first, second, back] hregular huuids hmalloc (before.call back).1
    (Runs.run_concat_eq_some.mpr ⟨before, hrun, rfl⟩)
  rw [hstates] at hafter
  exact not_exact_of_no_links hreturned rfl rfl hout
    (fun hkey => hne (zuuidStr_injective hkey).symm) hafter

end FailureDetector
