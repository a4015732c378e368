import FailureDetector.Uthash.Model
import FailureDetector.Utils

set_option relaxedAutoImplicit false
set_option autoImplicit false

/-!
# The Paxos replica (`paxos_replica.c`)

A replica submits the nodes table of its detector whenever that changes, and learns the
membership list of every value that Paxos decides. It ignores the values it has submitted itself,
except for measuring the time they took.

The records of its submissions are kept in a table of `uthash.h`, in memory, because `on_deliver`
frees a record before it deletes it from the table.

The lists of a replica are those of any implementation of `zlist`. What can be seen of a replica is a
replica itself, and does what the replica does.

What a call depends on besides its arguments (whether a mutex can be locked, the time, a new UUID,
the memory that is allocated, is not initialised or has been freed) is given by a `PaxosEnv`.

## Main definitions

* `FailureDetector.FdReplicaOf` — `fd_replica` with its `membership_state` and the global
  `detected_states`.
* `FailureDetector.FdReplica` — what can be seen of it.
* `FailureDetector.findDetectedState`, `FailureDetector.addDetectedState`,
  `FailureDetector.freeDetectedState` — what is done to `detected_states`.
* `FailureDetector.initState` — `init_state`, and what can be seen of its replica,
  `FailureDetector.initReplica`.
* `FailureDetector.onDeliver` — `on_deliver`.
* `FailureDetector.paxosSerializeAndSubmit` — `paxos_serialize_and_submit`.
-/

namespace FailureDetector

open CString Wire

/-- `detected_state_struct`. -/
structure DetectedState where
  uuid : CStr
  timeDiscovered : ℚ

/-- `fd_replica` with its `membership_state` and the table `detected_states`, for an implementation
`L` of its lists. -/
@[ext] structure FdReplicaOf (L : Type) where
  currentNodeIp : IpBuffer
  instanceId : ℕ
  paxosStateArray : L
  paxosReceivedStateArray : L
  detectedStateArray : L
  lastLoggedStateTimeMs : ℚ
  detectedStates : UtTable ℕ DetectedState

/-- What can be seen of a replica. -/
abbrev FdReplica : Type := FdReplicaOf (Zlist CStr)

/-- **What can be seen of a replica**: of its lists, their items and cursors. -/
def FdReplicaOf.view {L : Type} [ZlistImpl L CStr] (replica : FdReplicaOf L) : FdReplica where
  currentNodeIp := replica.currentNodeIp
  instanceId := replica.instanceId
  paxosStateArray := ZlistImpl.view replica.paxosStateArray
  paxosReceivedStateArray := ZlistImpl.view replica.paxosReceivedStateArray
  detectedStateArray := ZlistImpl.view replica.detectedStateArray
  lastLoggedStateTimeMs := replica.lastLoggedStateTimeMs
  detectedStates := replica.detectedStates

/-- What the memory of a record reads as once it has been freed. -/
structure FreedRecord where
  handle : UtHashHandle ℕ
  /-- The string that its UUID pointed to. -/
  key : CStr
  contents : DetectedState

/-- What one call depends on besides its arguments. -/
structure PaxosEnv where
  /-- Whether `pthread_mutex_lock` succeeds. -/
  lock : Mutex → Bool
  /-- `get_current_time_ms`. -/
  timeMs : ℚ
  /-- The UUID that `zuuid_new` generates. -/
  uuid : Uuid
  /-- What the local buffer of `get_membership_group_from_hash` contains at first. -/
  temp : IpBuffer
  /-- What the local buffer of `serialize_hash` contains at first. -/
  ipaddress : IpBuffer
  /-- The address of the memory that is allocated for a record. -/
  record : ℕ
  /-- What a record reads as once it has been freed. -/
  freed : FreedRecord

/-- Every mutex can be locked. -/
def PaxosEnv.LocksSucceed (env : PaxosEnv) : Prop := ∀ m, env.lock m = true

/-- A hexadecimal digit, in upper case. -/
def hexDigit (d : Fin 16) : CChar :=
  ⟨UInt8.ofNat (if d.1 < 10 then 48 + d.1 else 55 + d.1), by revert d; decide⟩

/-- `zuuid_str`: the UUID in printable form, which is documented to be its 32 hexadecimal digits, in
upper case. -/
def zuuidStr (uuid : Uuid) : CStr :=
  uuid.bytes.flatMap fun b =>
    [hexDigit ⟨b.toNat / 16, by have := b.toNat_lt; omega⟩, hexDigit ⟨b.toNat % 16, by omega⟩]

/-- `HASH_FIND_STR` in `detected_states`. A lookup that runs on in a damaged table finds nothing. -/
def findDetectedState (states : UtTable ℕ DetectedState) (uuid : CStr) : Option ℕ :=
  (hashFindStr hashJen states.toUtHash uuid).join

/-- `HASH_ADD_STR` to `detected_states`, of a record at the address `x`. If the expansion of a
damaged table runs on, the record has been counted. -/
def addDetectedState (states : UtTable ℕ DetectedState) (x : ℕ) (state : DetectedState) :
    UtTable ℕ DetectedState where
  toUtHash := (hashAddStr hashJen states.toUtHash state.uuid x).getD
    { states.toUtHash with tbl := { states.tbl with numItems := states.tbl.numItems + 1 } }
  data := Function.update states.data x state

/-- `free` of the record at the address `x` and of its UUID, and then `HASH_DEL` of the record. -/
def freeDetectedState (states : UtTable ℕ DetectedState) (x : ℕ) (freed : FreedRecord) :
    UtTable ℕ DetectedState where
  toUtHash := hashDeleteOverwritten
    { states.toUtHash with
      hh := { states.hh with key := Function.update states.hh.key x freed.key } }
    x freed.handle
  data := Function.update states.data x freed.contents

section Calls

variable {L : Type} [ZlistImpl L CStr]

/-- `init_state`, with the address that `main` has stored and an empty table `detected_states`.
The time of the last logged state is not initialised. -/
def initState (currentNodeIp : IpBuffer) (lastLoggedStateTimeMs : ℚ) : FdReplicaOf L where
  currentNodeIp := currentNodeIp
  instanceId := 0
  paxosStateArray := zlistNew
  paxosReceivedStateArray := zlistNew
  detectedStateArray := zlistNew
  lastLoggedStateTimeMs := lastLoggedStateTimeMs
  detectedStates := UtTable.empty (hashMakeTable 0) fun _ => ⟨[], 0⟩

/-- What can be seen of the replica that `init_state` sets up. -/
abbrev initReplica (currentNodeIp : IpBuffer) (lastLoggedStateTimeMs : ℚ) : FdReplica :=
  initState currentNodeIp lastLoggedStateTimeMs

/-- The part of `on_deliver` for a message from the same node. -/
def onDeliverOwn (env : PaxosEnv) (replica : FdReplicaOf L) (uuid : Uuid) :
    FdReplicaOf L × List Event :=
  if env.lock .detectedStatesHashmapLock = false then
    -- returns without unlocking the listener mutex
    (replica, [.printf "ERROR: can't get mutex \n"])
  else
    match findDetectedState replica.detectedStates (zuuidStr uuid) with
    | none =>
      (replica, [.lock .detectedStatesHashmapLock, .unlock .detectedStatesHashmapLock,
        .unlock .paxosListenerMutex])
    | some x =>
      let state := replica.detectedStates.data x
      -- the record is freed before it is deleted
      ({ replica with detectedStates := freeDetectedState replica.detectedStates x env.freed },
        [.lock .detectedStatesHashmapLock,
          .reachedConsensus state.uuid (env.timeMs - state.timeDiscovered),
          .unlock .detectedStatesHashmapLock, .unlock .paxosListenerMutex])

/-- The part of `on_deliver` for a message from another node. -/
def onDeliverForeign (env : PaxosEnv) (replica : FdReplicaOf L) (iid : ℕ) :
    FdReplicaOf L × List Event :=
  let (equal, received, current) :=
    isEqualLists replica.paxosReceivedStateArray replica.paxosStateArray
  if equal then
    ({ replica with paxosReceivedStateArray := received, paxosStateArray := current },
      [.unlock .paxosListenerMutex])
  else
    let (received, current) := copyList received current
    let timeNow := env.timeMs
    let timePassed := timeNow - replica.lastLoggedStateTimeMs
    ({ replica with
        paxosReceivedStateArray := received
        paxosStateArray := current
        lastLoggedStateTimeMs := timeNow
        instanceId := iid },
      [.logStateList (ZlistImpl.items current) timePassed, .unlock .paxosListenerMutex])

/-- `on_deliver`. -/
def onDeliver (env : PaxosEnv) (replica : FdReplicaOf L) (iid : ℕ) (value : Bytes) :
    FdReplicaOf L × List Event :=
  if env.lock .paxosListenerMutex = false then
    (replica, [.printf "ERROR: can't get Paxos listener mutex \n"])
  else
    match deserializeHash value (zlistPurge replica.paxosReceivedStateArray) with
    | (none, events) =>
      ({ replica with paxosReceivedStateArray := zlistPurge replica.paxosReceivedStateArray },
        .lock .paxosListenerMutex :: events ++ [.unlock .paxosListenerMutex])
    | (some message, events) =>
      let replica := { replica with paxosReceivedStateArray := message.result }
      let (replica, events') :=
        if strcmp message.senderIp.cstr replica.currentNodeIp.cstr = 0 then
          onDeliverOwn env replica message.uuid
        else
          onDeliverForeign env replica iid
      (replica, .lock .paxosListenerMutex :: events ++ events')

/-- A function like `serialize_hash`. -/
abbrev SerializeFcn :=
  Option (List NodeStruct) → IpBuffer → Uuid → IpBuffer →
    Option Bytes × Option (List NodeStruct) × List Event

/-- `paxos_serialize_and_submit`, with a function for `serialize_hash`. The second component of the
result is the nodes table, which is sorted. -/
def paxosSerializeAndSubmitWith (serialize : SerializeFcn) (env : PaxosEnv)
    (replica : FdReplicaOf L) (nodes : Option (List NodeStruct)) :
    FdReplicaOf L × Option (List NodeStruct) × List Event :=
  match nodes with
  | none =>
    (replica, none, [.printf "paxos_serialize_and_submit : NULL nodes structure \n"])
  | some table =>
    if env.lock .detectedStatesHashmapLock = false then
      (replica, nodes, [.printf "ERROR: can't get mutex \n"])
    else
      let uuid := zuuidStr env.uuid
      let (table, detected) :=
        getMembershipGroupFromHash table (zlistPurge replica.detectedStateArray) env.temp
      let replica := { replica with
        detectedStates := addDetectedState replica.detectedStates env.record ⟨uuid, env.timeMs⟩
        detectedStateArray := detected }
      let events := [.lock .detectedStatesHashmapLock, .detectedChange uuid,
        .unlock .detectedStatesHashmapLock]
      match serialize (some table) replica.currentNodeIp env.uuid env.ipaddress with
      | (none, nodes, events') => (replica, nodes, events ++ events')
      | (some value, nodes, events') => (replica, nodes, events ++ events' ++ [.submit value])

/-- `paxos_serialize_and_submit`. -/
def paxosSerializeAndSubmit : PaxosEnv → FdReplicaOf L → Option (List NodeStruct) →
    FdReplicaOf L × Option (List NodeStruct) × List Event :=
  paxosSerializeAndSubmitWith serializeHash

end Calls

end FailureDetector
