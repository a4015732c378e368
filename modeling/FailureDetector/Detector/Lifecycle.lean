import FailureDetector.Detector.Step
import FailureDetector.Lib.Locking
import FailureDetector.PaxosReplica.Timing

set_option relaxedAutoImplicit false
set_option autoImplicit false

/-!
# From start-up to shutdown

The program has three threads: the main thread with the receive loop, the timer thread with the
callbacks, and the thread of the Paxos replica with the deliveries. `main` creates the other two,
and when the receive loop has ended it waits for them. The mutexes are created and destroyed in
between, `hashmap_lock` by `main` and the other two by `start_paxos_replica` and
`clean_up_replica`.

`hashmap_lock` is initialised after `init_nodes_struct` has locked it, and destroyed before
`clean_up_hashmap` locks it. Both clean-up functions unlock a mutex that they were refused, and
`on_deliver` keeps the listener mutex when it is refused the other one.

What a call does depends on the state that it finds, which the other threads may have changed
since the last one. A run lists every call with the state it finds, so nothing is assumed about
these.

## Main definitions

* `FailureDetector.initNodesStructLocked`, `FailureDetector.cleanUpHashmap`,
  `FailureDetector.cleanUpPaxosHashmap` — functions that `main` and `clean_up_replica` call.
* `FailureDetector.ProgramRun` — what a run of the program depends on.
* `FailureDetector.mainOps`, `FailureDetector.timerOps`, `FailureDetector.paxosOps` — what the
  threads do with the mutexes.
* `FailureDetector.Execution` — the traces of a run.

## Main results

* `FailureDetector.balanced_receive`, `FailureDetector.balanced_handleTimeout`,
  `FailureDetector.balanced_onDeliver_iff` — with which mutexes the functions return.
* `FailureDetector.mutex_discipline_iff` — what the discipline of the mutexes comes to.
-/

namespace FailureDetector

open CString Locking Wire

/-- The threads of the program. -/
inductive ThreadId
  | main
  | timer
  | paxos
  deriving DecidableEq

/-- What a thread of the program does with the mutexes. -/
abbrev LockOp := Op ThreadId Mutex

/-- What an action does with the mutexes. -/
def Event.lockOp : Event → Option LockOp
  | .lock m => some (.lock m)
  | .unlock m => some (.unlock m)
  | _ => none

/-- What some actions do with the mutexes. -/
def lockOps (events : List Event) : List LockOp := events.filterMap Event.lockOp

/-! ### Start-up and shutdown -/

/-- `init_nodes_struct`: the table, unless the program exits because the mutex is refused. -/
def initNodesStructLocked (env : PaxosEnv) (unset : NodeStruct) (nodes : List NodeStruct)
    (hostname : IpString) : Option (List NodeStruct) × List Event :=
  if env.lock .hashmapLock = false then (none, [.printf "ERROR: can't get mutex \n"])
  else
    (some (initNodesStruct unset nodes hostname), [.lock .hashmapLock, .unlock .hashmapLock])

/-- `clean_up_hashmap`. If the mutex is refused it goes on without it. -/
def cleanUpHashmap (env : PaxosEnv) (nodes : List NodeStruct) : List NodeStruct × List Event :=
  let events :=
    if env.lock .hashmapLock = false then [.printf "ERROR: can't get mutex \n"]
    else [.lock .hashmapLock]
  (nodes.foldl (fun t n => HashTable.delete NodeStruct.ipaddress t n.ipaddress) nodes,
    events ++ [.unlock .hashmapLock])

/-- `clean_up_paxos_hashmap`, with the table after its loop unless that runs on. If the mutex is
refused it goes on without it. -/
def cleanUpPaxosHashmap (env : PaxosEnv) (detectedStates : UtTable ℕ DetectedState) :
    Option (UtHash ℕ) × List Event :=
  let events :=
    if env.lock .detectedStatesHashmapLock = false then
      [.printf "ERROR: can't get Paxos hashmap mutex \n"]
    else [.lock .detectedStatesHashmapLock]
  (hashIter id (fun h x => some (hashDelete h x)) detectedStates.toUtHash,
    events ++ [.unlock .detectedStatesHashmapLock])

/-- What a run of the program depends on. -/
structure ProgramRun where
  /-- Whether `zlog_init` succeeds. -/
  zlogInit : Bool
  /-- The call of `init_nodes_struct`, with the memory of the new node. -/
  initNodes : PaxosEnv × NodeStruct × IpString
  /-- Whether `start_paxos_replica` gets the mutex and the condition variable that it waits with. -/
  initializationInit : Bool
  listenerInit : Bool
  detectedStatesInit : Bool
  /-- Whether the thread of the replica is created. -/
  paxosCreated : Bool
  /-- Whether the timer thread is created. -/
  timerCreated : Bool
  hashmapInit : Bool
  /-- The iterations of the receive loop, with the states that they find. -/
  iterations : List (DetectorEnv × Detector × Received)
  /-- The call of `clean_up_hashmap`, with the nodes table that it finds. -/
  cleanUp : PaxosEnv × List NodeStruct
  /-- The calls of `handle_timeout`, with the states that they find. -/
  callbacks : List (DetectorEnv × Detector × ℕ × IpString)
  /-- The calls of `on_deliver`, with the replicas that they find. -/
  deliveries : List (FdReplica × Delivery)
  /-- The call of `clean_up_paxos_hashmap`, with the table that it finds. -/
  cleanUpPaxos : PaxosEnv × UtTable ℕ DetectedState

/-- The receive loop: what its iterations do with the mutexes, and then `after` once it has been
left. -/
def receiveLoopOps (after : List LockOp) : List (DetectorEnv × Detector × Received) → List LockOp
  | [] => after
  | (env, d, input) :: rest =>
    match receive env d input with
    | none => []
    | some (d', events) =>
      lockOps events ++ if d'.running then receiveLoopOps after rest else after

/-- The end of `main`, from `terminate_timer_manager` on. -/
def shutdownOps (r : ProgramRun) : List LockOp :=
  [.join .timer, .join .paxos, .destroy .hashmapLock] ++
    lockOps (cleanUpHashmap r.cleanUp.1 r.cleanUp.2).2

/-- What `main` does from the creation of the first thread on. Where it cannot initialise the mutex
it exits. -/
def threadsOps (r : ProgramRun) : List LockOp :=
  (if r.paxosCreated then [.create .paxos] else []) ++
  (if r.timerCreated then [.create .timer] else []) ++
  if r.hashmapInit = false then []
  else .init .hashmapLock :: receiveLoopOps (shutdownOps r) r.iterations

/-- What `main` does with the mutexes. Wherever the rest is missing, it exits. -/
def mainOps (r : ProgramRun) : List LockOp :=
  if r.zlogInit = false then []
  else
    let (env, unset, hostname) := r.initNodes
    match initNodesStructLocked env unset [] hostname with
    | (none, events) => lockOps events
    | (some _, events) =>
      lockOps events ++
      -- `start_paxos_replica`
      if r.initializationInit = false then []
      else if r.listenerInit = false then []
      else
        .init .paxosListenerMutex ::
        if r.detectedStatesInit = false then []
        else .init .detectedStatesHashmapLock :: threadsOps r

/-- What the timer thread does with the mutexes. -/
def timerOps (r : ProgramRun) : List LockOp :=
  (r.callbacks.map fun (env, d, timerId, ipAddress) =>
    lockOps (handleTimeout env d timerId ipAddress).2).flatten

/-- What the thread of the replica does with the mutexes: it delivers values until its event loop
ends, and then calls `clean_up_replica`. -/
def paxosOps (r : ProgramRun) : List LockOp :=
  (r.deliveries.map fun (replica, d) =>
    lockOps (onDeliver d.env replica d.iid d.value).2).flatten ++
  lockOps (cleanUpPaxosHashmap r.cleanUpPaxos.1 r.cleanUpPaxos.2).2 ++
  [.destroy .paxosListenerMutex, .destroy .detectedStatesHashmapLock]

/-- A trace of a run, up to any moment: how far each thread has come, and in which order they have
acted. A thread may be cancelled anywhere. -/
structure Execution (r : ProgramRun) (trace : Trace ThreadId Mutex) : Prop where
  main : opsOf .main trace <+: mainOps r
  timer : opsOf .timer trace <+: timerOps r
  paxos : opsOf .paxos trace <+: paxosOps r
  spawned : Spawned .main trace

/-- The node's own value is delivered, and the second lock is refused. -/
def KeepsListenerMutex (env : PaxosEnv) (replica : FdReplica) (value : Bytes) : Prop :=
  env.lock .paxosListenerMutex = true ∧ env.lock .detectedStatesHashmapLock = false ∧
    ∃ uuid, ownUuid replica.currentNodeIp.cstr value = some uuid

/-! ### The functions -/

/-- The mutex actions of two sequences of actions. -/
lemma lockOps_append (events events' : List Event) :
    lockOps (events ++ events') = lockOps events ++ lockOps events' := List.filterMap_append

/-- The visible actions of a function destroy no mutex. -/
lemma destroy_notMem_lockOps (events : List Event) (m : Mutex) : .destroy m ∉ lockOps events := by
  intro h
  obtain ⟨event, -, hop⟩ := List.mem_filterMap.mp h
  cases event <;> simp [Event.lockOp] at hop

/-- `paxos_serialize_and_submit` locks and unlocks one mutex, or none. -/
lemma lockOps_paxosSerializeAndSubmit (env : PaxosEnv) (replica : FdReplica)
    (nodes : Option (List NodeStruct)) :
    lockOps (paxosSerializeAndSubmit env replica nodes).2.2 = [] ∨
      lockOps (paxosSerializeAndSubmit env replica nodes).2.2 =
        [.lock .detectedStatesHashmapLock, .unlock .detectedStatesHashmapLock] := by
  cases nodes with
  | none => exact Or.inl rfl
  | some table =>
    cases hlock : env.lock .detectedStatesHashmapLock with
    | false =>
      left
      rw [paxosSerializeAndSubmit, paxosSerializeAndSubmitWith, if_pos hlock]
      rfl
    | true =>
      right
      have hserialize : lockOps (serializeHash
          (some (HashTable.sort ipAddressHashSortFunction table)) replica.currentNodeIp env.uuid
          env.ipaddress).2.2 = [] := filterMap_serializeHash (fun _ => rfl) _ _ _ _
      have hsubmit : ∀ values : List Bytes, lockOps (values.map .submit) = [] := by
        intro values
        rw [lockOps, List.filterMap_map]
        exact List.filterMap_eq_nil_iff.mpr fun _ _ => rfl
      rw [← paxosSerializeAndSubmitWith_true, paxosSerializeAndSubmitWith_events _ hlock,
        serializeHashDump_true]
      dsimp only
      rw [lockOps_append, lockOps_append, hserialize, hsubmit]
      rfl

/-- What the functions that use the nodes table do with the mutexes: nothing, or they use the
table under `hashmap_lock`, with or without submitting it. -/
inductive TableOps : List LockOp → Prop
  | refused : TableOps []
  | kept : TableOps [.lock .hashmapLock, .unlock .hashmapLock]
  | submitted : TableOps [.lock .hashmapLock, .lock .detectedStatesHashmapLock,
      .unlock .detectedStatesHashmapLock, .unlock .hashmapLock]

/-- Submitting under `hashmap_lock`. -/
lemma tableOps_submit (env : PaxosEnv) (replica : FdReplica) (nodes : Option (List NodeStruct)) :
    TableOps (.lock .hashmapLock :: lockOps (paxosSerializeAndSubmit env replica nodes).2.2 ++
      [.unlock .hashmapLock]) := by
  rcases lockOps_paxosSerializeAndSubmit env replica nodes with h | h
  · rw [h]
    exact TableOps.kept
  · rw [h]
    exact TableOps.submitted

/-- `handle_timeout` uses the table under `hashmap_lock`. -/
lemma tableOps_handleTimeout (env : DetectorEnv) (d : Detector) (timerId : ℕ)
    (ipAddress : IpString) : TableOps (lockOps (handleTimeout env d timerId ipAddress).2) := by
  unfold handleTimeout
  split
  · exact TableOps.refused
  · split
    · exact TableOps.kept
    · next node _ =>
      dsimp only
      rw [lockOps_append, lockOps_append]
      exact tableOps_submit env.toPaxosEnv d.replica
        (some (HashTable.delete NodeStruct.ipaddress d.nodes ipAddress))

/-- The part of an iteration that is under `hashmap_lock` starts a timer, and submits the table if
the node is new. -/
lemma heartbeat_events {env : DetectorEnv} {d d' : Detector} {ip : IpString} {events : List Event}
    (h : heartbeat env d ip = some (d', events)) :
    (∃ timerId nodes, events = .startTimer timerId ip ::
      (paxosSerializeAndSubmit env.toPaxosEnv d.replica nodes).2.2) ∨
    ∃ timerId, events = [.startTimer timerId ip] := by
  unfold heartbeat at h
  split at h
  · simp only [Option.some.injEq, Prod.mk.injEq] at h
    exact Or.inl ⟨_, _, h.2.symm⟩
  · obtain ⟨timers, -, h⟩ := Option.bind_eq_some_iff.mp h
    simp only [Option.some.injEq, Prod.mk.injEq] at h
    exact Or.inr ⟨_, h.2.symm⟩

/-- The commands of the orchestrator use no mutex. -/
lemma lockOps_orchestrate (d : Detector) (received : CStr) :
    lockOps (orchestrate d received).2 = [] := by
  rcases orchestrate_events d received with h | h | h
  · rw [h]
    rfl
  · rw [h]
    rfl
  · rw [h]
    rfl

/-- An iteration of the receive loop uses the table under `hashmap_lock`. -/
lemma tableOps_receive {env : DetectorEnv} {d d' : Detector} {input : Received}
    {events : List Event} (h : receive env d input = some (d', events)) :
    TableOps (lockOps events) := by
  cases input with
  | failure =>
    obtain rfl : [Event.printf "ERROR: message could not be read \n"] = events :=
      congrArg Prod.snd (Option.some.inj h)
    exact TableOps.refused
  | beacon ipaddress received =>
    rw [receive] at h
    split at h
    · obtain rfl : [] = events := congrArg Prod.snd (Option.some.inj h)
      exact TableOps.refused
    · split at h
      · obtain rfl : [Event.printf "ERROR: can't get mutex \n"] = events :=
          congrArg Prod.snd (Option.some.inj h)
        exact TableOps.refused
      · obtain ⟨⟨d₁, events₁⟩, hheartbeat, hrest⟩ := Option.bind_eq_some_iff.mp h
        have hevents : .lock .hashmapLock :: events₁ ++ [.unlock .hashmapLock] ++
            (orchestrate d₁ received).2 = events := congrArg Prod.snd (Option.some.inj hrest)
        rw [← hevents, lockOps_append, lockOps_append, lockOps_orchestrate, List.append_nil]
        rcases heartbeat_events hheartbeat with ⟨timerId, nodes, rfl⟩ | ⟨timerId, rfl⟩
        · exact tableOps_submit env.toPaxosEnv d.replica nodes
        · exact TableOps.kept

/-- Using the table under `hashmap_lock` is balanced. -/
lemma TableOps.balanced {ops : List LockOp} (h : TableOps ops) : Balanced ops := by
  cases h with
  | refused => exact balanced_nil
  | kept => exact balanced_pair _
  | submitted =>
    have hinner : Balanced ([.lock .detectedStatesHashmapLock,
      .unlock .detectedStatesHashmapLock] : List LockOp) := balanced_pair _
    exact balanced_critical hinner (by simp)

/-- Using the table under `hashmap_lock` leaves the listener's mutex alone. -/
lemma TableOps.not_listener {ops : List LockOp} (h : TableOps ops) :
    .lock .paxosListenerMutex ∉ ops ∧ .unlock .paxosListenerMutex ∉ ops := by
  cases h with
  | refused => simp
  | kept => simp
  | submitted => simp

/-- **An iteration of the receive loop** returns with the mutexes it was entered with. -/
lemma balanced_receive {env : DetectorEnv} {d d' : Detector} {input : Received}
    {events : List Event} (h : receive env d input = some (d', events)) :
    Balanced (lockOps events) := (tableOps_receive h).balanced

/-- **`handle_timeout`** returns with the mutexes it was entered with. -/
lemma balanced_handleTimeout (env : DetectorEnv) (d : Detector) (timerId : ℕ)
    (ipAddress : IpString) : Balanced (lockOps (handleTimeout env d timerId ipAddress).2) :=
  (tableOps_handleTimeout env d timerId ipAddress).balanced

/-- `paxos_serialize_and_submit` returns with the mutexes it was entered with. -/
lemma balanced_paxosSerializeAndSubmit (env : PaxosEnv) (replica : FdReplica)
    (nodes : Option (List NodeStruct)) :
    Balanced (lockOps (paxosSerializeAndSubmit env replica nodes).2.2) := by
  rcases lockOps_paxosSerializeAndSubmit env replica nodes with h | h
  · rw [h]
    exact balanced_nil
  · rw [h]
    exact balanced_pair _

/-- `init_nodes_struct` returns with the mutexes it was entered with. -/
lemma balanced_initNodesStructLocked (env : PaxosEnv) (unset : NodeStruct)
    (nodes : List NodeStruct) (hostname : IpString) :
    Balanced (lockOps (initNodesStructLocked env unset nodes hostname).2) := by
  unfold initNodesStructLocked
  split
  · exact balanced_nil
  · exact balanced_pair _

/-- `clean_up_hashmap` unlocks a mutex that it does not hold if it is refused it. -/
lemma balanced_cleanUpHashmap_iff (env : PaxosEnv) (nodes : List NodeStruct) :
    Balanced (lockOps (cleanUpHashmap env nodes).2) ↔ env.lock .hashmapLock = true := by
  unfold cleanUpHashmap
  cases hlock : env.lock .hashmapLock with
  | false =>
    simp only [if_true, Bool.false_eq_true, iff_false]
    exact not_balanced_unlock Mutex.hashmapLock
  | true =>
    simp only [Bool.true_eq_false, if_false, iff_true]
    exact balanced_pair _

/-- `clean_up_paxos_hashmap` unlocks a mutex that it does not hold if it is refused it. -/
lemma balanced_cleanUpPaxosHashmap_iff (env : PaxosEnv)
    (detectedStates : UtTable ℕ DetectedState) :
    Balanced (lockOps (cleanUpPaxosHashmap env detectedStates).2) ↔
      env.lock .detectedStatesHashmapLock = true := by
  unfold cleanUpPaxosHashmap
  cases hlock : env.lock .detectedStatesHashmapLock with
  | false =>
    simp only [if_true, Bool.false_eq_true, iff_false]
    exact not_balanced_unlock Mutex.detectedStatesHashmapLock
  | true =>
    simp only [Bool.true_eq_false, if_false, iff_true]
    exact balanced_pair _

/-- What `on_deliver` does with the mutexes. -/
inductive DeliverOps : List LockOp → Prop
  | refused : DeliverOps []
  | ignored : DeliverOps [.lock .paxosListenerMutex, .unlock .paxosListenerMutex]
  | own : DeliverOps [.lock .paxosListenerMutex, .lock .detectedStatesHashmapLock,
      .unlock .detectedStatesHashmapLock, .unlock .paxosListenerMutex]

/-- All of these are balanced. -/
lemma DeliverOps.balanced {ops : List LockOp} (h : DeliverOps ops) : Balanced ops := by
  cases h with
  | refused => exact balanced_nil
  | ignored => exact balanced_pair _
  | own =>
    have hinner : Balanced ([.lock .detectedStatesHashmapLock,
      .unlock .detectedStatesHashmapLock] : List LockOp) := balanced_pair _
    exact balanced_critical hinner (by simp)

/-- What `on_deliver` does with the mutexes, and when it keeps that of the listener.

**Proof sketch.** By its exits. -/
lemma lockOps_onDeliver (env : PaxosEnv) (replica : FdReplica) (iid : ℕ) (value : Bytes) :
    (KeepsListenerMutex env replica value ∧
      lockOps (onDeliver env replica iid value).2 = [.lock .paxosListenerMutex]) ∨
    (¬ KeepsListenerMutex env replica value ∧
      DeliverOps (lockOps (onDeliver env replica iid value).2)) := by
  have hstep := onDeliver_step env replica iid value
  generalize onDeliver env replica iid value = result at hstep ⊢
  unfold KeepsListenerMutex
  cases hstep with
  | refused hlistener =>
    rw [hlistener]
    exact Or.inr ⟨by simp, DeliverOps.refused⟩
  | rejected received _ hdecode =>
    rw [ownUuid, hdecode]
    exact Or.inr ⟨by simp, DeliverOps.ignored⟩
  | ownRefused m received hlistener hdecode hown hstates =>
    rw [ownUuid_eq hdecode, if_pos hown]
    exact Or.inl ⟨⟨hlistener, hstates, m.uuid, rfl⟩, rfl⟩
  | ownUnknown m received _ _ _ hstates =>
    rw [hstates]
    exact Or.inr ⟨by simp, DeliverOps.own⟩
  | ownKnown m received state _ _ _ hstates =>
    rw [hstates]
    exact Or.inr ⟨by simp, DeliverOps.own⟩
  | same m received current _ hdecode hown =>
    rw [ownUuid_eq hdecode, if_neg hown]
    exact Or.inr ⟨by simp, DeliverOps.ignored⟩
  | changed m received current _ hdecode hown =>
    rw [ownUuid_eq hdecode, if_neg hown]
    exact Or.inr ⟨by simp, DeliverOps.ignored⟩

/-- **`on_deliver`** returns with the mutexes it was entered with, unless it keeps that of the
listener. -/
lemma balanced_onDeliver_iff (env : PaxosEnv) (replica : FdReplica) (iid : ℕ) (value : Bytes) :
    Balanced (lockOps (onDeliver env replica iid value).2) ↔
      ¬ KeepsListenerMutex env replica value := by
  rcases lockOps_onDeliver env replica iid value with ⟨hkeeps, hops⟩ | ⟨hkeeps, hops⟩
  · rw [hops]
    exact iff_of_false (not_balanced_lock _) (not_not_intro hkeeps)
  · exact iff_of_true hops.balanced hkeeps

/-! ### The threads -/

/-- `main` begins with locking `hashmap_lock`, unless it exits before. -/
lemma mainOps_cases (r : ProgramRun) :
    (mainOps r = [] ∧ (r.zlogInit = false ∨ r.initNodes.1.lock .hashmapLock = false)) ∨
    ((∃ rest, mainOps r = .lock .hashmapLock :: rest) ∧
      ¬ (r.zlogInit = false ∨ r.initNodes.1.lock .hashmapLock = false)) := by
  unfold mainOps initNodesStructLocked
  cases hlog : r.zlogInit with
  | false => exact Or.inl ⟨rfl, Or.inl rfl⟩
  | true =>
    cases hlock : r.initNodes.1.lock .hashmapLock with
    | false =>
      refine Or.inl ⟨?_, Or.inr rfl⟩
      simp only [Bool.true_eq_false, if_false, hlock, if_true]
      rfl
    | true =>
      refine Or.inr ⟨?_, by simp⟩
      simp only [Bool.true_eq_false, if_false, hlock]
      exact ⟨_, rfl⟩

/-- The receive loop is balanced if what comes after it is. -/
lemma balanced_receiveLoopOps {after : List LockOp} (hafter : Balanced after)
    (iterations : List (DetectorEnv × Detector × Received)) :
    Balanced (receiveLoopOps after iterations) := by
  induction iterations with
  | nil => exact hafter
  | cons iteration rest ih =>
    obtain ⟨env, d, input⟩ := iteration
    rw [receiveLoopOps]
    split
    · exact balanced_nil
    · next d' events heq =>
      refine balanced_append (balanced_receive heq) ?_
      split
      · exact ih
      · exact hafter

/-- `main` is balanced from the creation of the threads on if `clean_up_hashmap` is granted the
mutex. -/
lemma balanced_threadsOps {r : ProgramRun} (hlock : r.cleanUp.1.lock .hashmapLock = true) :
    Balanced (threadsOps r) := by
  have hcleanUp := (balanced_cleanUpHashmap_iff r.cleanUp.1 r.cleanUp.2).mpr hlock
  have hshutdown : Balanced (shutdownOps r) :=
    balanced_cons (balanced_cons (balanced_cons hcleanUp (by simp)) (by simp)) (by simp)
  refine balanced_append (balanced_append ?_ ?_) ?_
  · split
    · exact balanced_cons balanced_nil (by simp)
    · exact balanced_nil
  · split
    · exact balanced_cons balanced_nil (by simp)
    · exact balanced_nil
  · split
    · exact balanced_nil
    · exact balanced_cons (balanced_receiveLoopOps hshutdown r.iterations) (by simp)

/-- **`main` is balanced** if `clean_up_hashmap` is granted the mutex. -/
lemma balanced_mainOps {r : ProgramRun} (hlock : r.cleanUp.1.lock .hashmapLock = true) :
    Balanced (mainOps r) := by
  have hnodes := balanced_initNodesStructLocked r.initNodes.1 r.initNodes.2.1 [] r.initNodes.2.2
  unfold mainOps
  split
  · exact balanced_nil
  · dsimp only
    split
    · next events heq =>
      rw [heq] at hnodes
      exact hnodes
    · next nodes events heq =>
      rw [heq] at hnodes
      refine balanced_append hnodes ?_
      split
      · exact balanced_nil
      · split
        · exact balanced_nil
        · refine balanced_cons ?_ (by simp)
          split
          · exact balanced_nil
          · exact balanced_cons (balanced_threadsOps hlock) (by simp)

/-- **The timer thread is balanced.** -/
lemma balanced_timerOps (r : ProgramRun) : Balanced (timerOps r) := by
  refine balanced_flatten fun ops hops => ?_
  obtain ⟨⟨env, d, timerId, ipAddress⟩, -, rfl⟩ := List.mem_map.mp hops
  exact balanced_handleTimeout env d timerId ipAddress

/-- **The thread of the replica is balanced** if no delivery keeps the listener's mutex and
`clean_up_paxos_hashmap` is granted the other one. -/
lemma balanced_paxosOps {r : ProgramRun}
    (hkeeps : ∀ p ∈ r.deliveries, ¬ KeepsListenerMutex p.2.env p.1 p.2.value)
    (hlock : r.cleanUpPaxos.1.lock .detectedStatesHashmapLock = true) :
    Balanced (paxosOps r) := by
  refine balanced_append (balanced_append (balanced_flatten fun ops hops => ?_) ?_) ?_
  · obtain ⟨⟨replica, d⟩, hmem, rfl⟩ := List.mem_map.mp hops
    exact (balanced_onDeliver_iff d.env replica d.iid d.value).mpr (hkeeps _ hmem)
  · exact (balanced_cleanUpPaxosHashmap_iff _ _).mpr hlock
  · exact balanced_cons (balanced_cons balanced_nil (by simp)) (by simp)

/-! ### Lifetimes -/

/-- What `main` may do: it does not use the listener's mutex, and destroys only `hashmap_lock`. -/
def MainOp : LockOp → Prop
  | .lock m | .unlock m => m ≠ .paxosListenerMutex
  | .destroy m => m = .hashmapLock
  | _ => True

/-- The nodes table is used as `main` may use it. -/
lemma TableOps.mainOp {ops : List LockOp} (h : TableOps ops) : ∀ op ∈ ops, MainOp op := by
  cases h with
  | refused => simp
  | kept => simp [MainOp]
  | submitted => simp [MainOp]

/-- The receive loop does what `main` may do. -/
lemma mainOp_receiveLoopOps {after : List LockOp} (hafter : ∀ op ∈ after, MainOp op)
    (iterations : List (DetectorEnv × Detector × Received)) :
    ∀ op ∈ receiveLoopOps after iterations, MainOp op := by
  induction iterations with
  | nil => exact hafter
  | cons iteration rest ih =>
    obtain ⟨env, d, input⟩ := iteration
    intro op hop
    rw [receiveLoopOps] at hop
    split at hop
    · cases hop
    · next d' events heq =>
      rcases List.mem_append.mp hop with hop | hop
      · exact (tableOps_receive heq).mainOp op hop
      · split at hop
        · exact ih op hop
        · exact hafter op hop

/-- The end of `main` does what it may do. -/
lemma mainOp_shutdownOps (r : ProgramRun) : ∀ op ∈ shutdownOps r, MainOp op := by
  unfold shutdownOps cleanUpHashmap
  cases r.cleanUp.1.lock .hashmapLock with
  | false => simp [lockOps, Event.lockOp, MainOp]
  | true => simp [lockOps, Event.lockOp, MainOp]

/-- From the creation of the threads on `main` does what it may do. -/
lemma mainOp_threadsOps (r : ProgramRun) : ∀ op ∈ threadsOps r, MainOp op := by
  intro op hop
  unfold threadsOps at hop
  rcases List.mem_append.mp hop with hop | hop
  · have hcreate : op = .create .paxos ∨ op = .create .timer := by
      rw [List.mem_append, List.mem_ite_nil_right, List.mem_ite_nil_right] at hop
      exact hop.imp (fun h => List.mem_singleton.mp h.2) (fun h => List.mem_singleton.mp h.2)
    rcases hcreate with rfl | rfl
    · trivial
    · trivial
  · split at hop
    · cases hop
    · rcases List.mem_cons.mp hop with rfl | hop
      · trivial
      · exact mainOp_receiveLoopOps (mainOp_shutdownOps r) r.iterations op hop

/-- **How `main` starts**: it sets up the mutexes of the replica before it creates a thread or
submits anything. -/
lemma mainOps_startUp (r : ProgramRun) :
    mainOps r <+: [.lock .hashmapLock, .unlock .hashmapLock, .init .paxosListenerMutex] ∨
    mainOps r = [.lock .hashmapLock, .unlock .hashmapLock, .init .paxosListenerMutex,
      .init .detectedStatesHashmapLock] ++ threadsOps r := by
  unfold mainOps initNodesStructLocked
  split
  · exact Or.inl (List.nil_prefix)
  · dsimp only
    split
    · next heq =>
      split at heq
      · cases heq
        exact Or.inl (List.nil_prefix)
      · cases heq
    · next heq =>
      split at heq
      · cases heq
      · cases heq
        cases r.initializationInit with
        | false => exact Or.inl ⟨_, rfl⟩
        | true =>
          cases r.listenerInit with
          | false => exact Or.inl ⟨_, rfl⟩
          | true =>
            cases r.detectedStatesInit with
            | false => exact Or.inl ⟨[], rfl⟩
            | true => exact Or.inr rfl

/-- What comes after the start-up of the replica in `main` comes after it has set up both
mutexes. -/
lemma init_mem_of_prefix {r : ProgramRun} {ops : List LockOp} (hops : ops <+: mainOps r)
    {op : LockOp} (hop : op ∈ ops) (hafter : op ∉ ([.lock .hashmapLock, .unlock .hashmapLock,
      .init .paxosListenerMutex, .init .detectedStatesHashmapLock] : List LockOp)) :
    .init .paxosListenerMutex ∈ ops ∧ .init .detectedStatesHashmapLock ∈ ops := by
  have hstart : [.lock .hashmapLock, .unlock .hashmapLock, .init .paxosListenerMutex,
      .init .detectedStatesHashmapLock] <+: ops := by
    rcases mainOps_startUp r with hmain | hmain
    · refine absurd ((hops.trans hmain).subset hop) fun hmem => hafter ?_
      exact List.mem_append_left [.init .detectedStatesHashmapLock] hmem
    · rw [hmain] at hops
      rcases List.prefix_or_prefix_of_prefix hops (List.prefix_append _ _) with h | h
      · exact absurd (h.subset hop) hafter
      · exact h
  exact ⟨hstart.subset (by simp), hstart.subset (by simp)⟩

/-- `main` does only what it may do. -/
lemma mainOp_mainOps (r : ProgramRun) : ∀ op ∈ mainOps r, MainOp op := by
  have hstart : ∀ op ∈ ([.lock .hashmapLock, .unlock .hashmapLock, .init .paxosListenerMutex,
      .init .detectedStatesHashmapLock] : List LockOp), MainOp op := by simp [MainOp]
  intro op hop
  rcases mainOps_startUp r with hmain | hmain
  · refine hstart op ?_
    exact List.mem_append_left [.init .detectedStatesHashmapLock] (hmain.subset hop)
  · rw [hmain] at hop
    rcases List.mem_append.mp hop with hop | hop
    · exact hstart op hop
    · exact mainOp_threadsOps r op hop

/-- The timer thread does not use the listener's mutex. -/
lemma not_listener_timerOps (r : ProgramRun) :
    .lock .paxosListenerMutex ∉ timerOps r ∧ .unlock .paxosListenerMutex ∉ timerOps r := by
  have hcallback : ∀ ops ∈ r.callbacks.map fun (env, d, timerId, ipAddress) =>
      lockOps (handleTimeout env d timerId ipAddress).2, TableOps ops := by
    intro ops hops
    obtain ⟨⟨env, d, timerId, ipAddress⟩, -, rfl⟩ := List.mem_map.mp hops
    exact tableOps_handleTimeout env d timerId ipAddress
  constructor
  · intro h
    obtain ⟨ops, hops, hmem⟩ := List.mem_flatten.mp h
    exact (hcallback ops hops).not_listener.1 hmem
  · intro h
    obtain ⟨ops, hops, hmem⟩ := List.mem_flatten.mp h
    exact (hcallback ops hops).not_listener.2 hmem

/-- The timer thread destroys nothing. -/
lemma destroy_notMem_timerOps (r : ProgramRun) (m : Mutex) : .destroy m ∉ timerOps r := by
  intro h
  obtain ⟨ops, hops, hmem⟩ := List.mem_flatten.mp h
  obtain ⟨⟨env, d, timerId, ipAddress⟩, -, rfl⟩ := List.mem_map.mp hops
  exact destroy_notMem_lockOps _ m hmem

/-- The thread of the replica does not use the listener's mutex after it has destroyed it. -/
lemma paxosOps_pairwise (r : ProgramRun) :
    (paxosOps r).Pairwise fun a b => a = .destroy .paxosListenerMutex →
      b ≠ .lock .paxosListenerMutex ∧ b ≠ .unlock .paxosListenerMutex := by
  have hno : ∀ op ∈ (r.deliveries.map fun (replica, d) =>
      lockOps (onDeliver d.env replica d.iid d.value).2).flatten ++
      lockOps (cleanUpPaxosHashmap r.cleanUpPaxos.1 r.cleanUpPaxos.2).2,
      op ≠ .destroy .paxosListenerMutex := by
    rintro op hop rfl
    rcases List.mem_append.mp hop with hop | hop
    · obtain ⟨ops, hops, hmem⟩ := List.mem_flatten.mp hop
      obtain ⟨⟨replica, d⟩, -, rfl⟩ := List.mem_map.mp hops
      exact destroy_notMem_lockOps _ _ hmem
    · exact destroy_notMem_lockOps _ _ hop
  refine List.pairwise_append.mpr ⟨?_, by simp, fun a ha b _ heq => absurd heq (hno a ha)⟩
  exact List.pairwise_of_forall_mem_list fun a ha b _ heq => absurd heq (hno a ha)

/-- The mutexes of the replica have been set up before they are used. -/
lemma Execution.init_mem {r : ProgramRun} {trace : Trace ThreadId Mutex} (h : Execution r trace)
    {pre post : Trace ThreadId Mutex} {e : ThreadId × LockOp} (heq : trace = pre ++ e :: post)
    {m : Mutex} (hm : m ≠ .hashmapLock) (huses : Uses m e) :
    (.main, .init m) ∈ pre := by
  obtain ⟨t, op⟩ := e
  have hmain : opsOf .main pre <+: mainOps r := by
    refine List.IsPrefix.trans ?_ h.main
    rw [heq, opsOf_append]
    exact List.prefix_append _ _
  have hinit : .init .paxosListenerMutex ∈ opsOf .main pre ∧
      .init .detectedStatesHashmapLock ∈ opsOf .main pre := by
    rcases h.spawned pre t op post heq with rfl | ⟨hcreate, -⟩
    · have hops : opsOf .main pre ++ [op] <+: mainOps r := by
        refine List.IsPrefix.trans ?_ h.main
        rw [heq, opsOf_append, opsOf_cons_self]
        exact (List.prefix_append_right_inj _).mpr ⟨_, rfl⟩
      have hinit := init_mem_of_prefix hops (List.mem_append_right _ (List.mem_singleton.mpr rfl))
        (by rcases huses with rfl | rfl <;> simp [hm])
      rw [List.mem_append, List.mem_append, List.mem_singleton, List.mem_singleton] at hinit
      have hne : ∀ m', .init m' ≠ op := by
        rintro m' rfl
        rcases huses with huses | huses
        · cases huses
        · cases huses
      exact ⟨hinit.1.resolve_right (hne _), hinit.2.resolve_right (hne _)⟩
    · exact init_mem_of_prefix hmain (mem_opsOf.mpr hcreate) (by simp)
  cases m with
  | hashmapLock => exact absurd rfl hm
  | paxosListenerMutex => exact mem_opsOf.mp hinit.1
  | detectedStatesHashmapLock => exact mem_opsOf.mp hinit.2

/-- Only the thread of the replica uses the listener's mutex. -/
lemma Execution.eq_paxos_of_uses {r : ProgramRun} {trace : Trace ThreadId Mutex}
    (h : Execution r trace) {e : ThreadId × LockOp} (hmem : e ∈ trace)
    (huses : Uses .paxosListenerMutex e) : e.1 = .paxos := by
  obtain ⟨t, op⟩ := e
  cases t with
  | paxos => rfl
  | main =>
    have hop := mainOp_mainOps r op (h.main.subset (mem_opsOf.mpr hmem))
    rcases huses with rfl | rfl
    · exact absurd rfl hop
    · exact absurd rfl hop
  | timer =>
    have hop := h.timer.subset (mem_opsOf.mpr hmem)
    rcases huses with rfl | rfl
    · exact absurd hop (not_listener_timerOps r).1
    · exact absurd hop (not_listener_timerOps r).2

/-- Only the thread of the replica destroys its mutexes. -/
lemma Execution.eq_paxos_of_destroy {r : ProgramRun} {trace : Trace ThreadId Mutex}
    (h : Execution r trace) {m : Mutex} (hm : m ≠ .hashmapLock) {t : ThreadId}
    (hmem : (t, .destroy m) ∈ trace) : t = .paxos := by
  cases t with
  | paxos => rfl
  | main => exact absurd (mainOp_mainOps r _ (h.main.subset (mem_opsOf.mpr hmem))) hm
  | timer => exact absurd (h.timer.subset (mem_opsOf.mpr hmem)) (destroy_notMem_timerOps r m)

/-- **The listener's mutex** is only used while it is alive, whatever happens. -/
lemma Execution.inLifetime_listener {r : ProgramRun} {trace : Trace ThreadId Mutex}
    (h : Execution r trace) : InLifetime .paxosListenerMutex trace := by
  intro pre e post heq huses
  refine alive_of_mem (h.init_mem heq (by decide) huses) fun t hdestroy => ?_
  have ht : t = .paxos := by
    refine h.eq_paxos_of_destroy (m := .paxosListenerMutex) (by decide) ?_
    rw [heq]
    exact List.mem_append_left _ hdestroy
  have he : e.1 = .paxos := by
    refine h.eq_paxos_of_uses ?_ huses
    rw [heq]
    exact List.mem_append_right _ List.mem_cons_self
  obtain ⟨t', op⟩ := e
  subst ht he
  have hpairwise := (paxosOps_pairwise r).sublist h.paxos.sublist
  rw [heq, opsOf_append, opsOf_cons_self] at hpairwise
  have hop := (List.pairwise_append.mp hpairwise).2.2 _ (mem_opsOf.mpr hdestroy) op
    List.mem_cons_self rfl
  rcases huses with rfl | rfl
  · exact hop.1 rfl
  · exact hop.2 rfl

/-- **The mutex of the detected states** is only used while it is alive, until the thread of the
replica destroys it. -/
lemma Execution.inLifetime_detectedStates {r : ProgramRun} {trace : Trace ThreadId Mutex}
    (h : Execution r trace)
    (hdestroy : (.paxos, .destroy .detectedStatesHashmapLock) ∉ trace) :
    InLifetime .detectedStatesHashmapLock trace := by
  intro pre e post heq huses
  refine alive_of_mem (h.init_mem heq (by decide) huses) fun t hmem => ?_
  have hmem' : (t, .destroy .detectedStatesHashmapLock) ∈ trace := by
    rw [heq]
    exact List.mem_append_left _ hmem
  rw [h.eq_paxos_of_destroy (by decide) hmem'] at hmem'
  exact hdestroy hmem'

/-! ### The discipline -/

/-- A trace in which `main` has locked anything is not disciplined. -/
lemma Execution.disciplined_iff {r : ProgramRun} {trace : Trace ThreadId Mutex}
    (h : Execution r trace) : Disciplined trace ↔ opsOf .main trace = [] := by
  constructor
  · intro hdisciplined
    cases trace with
    | nil => rfl
    | cons e trace =>
      obtain ⟨t, op⟩ := e
      obtain rfl : t = .main := h.spawned.head
      have hmain := h.main
      rw [opsOf_cons_self] at hmain
      rcases mainOps_cases r with ⟨hnil, -⟩ | ⟨⟨rest, hrest⟩, -⟩
      · rw [hnil] at hmain
        cases List.prefix_nil.mp hmain
      · rw [hrest] at hmain
        obtain rfl : op = .lock .hashmapLock := (List.cons_prefix_cons.mp hmain).1
        exact absurd hdisciplined (not_disciplined_cons_lock _ _ _)
  · intro hmain
    rw [h.spawned.eq_nil hmain]
    exact disciplined_nil

/-- **The mutex discipline.** Whatever the outcomes of the locks, the beacons, the expiries and the
deliveries, and however the threads are interleaved: a trace of the program is disciplined exactly
as long as `main` has not locked `hashmap_lock` in `init_nodes_struct`. A whole execution of `main`
is disciplined exactly if it ends there or before, when setting up the logger fails or the lock is
refused. Apart from that

* `paxos_listener_mutex` is used only during its lifetime, and `detected_states_hashmap_lock` as
  long as the thread of the replica has not destroyed it;
* every thread unlocks only what it holds, `main` and the thread of the replica as long as the
  clean-up functions are not refused their mutexes and no delivery keeps that of the listener;
* `handle_timeout`, `init_nodes_struct`, `paxos_serialize_and_submit` and every iteration of the
  receive loop unlock only what they hold and return holding what they held, `clean_up_hashmap` and
  `clean_up_paxos_hashmap` exactly if they are granted their mutexes, and `on_deliver` exactly if it
  is not refused the second mutex for a value of the node itself.

**Proof sketch.** The first mutex action of any execution locks `hashmap_lock`, which is
initialised later. Each function is balanced, and so are the threads that consist of them. The
mutexes of the replica are set up before any other thread is created, and the one of the listener is
used only by the thread that destroys it in the end. -/
theorem mutex_discipline_iff (r : ProgramRun) (trace : Trace ThreadId Mutex)
    (h : Execution r trace) :
    (Disciplined trace ↔ opsOf .main trace = []) ∧
    (opsOf .main trace = mainOps r →
      (Disciplined trace ↔ r.zlogInit = false ∨ r.initNodes.1.lock .hashmapLock = false)) ∧
    InLifetime .paxosListenerMutex trace ∧
    ((.paxos, .destroy .detectedStatesHashmapLock) ∉ trace →
      InLifetime .detectedStatesHashmapLock trace) ∧
    (r.cleanUp.1.lock .hashmapLock = true → HoldsWhatItUnlocks (opsOf .main trace)) ∧
    HoldsWhatItUnlocks (opsOf .timer trace) ∧
    ((∀ p ∈ r.deliveries, ¬ KeepsListenerMutex p.2.env p.1 p.2.value) →
      r.cleanUpPaxos.1.lock .detectedStatesHashmapLock = true →
      HoldsWhatItUnlocks (opsOf .paxos trace)) ∧
    (∀ env d timerId ipAddress, Balanced (lockOps (handleTimeout env d timerId ipAddress).2)) ∧
    (∀ env unset nodes hostname,
      Balanced (lockOps (initNodesStructLocked env unset nodes hostname).2)) ∧
    (∀ env (replica : FdReplica) nodes,
      Balanced (lockOps (paxosSerializeAndSubmit env replica nodes).2.2)) ∧
    (∀ env d input d' events, receive env d input = some (d', events) →
      Balanced (lockOps events)) ∧
    (∀ env nodes, Balanced (lockOps (cleanUpHashmap env nodes).2) ↔
      env.lock .hashmapLock = true) ∧
    (∀ env detectedStates, Balanced (lockOps (cleanUpPaxosHashmap env detectedStates).2) ↔
      env.lock .detectedStatesHashmapLock = true) ∧
    (∀ env (replica : FdReplica) iid value, Balanced (lockOps (onDeliver env replica iid value).2) ↔
      ¬ KeepsListenerMutex env replica value) := by
  refine ⟨h.disciplined_iff, fun hwhole => ?_, h.inLifetime_listener, h.inLifetime_detectedStates,
    fun hlock => (balanced_mainOps hlock).holds h.main, (balanced_timerOps r).holds h.timer,
    fun hkeeps hlock => (balanced_paxosOps hkeeps hlock).holds h.paxos, balanced_handleTimeout,
    balanced_initNodesStructLocked, balanced_paxosSerializeAndSubmit,
    fun _ _ _ _ _ heq => balanced_receive heq, balanced_cleanUpHashmap_iff,
    balanced_cleanUpPaxosHashmap_iff, balanced_onDeliver_iff⟩
  rw [h.disciplined_iff, hwhole]
  rcases mainOps_cases r with ⟨hnil, hexits⟩ | ⟨⟨rest, hrest⟩, hexits⟩
  · exact iff_of_true hnil hexits
  · refine iff_of_false ?_ hexits
    rw [hrest]
    exact List.cons_ne_nil _ _

/-- Every lock is granted, and nothing is received, expires or is delivered. -/
def quietRun : ProgramRun where
  zlogInit := true
  initNodes := (quietEnv, nodeWithIp ipOne, ipOne)
  initializationInit := true
  listenerInit := true
  detectedStatesInit := true
  paxosCreated := true
  timerCreated := true
  hashmapInit := true
  iterations := []
  cleanUp := (quietEnv, [nodeWithIp ipOne])
  callbacks := []
  deliveries := []
  cleanUpPaxos := (quietEnv, (initReplica (CharArray.zero _) 0).detectedStates)

/-- `main` may run from start to end before the other threads do anything. -/
lemma execution_of_main (r : ProgramRun) : Execution r ((mainOps r).map (Prod.mk .main)) where
  main := by
    rw [opsOf_map]
  timer := by
    rw [opsOf_map_of_ne (by decide)]
    exact List.nil_prefix
  paxos := by
    rw [opsOf_map_of_ne (by decide)]
    exact List.nil_prefix
  spawned := by
    intro pre t op post heq
    have hmem : (t, op) ∈ (mainOps r).map (Prod.mk ThreadId.main) := by
      rw [heq]
      exact List.mem_append_right _ List.mem_cons_self
    obtain ⟨op', -, hop⟩ := List.mem_map.mp hmem
    exact Or.inl (congrArg Prod.fst hop).symm

/-- In the quiet run `main` unlocks only what it holds, but the trace is not disciplined. -/
theorem mutex_discipline_iff_quiet :
    HoldsWhatItUnlocks (opsOf .main ((mainOps quietRun).map (Prod.mk ThreadId.main))) ∧
      ¬ Disciplined ((mainOps quietRun).map (Prod.mk ThreadId.main)) := by
  obtain ⟨-, hwhole, -, -, hmain, -⟩ := mutex_discipline_iff quietRun
    ((mainOps quietRun).map (Prod.mk .main)) (execution_of_main quietRun)
  refine ⟨hmain rfl, fun hdisciplined => ?_⟩
  rcases (hwhole (opsOf_map _ _)).mp hdisciplined with hlog | hlock
  · cases hlog
  · cases hlock

/-- **Not every execution is disciplined**: in the quiet run `main` locks `hashmap_lock` before it
has initialised it. -/
theorem quiet_run_not_disciplined :
    ¬ ∀ (r : ProgramRun) (trace : Trace ThreadId Mutex), Execution r trace →
      Disciplined trace := by
  intro h
  have hdisciplined := h quietRun _ (execution_of_main quietRun)
  rw [(execution_of_main quietRun).disciplined_iff, opsOf_map] at hdisciplined
  cases hdisciplined

end FailureDetector
