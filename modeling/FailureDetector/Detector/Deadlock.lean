import FailureDetector.Detector.Lifecycle
import FailureDetector.Lib.LockOrder

set_option relaxedAutoImplicit false
set_option autoImplicit false

/-!
# Deadlocks

The three threads of the program are scheduled in any order. `hashmap_lock` is locked first by the
main thread and the timer thread, `paxos_listener_mutex` by the thread of the replica, and
`detected_states_hashmap_lock` within either of them. So no mutex keeps the program from going on,
neither while it runs nor when `main` cancels the other two threads and waits for them. The thread
of the replica can be cancelled anywhere but in a call for a mutex, and then keeps what it holds: by
that time nobody needs it any more.

The timer thread can be cancelled at the top of its loop only, and hence not within a callback; here
it may be cancelled between any two of them. Nothing is said about how it gets to the top of its
loop after its last callback: it does not while it waits in `read`. At the end `clean_up_hashmap`
locks a mutex that has been destroyed, and need not be granted it.

The exception is `on_deliver` when it keeps the listener's mutex. The next delivery then waits for
it, and `main` waits for the thread of the replica.

## Main definitions

* `FailureDetector.programCode` — what the threads do with the mutexes.
* `FailureDetector.cancelPoint` — where a thread can be cancelled.
* `FailureDetector.programStep`, `FailureDetector.programStart` — the schedules of the program.

## Main results

* `FailureDetector.no_deadlock` — the mutexes do not keep the program from going on.
* `FailureDetector.kept_mutex_blocks_shutdown` — when it does.
-/

namespace FailureDetector

open CString Locking Runs Wire

/-! ### The schedules of the program -/

instance : Fintype ThreadId where
  elems := {.main, .timer, .paxos}
  complete := by
    intro t
    cases t <;> decide

/-- What the threads do with the mutexes. -/
def programCode (r : ProgramRun) : ThreadId → List LockOp
  | .main => mainOps r
  | .timer => timerOps r
  | .paxos => paxosOps r

/-- What some calls of `on_deliver` do with the mutexes. -/
def deliveryOps (deliveries : List (FdReplica × Delivery)) : List LockOp :=
  (deliveries.map fun (replica, d) =>
    lockOps (onDeliver d.env replica d.iid d.value).2).flatten

/-- Where a thread can be cancelled. The timer thread enables its cancellation only while it makes
no callback, and not each time. -/
def cancelPoint (r : ProgramRun) : ThreadId → List LockOp → Bool
  | .main, _ => false
  | .timer, rest =>
    r.callbacks.tails.any fun callbacks =>
      decide (timerOps { r with callbacks := callbacks } = rest)
  | .paxos, _ => true

/-- The order in which the mutexes are locked. -/
def Mutex.rank : Mutex → ℕ
  | .hashmapLock => 0
  | .paxosListenerMutex => 0
  | .detectedStatesHashmapLock => 1

/-- What `main` does with the mutexes once both threads have ended. -/
def cleanUpOps (r : ProgramRun) : List LockOp :=
  .destroy .hashmapLock :: lockOps (cleanUpHashmap r.cleanUp.1 r.cleanUp.2).2

/-- The end of the code of a thread that need not be ordered: `clean_up_hashmap` locks a mutex that
has been destroyed, and unlocks it whether or not it has been refused. -/
def programTail (r : ProgramRun) : ThreadId → List LockOp
  | .main => cleanUpOps r
  | .timer | .paxos => []

/-- One move of a thread of the program. -/
abbrev programStep (r : ProgramRun) : Sched ThreadId Mutex → Move ThreadId →
    Option (Sched ThreadId Mutex) := Sched.step .main (cancelPoint r)

/-- The program is started. -/
abbrev programStart (r : ProgramRun) : Sched ThreadId Mutex := Sched.start .main (programCode r)

/-! ### Ordered code -/

/-- Using the nodes table is ordered. -/
lemma TableOps.ordered {ops : List LockOp} (h : TableOps ops) : Ordered Mutex.rank ops := by
  cases h with
  | refused => exact ordered_nil
  | kept => exact ordered_pair _
  | submitted => exact ordered_nested (by decide)

/-- A call of `on_deliver` that does not keep the listener's mutex is ordered. -/
lemma DeliverOps.ordered {ops : List LockOp} (h : DeliverOps ops) : Ordered Mutex.rank ops := by
  cases h with
  | refused => exact ordered_nil
  | ignored => exact ordered_pair _
  | own => exact ordered_nested (by decide)

/-- `clean_up_paxos_hashmap` is granted its mutex. -/
lemma lockOps_cleanUpPaxosHashmap {env : PaxosEnv}
    (hlock : env.lock .detectedStatesHashmapLock = true)
    (detectedStates : UtTable ℕ DetectedState) :
    lockOps (cleanUpPaxosHashmap env detectedStates).2 =
      [.lock .detectedStatesHashmapLock, .unlock .detectedStatesHashmapLock] := by
  simp [cleanUpPaxosHashmap, hlock, lockOps, Event.lockOp]

/-- At its end `main` uses `hashmap_lock` only. -/
lemma eq_of_mem_cleanUpOps {r : ProgramRun} {op : LockOp} (hop : op ∈ cleanUpOps r) :
    op = .destroy .hashmapLock ∨ op = .lock .hashmapLock ∨ op = .unlock .hashmapLock := by
  cases hlock : r.cleanUp.1.lock .hashmapLock with
  | true =>
    simpa [cleanUpOps, cleanUpHashmap, hlock, lockOps, Event.lockOp] using hop
  | false =>
    have hops : op = .destroy .hashmapLock ∨ .unlock .hashmapLock = op := by
      simpa [cleanUpOps, cleanUpHashmap, hlock, lockOps, Event.lockOp] using hop
    exact hops.imp id fun h => Or.inr h.symm

/-- The receive loop is ordered up to where what comes after it is. -/
lemma orderedUpTo_receiveLoopOps {tail after : List LockOp}
    (hafter : OrderedUpTo Mutex.rank tail ∅ after)
    (iterations : List (DetectorEnv × Detector × Received)) :
    OrderedUpTo Mutex.rank tail ∅ (receiveLoopOps after iterations) := by
  induction iterations with
  | nil => exact hafter
  | cons iteration rest ih =>
    obtain ⟨env, d, input⟩ := iteration
    rw [receiveLoopOps]
    split
    · exact ordered_nil.upTo tail
    · next d' events heq =>
      refine OrderedUpTo.append ?_ (tableOps_receive heq).ordered
      split
      · exact ih
      · exact hafter

/-- `main` is ordered up to `clean_up_hashmap` from the creation of the threads on. -/
lemma orderedUpTo_threadsOps (r : ProgramRun) :
    OrderedUpTo Mutex.rank (cleanUpOps r) ∅ (threadsOps r) := by
  have hshutdown : OrderedUpTo Mutex.rank (cleanUpOps r) ∅ (shutdownOps r) :=
    ((orderedUpTo_tail Mutex.rank (cleanUpOps r)).cons (by simp)).cons (by simp)
  rw [threadsOps, List.append_assoc]
  refine OrderedUpTo.append (OrderedUpTo.append ?_ ?_) ?_
  · split
    · exact ordered_nil.upTo _
    · exact (orderedUpTo_receiveLoopOps hshutdown r.iterations).cons (by simp)
  · split
    · exact ordered_cons ordered_nil (by simp)
    · exact ordered_nil
  · split
    · exact ordered_cons ordered_nil (by simp)
    · exact ordered_nil

/-- **`main` is ordered** up to `clean_up_hashmap`. -/
lemma orderedUpTo_mainOps (r : ProgramRun) :
    OrderedUpTo Mutex.rank (cleanUpOps r) ∅ (mainOps r) := by
  unfold mainOps initNodesStructLocked
  split
  · exact ordered_nil.upTo _
  · dsimp only
    cases hnodes : r.initNodes.1.lock .hashmapLock with
    | false => exact ordered_nil.upTo _
    | true =>
      refine OrderedUpTo.append ?_ (ordered_pair _)
      split
      · exact ordered_nil.upTo _
      · split
        · exact ordered_nil.upTo _
        · refine OrderedUpTo.cons ?_ (by simp)
          split
          · exact ordered_nil.upTo _
          · exact (orderedUpTo_threadsOps r).cons (by simp)

/-- What the callbacks do. -/
lemma tableOps_of_mem_callbacks {r : ProgramRun} : ∀ ops ∈ r.callbacks.map
    fun (env, d, timerId, ipAddress) => lockOps (handleTimeout env d timerId ipAddress).2,
      TableOps ops := by
  intro ops hops
  obtain ⟨⟨env, d, timerId, ipAddress⟩, -, rfl⟩ := List.mem_map.mp hops
  exact tableOps_handleTimeout env d timerId ipAddress

/-- **The timer thread is ordered.** -/
lemma ordered_timerOps (r : ProgramRun) : Ordered Mutex.rank (timerOps r) :=
  ordered_flatten fun ops hops => (tableOps_of_mem_callbacks ops hops).ordered

/-- **The thread of the replica is ordered** if no delivery keeps the listener's mutex and
`clean_up_paxos_hashmap` is granted the other one. -/
lemma ordered_paxosOps {r : ProgramRun}
    (hkeeps : ∀ p ∈ r.deliveries, ¬ KeepsListenerMutex p.2.env p.1 p.2.value)
    (hlock : r.cleanUpPaxos.1.lock .detectedStatesHashmapLock = true) :
    Ordered Mutex.rank (paxosOps r) := by
  refine ordered_append (ordered_append (ordered_flatten fun ops hops => ?_) ?_) ?_
  · obtain ⟨⟨replica, d⟩, hmem, rfl⟩ := List.mem_map.mp hops
    rcases lockOps_onDeliver d.env replica d.iid d.value with ⟨hkept, -⟩ | ⟨-, hops⟩
    · exact absurd hkept (hkeeps _ hmem)
    · exact hops.ordered
  · rw [lockOps_cleanUpPaxosHashmap hlock]
    exact ordered_pair _
  · exact ordered_cons (ordered_cons ordered_nil (by simp)) (by simp)

/-- All threads are ordered up to `clean_up_hashmap`. -/
lemma orderedUpTo_programCode {r : ProgramRun}
    (hkeeps : ∀ p ∈ r.deliveries, ¬ KeepsListenerMutex p.2.env p.1 p.2.value)
    (hcleanUpPaxos : r.cleanUpPaxos.1.lock .detectedStatesHashmapLock = true) (t : ThreadId) :
    OrderedUpTo Mutex.rank (programTail r t) ∅ (programCode r t) := by
  cases t with
  | main => exact orderedUpTo_mainOps r
  | timer => exact (ordered_timerOps r).upTo _
  | paxos => exact (ordered_paxosOps hkeeps hcleanUpPaxos).upTo _

/-! ### Creating threads and waiting for them -/

/-- The visible actions of a function only lock and unlock. -/
lemma eq_of_mem_lockOps {events : List Event} {op : LockOp} (h : op ∈ lockOps events) :
    ∃ m, op = .lock m ∨ op = .unlock m := by
  obtain ⟨event, -, hop⟩ := List.mem_filterMap.mp h
  cases event <;> simp [Event.lockOp] at hop
  · exact ⟨_, Or.inl hop.symm⟩
  · exact ⟨_, Or.inr hop.symm⟩

/-- The timer thread creates no thread and waits for none. -/
lemma spawn_notMem_timerOps (r : ProgramRun) (t : ThreadId) :
    .create t ∉ timerOps r ∧ .join t ∉ timerOps r := by
  have hops : ∀ op ∈ timerOps r, ∃ m, op = .lock m ∨ op = .unlock m := by
    intro op hop
    obtain ⟨ops, hops, hmem⟩ := List.mem_flatten.mp hop
    obtain ⟨⟨env, d, timerId, ipAddress⟩, -, rfl⟩ := List.mem_map.mp hops
    exact eq_of_mem_lockOps hmem
  constructor
  · intro h
    obtain ⟨m, h | h⟩ := hops _ h <;> cases h
  · intro h
    obtain ⟨m, h | h⟩ := hops _ h <;> cases h

/-- What the thread of the replica does. -/
lemma eq_of_mem_paxosOps {r : ProgramRun} {op : LockOp} (h : op ∈ paxosOps r) :
    (∃ m, op = .lock m ∨ op = .unlock m) ∨ ∃ m, op = .destroy m := by
  rcases List.mem_append.mp h with h | h
  · left
    rcases List.mem_append.mp h with h | h
    · obtain ⟨ops, hops, hmem⟩ := List.mem_flatten.mp h
      obtain ⟨⟨replica, d⟩, -, rfl⟩ := List.mem_map.mp hops
      exact eq_of_mem_lockOps hmem
    · exact eq_of_mem_lockOps h
  · right
    rcases List.mem_cons.mp h with rfl | h
    · exact ⟨_, rfl⟩
    · exact ⟨_, List.mem_singleton.mp h⟩

/-- The receive loop locks and unlocks, and what comes after it follows unless the program exits. -/
lemma receiveLoopOps_cases (after : List LockOp)
    (iterations : List (DetectorEnv × Detector × Received)) :
    ∃ ops : List LockOp, (∀ op ∈ ops, ∃ m, op = .lock m ∨ op = .unlock m) ∧
      (receiveLoopOps after iterations = ops ∨ receiveLoopOps after iterations = ops ++ after) := by
  induction iterations with
  | nil => exact ⟨[], by simp, Or.inr rfl⟩
  | cons iteration rest ih =>
    obtain ⟨env, d, input⟩ := iteration
    rw [receiveLoopOps]
    split
    · exact ⟨[], by simp, Or.inl rfl⟩
    · next d' events heq =>
      have hevents : ∀ op ∈ lockOps events, ∃ m, op = .lock m ∨ op = .unlock m :=
        fun op hop => eq_of_mem_lockOps hop
      split
      · obtain ⟨ops, hops, hrest⟩ := ih
        refine ⟨lockOps events ++ ops, fun op hop => ?_, hrest.imp ?_ ?_⟩
        · rcases List.mem_append.mp hop with hop | hop
          · exact hevents op hop
          · exact hops op hop
        · intro h
          rw [h]
        · intro h
          rw [h, List.append_assoc]
      · exact ⟨lockOps events, hevents, Or.inr rfl⟩

/-- **How `main` ends**: it exits without waiting for a thread, or creates both threads and then
waits for both. -/
lemma mainOps_shutdown {r : ProgramRun} (hpaxos : r.paxosCreated = true)
    (htimer : r.timerCreated = true) :
    ∃ ops : List LockOp, (∀ t, .join t ∉ ops) ∧ .create .main ∉ ops ∧ (∀ m, .destroy m ∉ ops) ∧
      (mainOps r = ops ∨
        (.create .paxos ∈ ops ∧ .create .timer ∈ ops ∧ mainOps r = ops ++ shutdownOps r)) := by
  have hstart : ∀ op ∈ ([.lock .hashmapLock, .unlock .hashmapLock, .init .paxosListenerMutex] :
      List LockOp), (∀ t, op ≠ .join t) ∧ op ≠ .create .main ∧ ∀ m, op ≠ .destroy m := by simp
  rcases mainOps_startUp r with hmain | hmain
  · exact ⟨mainOps r, fun t h => (hstart _ (hmain.subset h)).1 t rfl,
      fun h => (hstart _ (hmain.subset h)).2.1 rfl,
      fun m h => (hstart _ (hmain.subset h)).2.2 m rfl, Or.inl rfl⟩
  · cases hinit : r.hashmapInit with
    | false =>
      refine ⟨mainOps r, ?_, ?_, ?_, Or.inl rfl⟩
      · simp [hmain, threadsOps, hpaxos, htimer, hinit]
      · simp [hmain, threadsOps, hpaxos, htimer, hinit]
      · simp [hmain, threadsOps, hpaxos, htimer, hinit]
    | true =>
      obtain ⟨loop, hloop, hcases⟩ := receiveLoopOps_cases (shutdownOps r) r.iterations
      have hjoin : ∀ t, .join t ∉ loop := by
        intro t h
        obtain ⟨m, h | h⟩ := hloop _ h <;> cases h
      have hcreate : .create .main ∉ loop := by
        intro h
        obtain ⟨m, h | h⟩ := hloop _ h <;> cases h
      have hdestroy : ∀ m, .destroy m ∉ loop := by
        intro m h
        obtain ⟨m', h | h⟩ := hloop _ h <;> cases h
      refine ⟨[.lock .hashmapLock, .unlock .hashmapLock, .init .paxosListenerMutex,
        .init .detectedStatesHashmapLock, .create .paxos, .create .timer, .init .hashmapLock] ++
        loop, ?_, ?_, ?_, hcases.imp ?_ ?_⟩
      · simpa using hjoin
      · simpa using hcreate
      · simpa using hdestroy
      · intro h
        rw [hmain, threadsOps, h]
        simp [hpaxos, htimer, hinit]
      · intro h
        refine ⟨by simp, by simp, ?_⟩
        rw [hmain, threadsOps, h]
        simp [hpaxos, htimer, hinit]

/-- Where an element that is not in the first part of a list stands. -/
lemma exists_of_append_eq_append_cons {α : Type*} {l l' pre post : List α} {a : α} (ha : a ∉ l)
    (h : l ++ l' = pre ++ a :: post) : ∃ pre', pre = l ++ pre' ∧ l' = pre' ++ a :: post := by
  rcases List.append_eq_append_iff.mp h with ⟨pre', hpre, hl'⟩ | ⟨rest, hl, hrest⟩
  · exact ⟨pre', hpre, hl'⟩
  · cases rest with
    | nil => exact ⟨[], by simpa using hl.symm, by simpa using hrest.symm⟩
    | cons b rest =>
      obtain ⟨rfl, -⟩ := List.cons.inj hrest
      exact absurd (by simp [hl]) ha

/-- **What `main` has done when it waits for a thread**, and what it still has to do. -/
lemma mainOps_join {r : ProgramRun} (hpaxos : r.paxosCreated = true)
    (htimer : r.timerCreated = true) {pre post : List LockOp} {t : ThreadId}
    (h : mainOps r = pre ++ .join t :: post) :
    .create t ∈ pre ∧ (t = .timer ∨ (t = .paxos ∧ .join .timer ∈ pre ∧
      ∀ m, .lock m ∈ post → m = .hashmapLock)) := by
  obtain ⟨ops, hjoin, -, -, hmain | ⟨hcreate, hcreate', hmain⟩⟩ := mainOps_shutdown hpaxos htimer
  · refine absurd ?_ (hjoin t)
    rw [← hmain, h]
    simp
  · rw [h] at hmain
    obtain ⟨pre', rfl, hshutdown⟩ := exists_of_append_eq_append_cons (hjoin t) hmain.symm
    change .join .timer :: .join .paxos :: cleanUpOps r = _ at hshutdown
    match pre' with
    | [] =>
      obtain ⟨heq, -⟩ := List.cons.inj hshutdown
      cases heq
      exact ⟨by simp [hcreate'], Or.inl rfl⟩
    | [op] =>
      obtain ⟨rfl, hrest⟩ := List.cons.inj hshutdown
      obtain ⟨heq, rfl⟩ := List.cons.inj hrest
      cases heq
      refine ⟨by simp [hcreate], Or.inr ⟨rfl, by simp, fun m hm => ?_⟩⟩
      simpa using eq_of_mem_cleanUpOps hm
    | op :: op' :: pre' =>
      obtain ⟨-, hrest⟩ := List.cons.inj hshutdown
      obtain ⟨-, hrest⟩ := List.cons.inj hrest
      have hmem : .join t ∈ cleanUpOps r := by
        rw [hrest]
        exact List.mem_append_right _ List.mem_cons_self
      simpa using eq_of_mem_cleanUpOps hmem

/-- Before `clean_up_hashmap`, `main` has waited for both threads. -/
lemma join_mem_of_cleanUpOps {r : ProgramRun} (hpaxos : r.paxosCreated = true)
    (htimer : r.timerCreated = true) {pre : List LockOp} (h : mainOps r = pre ++ cleanUpOps r) :
    .join .timer ∈ pre ∧ .join .paxos ∈ pre := by
  obtain ⟨ops, -, -, hdestroy, hmain | ⟨-, -, hmain⟩⟩ := mainOps_shutdown hpaxos htimer
  · refine absurd ?_ (hdestroy .hashmapLock)
    rw [← hmain, h]
    exact List.mem_append_right _ List.mem_cons_self
  · have hshutdown : ops ++ shutdownOps r = (ops ++ [.join .timer, .join .paxos]) ++ cleanUpOps r :=
      (List.append_assoc ops [.join .timer, .join .paxos] (cleanUpOps r)).symm
    rw [h, hshutdown] at hmain
    rw [List.append_cancel_right hmain]
    constructor <;> simp

/-- **The threads are created by `main`**, and before it waits for them. -/
lemma wellSpawned_programCode {r : ProgramRun} (hpaxos : r.paxosCreated = true)
    (htimer : r.timerCreated = true) : WellSpawned .main (programCode r) where
  others := by
    intro t ht t'
    cases t with
    | main => exact absurd rfl ht
    | timer => exact spawn_notMem_timerOps r t'
    | paxos =>
      constructor
      · intro h
        obtain ⟨m, h | h⟩ | ⟨m, h⟩ := eq_of_mem_paxosOps h <;> cases h
      · intro h
        obtain ⟨m, h | h⟩ | ⟨m, h⟩ := eq_of_mem_paxosOps h <;> cases h
  created := fun _ _ _ h => (mainOps_join hpaxos htimer h).1
  ne_first := by
    obtain ⟨ops, -, hcreate, -, hmain | ⟨-, -, hmain⟩⟩ := mainOps_shutdown hpaxos htimer
    · show .create .main ∉ mainOps r
      rw [hmain]
      exact hcreate
    · show .create .main ∉ mainOps r
      rw [hmain]
      intro hmem
      rcases List.mem_append.mp hmem with hmem | hmem
      · exact hcreate hmem
      · have hmem : .create .main ∈ cleanUpOps r := by simpa [shutdownOps, cleanUpOps] using hmem
        simpa using eq_of_mem_cleanUpOps hmem

/-! ### Cancelling -/

/-- Callbacks begin with locking `hashmap_lock`. -/
lemma timerOps_eq_cons {r : ProgramRun} (h : timerOps r ≠ []) :
    ∃ ops, timerOps r = .lock .hashmapLock :: ops := by
  have hcallbacks := tableOps_of_mem_callbacks (r := r)
  unfold timerOps at h ⊢
  generalize r.callbacks.map (fun (env, d, timerId, ipAddress) =>
    lockOps (handleTimeout env d timerId ipAddress).2) = opss at h hcallbacks ⊢
  induction opss with
  | nil => exact absurd rfl h
  | cons ops opss ih =>
    rw [List.flatten_cons] at h ⊢
    cases hcallbacks ops List.mem_cons_self with
    | refused => exact ih h fun ops' hops' => hcallbacks ops' (List.mem_cons_of_mem _ hops')
    | kept => exact ⟨_, rfl⟩
    | submitted => exact ⟨_, rfl⟩

/-- The thread of the replica does not use `hashmap_lock`. -/
lemma hashmapLock_notMem_paxosOps (r : ProgramRun) : .lock .hashmapLock ∉ paxosOps r := by
  intro h
  rcases List.mem_append.mp h with h | h
  · rcases List.mem_append.mp h with h | h
    · obtain ⟨ops, hops, hmem⟩ := List.mem_flatten.mp h
      obtain ⟨⟨replica, d⟩, -, rfl⟩ := List.mem_map.mp hops
      rcases lockOps_onDeliver d.env replica d.iid d.value with ⟨-, hkept⟩ | ⟨-, hops⟩
      · dsimp only at hmem
        rw [hkept] at hmem
        simp at hmem
      · dsimp only at hmem
        generalize lockOps (onDeliver d.env replica d.iid d.value).2 = ops at hops hmem
        cases hops <;> simp at hmem
    · cases hlock : r.cleanUpPaxos.1.lock .detectedStatesHashmapLock with
      | false => simp [cleanUpPaxosHashmap, hlock, lockOps, Event.lockOp] at h
      | true => simp [lockOps_cleanUpPaxosHashmap hlock] at h
  · simp at h

/-- **The mutexes of a cancelled thread are not needed any more.**

**Proof sketch.** The timer thread is cancelled between two callbacks, where it holds nothing. When
the thread of the replica is cancelled the timer thread has ended, and `main` locks nothing but
`hashmap_lock`. -/
lemma cancelSafe_programCode {r : ProgramRun} (hpaxos : r.paxosCreated = true)
    (htimer : r.timerCreated = true) :
    Sched.CancelSafe Mutex.rank (programTail r) .main (cancelPoint r) (programCode r) := by
  intro s held t ops hunder hsafe hfirst hrest hpoint m hm t' ht'
  have hdone : opsOf .main s.trace ++ .join t :: ops = mainOps r := by
    rw [← hfirst]
    exact hunder.doneFirst
  obtain ⟨-, rfl | ⟨rfl, hjoined, hpost⟩⟩ := mainOps_join hpaxos htimer hdone.symm
  · obtain ⟨callbacks, -, hcallbacks⟩ := List.any_eq_true.mp hpoint
    have hcallbacks := of_decide_eq_true hcallbacks
    rw [← hcallbacks] at hrest
    obtain ⟨ops', hops'⟩ := timerOps_eq_cons hrest
    rw [hcallbacks] at hops'
    rcases hsafe.next hops' with hnil | ⟨held', hstep, -⟩
    · cases hnil
    · rw [eq_empty_of_lock (show Mutex.rank .hashmapLock = 0 from rfl) hstep] at hm
      simp at hm
  · intro hmem
    have howned := hunder.locked m .paxos ((hsafe.owner m .paxos).mpr hm)
    have hne : m ≠ .hashmapLock := by
      rintro rfl
      exact hashmapLock_notMem_paxosOps r (hunder.mem_code_of_trace howned)
    cases t' with
    | paxos => exact ht' rfl
    | timer =>
      rw [hunder.joined .timer (mem_opsOf.mp hjoined)] at hmem
      cases hmem
    | main =>
      rw [hfirst] at hmem
      rcases List.mem_cons.mp hmem with heq | hmem
      · cases heq
      · exact hne (hpost m hmem)

/-! ### No deadlock -/

/-- **The mutexes do not keep the program from going on.** Both threads are created,
`clean_up_paxos_hashmap` is granted its mutex, and no delivery keeps that of the listener. Then
every schedule of the three threads is an execution of the program with at most two moves for every
action of a thread. Wherever it has led, `main` waits for the timer thread, which makes no more
callbacks, or a thread can move without one being cancelled, or `main` has returned and the threads
have ended, or `main` is in `clean_up_hashmap` and both threads have ended.

**Proof sketch.** Every thread locks the mutexes in the same order, and what a cancelled thread
keeps is not needed any more. So of the threads that are not waiting for another thread, one can
move. -/
theorem no_deadlock (r : ProgramRun) (hpaxos : r.paxosCreated = true)
    (htimer : r.timerCreated = true)
    (hkeeps : ∀ p ∈ r.deliveries, ¬ KeepsListenerMutex p.2.env p.1 p.2.value)
    (hcleanUpPaxos : r.cleanUpPaxos.1.lock .detectedStatesHashmapLock = true)
    (moves : List (Move ThreadId)) (s : Sched ThreadId Mutex)
    (hrun : run (programStep r) (programStart r) moves = some s) :
    Execution r s.trace ∧
    moves.length ≤ 2 * ∑ t, (programCode r t).length ∧
    (((s.rest .main).head? = some (.join .timer) ∧ s.rest .timer = []) ∨
      (∃ t, s.CanMove .main (cancelPoint r) t ∧
        (t = .main → (s.rest .main).head? ≠ some (.join .timer))) ∨
      (opsOf .main s.trace = mainOps r ∧ ∀ t, s.created t = true → s.rest t = []) ∨
      ((.main, .join .timer) ∈ s.trace ∧ (.main, .join .paxos) ∈ s.trace ∧
        s.rest .main <:+ lockOps (cleanUpHashmap r.cleanUp.1 r.cleanUp.2).2)) := by
  have hcode := wellSpawned_programCode hpaxos htimer
  obtain ⟨hunder, hstate⟩ := Sched.run_safe hcode
    (orderedUpTo_programCode hkeeps hcleanUpPaxos) (cancelSafe_programCode hpaxos htimer) hrun
  refine ⟨?_, Sched.length_le_of_run hrun, ?_⟩
  · have hdone : ∀ t, opsOf t s.trace <+: programCode r t :=
      fun t => (hunder.done t).elim (fun h => ⟨_, h⟩) And.right
    exact ⟨hdone .main, hdone .timer, hdone .paxos, hunder.spawned⟩
  · rcases hstate with ⟨held, hsafe⟩ | ⟨t, pre, op, ops, hprogram, htail, hpast⟩
    · by_cases hwaits : (s.rest .main).head? = some (.join .timer) ∧ s.rest .timer = []
      · exact Or.inl hwaits
      · rcases hsafe.progress hcode hunder (n := 2) (by intro m; cases m <;> decide) with
          ⟨t, hmove⟩ | hended
        · refine Or.inr (Or.inl ⟨t, hmove, ?_⟩)
          rintro rfl hhead
          exact hwaits ⟨hhead, hmove.rest_of_join hhead⟩
        · refine Or.inr (Or.inr (Or.inl ⟨?_, hended⟩))
          have hmain := hunder.doneFirst
          rw [hended .main ((hunder.created .main).mpr (Or.inl rfl)), List.append_nil] at hmain
          exact hmain
    · -- `main` is in `clean_up_hashmap`, as only its code has an end that is not ordered
      cases t with
      | timer | paxos => cases htail
      | main =>
        obtain ⟨rfl, rfl⟩ := List.cons.inj htail
        obtain ⟨htimerJoined, hpaxosJoined⟩ := join_mem_of_cleanUpOps hpaxos htimer hprogram
        have hdone : ∀ op ∈ pre, (.main, op) ∈ s.trace := fun op hop =>
          mem_opsOf.mp (hpast.subset (List.mem_append_left _ hop))
        refine Or.inr (Or.inr (Or.inr ⟨hdone _ htimerJoined, hdone _ hpaxosJoined, ?_⟩))
        obtain ⟨done, hdone⟩ := hpast
        have hmain := hunder.doneFirst.trans hprogram
        rw [← hdone, List.append_assoc, List.append_assoc, List.append_cancel_left_eq] at hmain
        exact ⟨done, List.cons.inj hmain |>.2⟩

/-- `main` runs from start to end, and cancels the thread of the replica before that has done
anything. -/
def shutdownMoves : List (Move ThreadId) :=
  .call .main :: List.replicate 8 (.act .main) ++
    [.cancel .paxos, .act .main, .act .main, .call .main, .act .main, .act .main]

/-- The quiet run is shut down by these moves. -/
theorem no_deadlock_quiet : ∃ s, run (programStep quietRun) (programStart quietRun) shutdownMoves =
    some s ∧ Execution quietRun s.trace ∧
    (((s.rest .main).head? = some (.join .timer) ∧ s.rest .timer = []) ∨
      (∃ t, s.CanMove .main (cancelPoint quietRun) t ∧
        (t = .main → (s.rest .main).head? ≠ some (.join .timer))) ∨
      (opsOf .main s.trace = mainOps quietRun ∧ ∀ t, s.created t = true → s.rest t = []) ∨
      ((.main, .join .timer) ∈ s.trace ∧ (.main, .join .paxos) ∈ s.trace ∧
        s.rest .main <:+ lockOps (cleanUpHashmap quietRun.cleanUp.1 quietRun.cleanUp.2).2)) := by
  refine ⟨_, rfl, ?_⟩
  obtain ⟨hexecution, -, hprogress⟩ := no_deadlock quietRun rfl rfl (by simp [quietRun]) rfl
    shutdownMoves _ rfl
  exact ⟨hexecution, hprogress⟩

/-! ### A mutex that is kept -/

/-- A call of `on_deliver` that is refused the listener's mutex does nothing with the mutexes, and
any other call begins with locking it. -/
lemma lockOps_onDeliver_head (env : PaxosEnv) (replica : FdReplica) (iid : ℕ) (value : Bytes) :
    (env.lock .paxosListenerMutex = false → lockOps (onDeliver env replica iid value).2 = []) ∧
    (env.lock .paxosListenerMutex = true → ∃ ops,
      lockOps (onDeliver env replica iid value).2 = .lock .paxosListenerMutex :: ops) := by
  have hstep := onDeliver_step env replica iid value
  generalize onDeliver env replica iid value = result at hstep ⊢
  constructor
  · intro hlistener
    cases hstep with
    | refused => rfl
    | _ => simp_all
  · intro hlistener
    cases hstep with
    | refused hrefused => simp_all
    | _ => exact ⟨_, rfl⟩

/-- Calls of `on_deliver` in two parts. -/
lemma deliveryOps_append (deliveries deliveries' : List (FdReplica × Delivery)) :
    deliveryOps (deliveries ++ deliveries') =
      deliveryOps deliveries ++ deliveryOps deliveries' := by
  simp [deliveryOps]

/-- Calls that are refused the listener's mutex. -/
lemma deliveryOps_refused {deliveries : List (FdReplica × Delivery)}
    (h : ∀ p ∈ deliveries, p.2.env.lock .paxosListenerMutex = false) :
    deliveryOps deliveries = [] := by
  refine List.flatten_eq_nil_iff.mpr fun ops hops => ?_
  obtain ⟨⟨replica, d⟩, hmem, rfl⟩ := List.mem_map.mp hops
  exact (lockOps_onDeliver_head d.env replica d.iid d.value).1 (h _ hmem)

/-- A call that keeps the listener's mutex. -/
lemma deliveryOps_kept {p : FdReplica × Delivery}
    (h : KeepsListenerMutex p.2.env p.1 p.2.value) :
    deliveryOps [p] = [.lock .paxosListenerMutex] := by
  rcases lockOps_onDeliver p.2.env p.1 p.2.iid p.2.value with ⟨-, hops⟩ | ⟨hnot, -⟩
  · simp [deliveryOps, hops]
  · exact absurd h hnot

/-- The thread of the replica after some of the deliveries. -/
lemma paxosOps_append {r : ProgramRun} {earlier later : List (FdReplica × Delivery)}
    (h : r.deliveries = earlier ++ later) :
    paxosOps r = deliveryOps earlier ++ paxosOps { r with deliveries := later } := by
  show deliveryOps r.deliveries ++ _ ++ _ = deliveryOps earlier ++ (deliveryOps later ++ _ ++ _)
  rw [h, deliveryOps_append]
  simp only [List.append_assoc]

/-- What comes after a call that keeps the listener's mutex, when one is granted that begins with
locking it. -/
lemma paxosOps_next {r : ProgramRun} {middle later : List (FdReplica × Delivery)}
    {next : FdReplica × Delivery} (h : r.deliveries = middle ++ next :: later)
    (hmiddle : ∀ p ∈ middle, p.2.env.lock .paxosListenerMutex = false)
    (hnext : next.2.env.lock .paxosListenerMutex = true) :
    ∃ ops, paxosOps r = .lock .paxosListenerMutex :: ops := by
  obtain ⟨ops, hops⟩ := (lockOps_onDeliver_head next.2.env next.1 next.2.iid next.2.value).2 hnext
  have hcons : deliveryOps (next :: later) = .lock .paxosListenerMutex ::
      (ops ++ deliveryOps later) := by
    show lockOps (onDeliver next.2.env next.1 next.2.iid next.2.value).2 ++ deliveryOps later = _
    rw [hops]
    rfl
  rw [paxosOps_append h, deliveryOps_refused hmiddle]
  show ∃ ops, deliveryOps (next :: later) ++ _ ++ _ = .lock .paxosListenerMutex :: ops
  rw [hcons]
  exact ⟨_, rfl⟩

/-- Whether the listener's mutex is held after a call that keeps it. -/
lemma run_privateStep_kept {held held' : Bool} {ops : List LockOp}
    (h : run (privateStep .paxosListenerMutex) held (ops ++ [.lock .paxosListenerMutex]) =
      some held') : held' = true := by
  obtain ⟨b, -, hstep⟩ := run_concat_eq_some.mp h
  cases b with
  | false => exact (Option.some.inj hstep).symm
  | true => cases hstep

/-- Only the thread of the replica uses the listener's mutex. -/
lemma listener_notMem_programCode (r : ProgramRun) : ∀ t ≠ ThreadId.paxos,
    .lock .paxosListenerMutex ∉ programCode r t ∧
      .unlock .paxosListenerMutex ∉ programCode r t := by
  intro t ht
  cases t with
  | paxos => exact absurd rfl ht
  | timer => exact not_listener_timerOps r
  | main => exact ⟨fun h => mainOp_mainOps r _ h rfl, fun h => mainOp_mainOps r _ h rfl⟩

/-- **A kept mutex blocks the shutdown.** A delivery keeps the listener's mutex, and a later one is
not refused it. Then the thread of the replica ends in no schedule unless it is cancelled. Once
it has called for the mutex in the later delivery it is not cancelled any more either, so that
`main` waits for it for ever.

**Proof sketch.** Only this thread uses the mutex, and after the first of these deliveries it holds
it. In the second one it waits for itself, and `pthread_mutex_lock` is no cancellation point. -/
theorem kept_mutex_blocks_shutdown (r : ProgramRun) (hpaxos : r.paxosCreated = true)
    (htimer : r.timerCreated = true)
    (earlier middle later : List (FdReplica × Delivery)) (kept next : FdReplica × Delivery)
    (hdeliveries : r.deliveries = earlier ++ [kept] ++ (middle ++ next :: later))
    (hkept : KeepsListenerMutex kept.2.env kept.1 kept.2.value)
    (hmiddle : ∀ p ∈ middle, p.2.env.lock .paxosListenerMutex = false)
    (hnext : next.2.env.lock .paxosListenerMutex = true)
    (moves : List (Move ThreadId)) (s : Sched ThreadId Mutex)
    (hrun : run (programStep r) (programStart r) moves = some s) :
    (.cancel .paxos ∉ moves → s.rest .paxos ≠ []) ∧
    (opsOf .paxos s.trace = deliveryOps (earlier ++ [kept]) → s.called .paxos = true →
      ∀ moves' s', run (programStep r) s moves' = some s' →
        s'.rest .paxos ≠ [] ∧ (.main, .join .paxos) ∉ s'.trace) := by
  have hcode := wellSpawned_programCode hpaxos htimer
  have hunder := Sched.run_underway hcode (Sched.underway_start _ _) hrun
  obtain ⟨held, hheld, howner⟩ := Sched.run_private hcode (listener_notMem_programCode r) hrun
  obtain ⟨ops, hops⟩ := paxosOps_next (r := { r with deliveries := middle ++ next :: later }) rfl
    hmiddle hnext
  have hpaxosOps : paxosOps r =
      (deliveryOps earlier ++ [.lock .paxosListenerMutex]) ++ .lock .paxosListenerMutex :: ops := by
    rw [paxosOps_append hdeliveries, deliveryOps_append, deliveryOps_kept hkept, hops]
  constructor
  · intro hmoves hnil
    have hdone := Sched.run_done hmoves hrun
    rw [hnil, List.append_nil] at hdone
    have hall : opsOf .paxos s.trace = paxosOps r := hdone
    rw [hall, hpaxosOps] at hheld
    obtain ⟨b, hb, hrest⟩ := run_append_eq_some.mp hheld
    obtain rfl := run_privateStep_kept hb
    obtain ⟨held', hstep, -⟩ := run_cons_eq_some.mp hrest
    cases hstep
  · intro hopsOf hcalled
    rw [deliveryOps_append, deliveryOps_kept hkept] at hopsOf
    obtain ⟨m, rest, hrest⟩ := hunder.called .paxos hcalled
    have hdone := hunder.done_of_ne_nil (t := .paxos) (by simp [hrest])
    have hstuck : s.StuckWith .paxos .paxosListenerMutex := by
      refine ⟨hcalled, ⟨ops, ?_⟩, ?_, fun t ht hmem => ?_⟩
      · rw [hopsOf] at hdone
        exact List.append_cancel_left (hdone.trans hpaxosOps)
      · rw [hopsOf] at hheld
        rw [howner, run_privateStep_kept hheld]
        rfl
      · exact (listener_notMem_programCode r t ht).2 (hunder.mem_code hmem)
    intro moves' s' hrun'
    obtain ⟨ops', hops'⟩ := (hstuck.run hrun').rest
    have hne : s'.rest .paxos ≠ [] := by simp [hops']
    exact ⟨hne, fun hjoin => hne ((Sched.run_underway hcode hunder hrun').joined .paxos hjoin)⟩

/-- The node's own value is delivered twice, and the first time `on_deliver` is refused the lock of
the detected states. From then on `main` never gets past `terminate_paxos_replica`. -/
theorem kept_mutex_blocks_shutdown_two : ∃ (r : ProgramRun) (moves : List (Move ThreadId))
    (s : Sched ThreadId Mutex), run (programStep r) (programStart r) moves = some s ∧
      .join .paxos ∈ mainOps r ∧ ∀ moves' s', run (programStep r) s moves' = some s' →
        s'.rest .paxos ≠ [] ∧ (.main, .join .paxos) ∉ s'.trace := by
  obtain ⟨value, -, hdecode⟩ := exists_submitted_singleton ipOne quietEnv.uuid
  set own : IpBuffer := IpBuffer.set (CharArray.zero _) ipOne with hown
  set keptEnv : PaxosEnv :=
    { quietEnv with lock := fun m => decide (m ≠ .detectedStatesHashmapLock) }
  set kept : FdReplica × Delivery := (initReplica own 0, ⟨keptEnv, 1, value⟩)
  set next : FdReplica × Delivery := (initReplica own 0, ⟨quietEnv, 2, value⟩)
  set r : ProgramRun := { quietRun with deliveries := [kept, next] } with hr
  have hkept : KeepsListenerMutex kept.2.env kept.1 kept.2.value := by
    refine ⟨rfl, rfl, quietEnv.uuid, ?_⟩
    show ownUuid own.cstr value = some quietEnv.uuid
    rw [ownUuid_eq hdecode, hown, IpBuffer.cstr_set, if_pos rfl]
  obtain ⟨ops, hops⟩ : ∃ ops, paxosOps { r with deliveries := [next] } =
      .lock .paxosListenerMutex :: ops :=
    paxosOps_next (show [next] = [] ++ next :: [] from rfl) (by simp) rfl
  have hpaxosOps : paxosOps r =
      .lock .paxosListenerMutex :: .lock .paxosListenerMutex :: ops := by
    rw [paxosOps_append (show r.deliveries = [kept] ++ [next] from rfl), deliveryOps_kept hkept,
      hops]
    rfl
  have hcode : programCode r = fun
      | .main => mainOps quietRun
      | .timer => []
      | .paxos => .lock .paxosListenerMutex :: .lock .paxosListenerMutex :: ops := by
    funext t
    cases t with
    | main => rfl
    | timer => rfl
    | paxos => exact hpaxosOps
  set moves : List (Move ThreadId) := .call .main :: List.replicate 5 (.act .main) ++
    [.call .paxos, .act .paxos, .call .paxos]
  have hrun : ∃ s, run (programStep r) (programStart r) moves = some s ∧
      opsOf .paxos s.trace = [.lock .paxosListenerMutex] ∧ s.called .paxos = true := by
    rw [programStart, hcode]
    exact ⟨_, rfl, rfl, rfl⟩
  obtain ⟨s, hrun, htrace, hcalled⟩ := hrun
  have hjoin : .join .paxos ∈ mainOps quietRun := by decide
  refine ⟨r, moves, s, hrun, hjoin, ?_⟩
  exact (kept_mutex_blocks_shutdown r rfl rfl [] [] [] kept next rfl hkept (by simp) rfl moves
    s hrun).2 (htrace.trans (deliveryOps_kept hkept).symm) hcalled

end FailureDetector
