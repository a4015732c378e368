import FailureDetector.Detector.Lifecycle

set_option relaxedAutoImplicit false
set_option autoImplicit false

/-!
# The replica is started (`start_paxos_replica`, `init_replica`)

`main` creates the thread of the replica and waits on a condition variable until that has set up
`replica->state`. The two threads run in any order, and `pthread_cond_wait` may return without
having been signalled. Afterwards `main` destroys the mutex and the condition variable.

If the thread cannot be created, `start_paxos_replica` returns 0 at once. `main` ignores the result.
If it returns 1, the thread of the replica may not yet have come to its event loop: it only sets up
the handler of `SIGINT` after it has signalled.

## Main definitions

* `FailureDetector.StartUp`, `FailureDetector.StartUp.step` — the two threads from `pthread_create`
  to the end of `start_paxos_replica` and the event loop.
* `FailureDetector.StartUp.Inv` — what holds in between.

## Main results

* `FailureDetector.replica_started` — when `start_paxos_replica` returns, the replica is set up if
  its thread exists, and nobody misses a signal or uses what has been destroyed.
-/

namespace FailureDetector

open CString Runs

/-! ### The threads -/

/-- Where `main` is in `start_paxos_replica`, from `pthread_create` on. -/
inductive StartPc
  | create
  | lock
  /-- At `while(!done)`, with the mutex. -/
  | test
  /-- In `pthread_cond_wait`, without the mutex. -/
  | wait
  /-- In `pthread_cond_wait`, woken up and waiting for the mutex. -/
  | woken
  | unlock
  | destroyMutex
  | destroyCond
  /-- It has returned whether the thread exists. -/
  | returned (created : Bool)
  deriving DecidableEq

/-- Where the thread of the replica is in `init_replica`. -/
inductive InitPc
  | absent
  /-- At `evpaxos_replica_init`. -/
  | paxosInit
  | initState
  | lock
  | setDone
  | signal
  | unlock
  | evsignalNew
  | evsignalAdd
  /-- At the call of `event_base_dispatch`. -/
  | callDispatch
  /-- In the event loop, which calls `on_deliver`. -/
  | dispatch
  deriving DecidableEq

/-- The thread of the replica has left its critical section. -/
@[simp]
def InitPc.Released : InitPc → Prop
  | .evsignalNew | .evsignalAdd | .callDispatch | .dispatch => True
  | _ => False

/-- The two threads and what they share. -/
structure StartUp where
  start : StartPc
  init : InitPc
  exited : Bool
  done : Bool
  /-- Who holds `paxos_initialization_mutex`. -/
  owner : Option ThreadId
  mutexAlive : Bool
  condAlive : Bool
  /-- The replica, once `init_state` has set up its state. -/
  replica : Option FdReplica

/-- What can happen next. -/
inductive StartAction
  /-- `pthread_create`, and whether it succeeds. -/
  | create (succeeds : Bool)
  /-- `main` goes on. -/
  | main
  /-- `pthread_cond_wait` is left without a signal. -/
  | wakeUp
  /-- `evpaxos_replica_init`, and whether it succeeds. -/
  | paxosInit (succeeds : Bool)
  /-- The thread of the replica goes on. -/
  | paxos
  deriving DecidableEq

namespace StartUp

/-- `start_paxos_replica` has initialised the mutex and the condition variable. -/
def begin : StartUp where
  start := .create
  init := .absent
  exited := false
  done := false
  owner := none
  mutexAlive := true
  condAlive := true
  replica := none

/-- `main` goes on in `start_paxos_replica`. -/
def stepMain (s : StartUp) : Option StartUp :=
  match s.start with
  | .lock => if s.owner = none then some { s with start := .test, owner := some .main } else none
  | .test =>
    if s.done = true then some { s with start := .unlock }
    else some { s with start := .wait, owner := none }
  | .woken => if s.owner = none then some { s with start := .test, owner := some .main } else none
  | .unlock => some { s with start := .destroyMutex, owner := none }
  | .destroyMutex => some { s with start := .destroyCond, mutexAlive := false }
  | .destroyCond => some { s with start := .returned true, condAlive := false }
  | _ => none

/-- The thread of the replica goes on in `init_replica`. -/
def stepPaxos (currentNodeIp : IpBuffer) (lastLoggedStateTimeMs : ℚ) (s : StartUp) :
    Option StartUp :=
  match s.init with
  | .initState =>
    some { s with init := .lock, replica := some (initReplica currentNodeIp lastLoggedStateTimeMs) }
  | .lock => if s.owner = none then some { s with init := .setDone, owner := some .paxos } else none
  | .setDone => some { s with init := .signal, done := true }
  | .signal =>
    some { s with init := .unlock, start := if s.start = .wait then .woken else s.start }
  | .unlock => some { s with init := .evsignalNew, owner := none }
  | .evsignalNew => some { s with init := .evsignalAdd }
  | .evsignalAdd => some { s with init := .callDispatch }
  | .callDispatch => some { s with init := .dispatch }
  | _ => none

/-- What happens next. Nothing does once the program has exited. -/
def step (currentNodeIp : IpBuffer) (lastLoggedStateTimeMs : ℚ) (s : StartUp) (a : StartAction) :
    Option StartUp :=
  if s.exited = true then none
  else
    match a with
    | .create succeeds =>
      if s.start = .create then
        if succeeds = true then some { s with start := .lock, init := .paxosInit }
        else some { s with start := .returned false }
      else none
    | .main => s.stepMain
    | .wakeUp => if s.start = .wait then some { s with start := .woken } else none
    | .paxosInit succeeds =>
      if s.init = .paxosInit then
        if succeeds = true then some { s with init := .initState }
        else some { s with exited := true }
      else none
    | .paxos => s.stepPaxos currentNodeIp lastLoggedStateTimeMs

/-- Nothing is left to do: there is no thread, or it is in its event loop and `main` has gone on. -/
def Finished (s : StartUp) : Prop :=
  s.start = .returned false ∨ s.start = .returned true ∧ s.init = .dispatch

/-! ### What holds in between -/

/-- **What holds in between.** -/
structure Inv (currentNodeIp : IpBuffer) (lastLoggedStateTimeMs : ℚ) (s : StartUp) : Prop where
  main : s.owner = some .main ↔ s.start = .test ∨ s.start = .unlock
  paxos : s.owner = some .paxos ↔ s.init = .setDone ∨ s.init = .signal ∨ s.init = .unlock
  timer : s.owner ≠ some .timer
  created : s.init = .absent ↔ s.start = .create ∨ s.start = .returned false
  done : s.done = true ↔ s.init = .signal ∨ s.init = .unlock ∨ s.init.Released
  /-- While `main` waits, the signal is still to come. -/
  signal : s.start = .wait → s.init ≠ .unlock ∧ ¬ s.init.Released
  /-- When `main` does not wait any more, the other thread does not need the mutex any more. -/
  passed : s.start = .unlock ∨ s.start = .destroyMutex ∨ s.start = .destroyCond ∨
    s.start = .returned true → s.init.Released
  mutexAlive : s.mutexAlive = false ↔ s.start = .destroyCond ∨ s.start = .returned true
  condAlive : s.condAlive = false ↔ s.start = .returned true
  replica : s.replica =
    if s.init = .absent ∨ s.init = .paxosInit ∨ s.init = .initState then none
    else some (initReplica currentNodeIp lastLoggedStateTimeMs)

variable {currentNodeIp : IpBuffer} {lastLoggedStateTimeMs : ℚ} {s s' : StartUp}

/-- At the beginning. -/
lemma begin_inv : begin.Inv currentNodeIp lastLoggedStateTimeMs := by
  constructor <;> simp [begin]

/-- **A step of `main`** keeps what holds in between. -/
lemma Inv.stepMain (h : s.Inv currentNodeIp lastLoggedStateTimeMs) (hstep : s.stepMain = some s') :
    s'.Inv currentNodeIp lastLoggedStateTimeMs := by
  obtain ⟨hmain, hpaxos, htimer, hcreated, hdone, hsignal, hpassed, hmutex, hcond, hreplica⟩ := h
  unfold StartUp.stepMain at hstep
  cases hstart : s.start with
  | lock =>
    simp only [hstart, Option.ite_none_right_eq_some, Option.some.injEq] at hstep
    obtain ⟨howner, rfl⟩ := hstep
    constructor <;> simp_all
  | test =>
    simp only [hstart] at hstep
    cases hset : s.done with
    | true =>
      simp only [hset, if_true, Option.some.injEq] at hstep
      subst hstep
      constructor <;> simp_all
    | false =>
      simp only [hset, Bool.false_eq_true, if_false, Option.some.injEq] at hstep
      subst hstep
      constructor <;> simp_all
  | woken =>
    simp only [hstart, Option.ite_none_right_eq_some, Option.some.injEq] at hstep
    obtain ⟨howner, rfl⟩ := hstep
    constructor <;> simp_all
  | unlock =>
    simp only [hstart, Option.some.injEq] at hstep
    subst hstep
    constructor <;> simp_all
  | destroyMutex =>
    simp only [hstart, Option.some.injEq] at hstep
    subst hstep
    constructor <;> simp_all
  | destroyCond =>
    simp only [hstart, Option.some.injEq] at hstep
    subst hstep
    constructor <;> simp_all
  | create => simp [hstart] at hstep
  | wait => simp [hstart] at hstep
  | returned created => simp [hstart] at hstep

/-- **A step of the replica's thread** keeps what holds in between. -/
lemma Inv.stepPaxos (h : s.Inv currentNodeIp lastLoggedStateTimeMs)
    (hstep : s.stepPaxos currentNodeIp lastLoggedStateTimeMs = some s') :
    s'.Inv currentNodeIp lastLoggedStateTimeMs := by
  obtain ⟨hmain, hpaxos, htimer, hcreated, hdone, hsignal, hpassed, hmutex, hcond, hreplica⟩ := h
  unfold StartUp.stepPaxos at hstep
  cases hinit : s.init with
  | initState =>
    simp only [hinit, Option.some.injEq] at hstep
    subst hstep
    constructor <;> simp_all
  | lock =>
    simp only [hinit, Option.ite_none_right_eq_some, Option.some.injEq] at hstep
    obtain ⟨howner, rfl⟩ := hstep
    constructor <;> simp_all
  | setDone =>
    simp only [hinit, Option.some.injEq] at hstep
    subst hstep
    constructor <;> simp_all
  | signal =>
    simp only [hinit, Option.some.injEq] at hstep
    subst hstep
    -- the signal wakes `main` up if it waits
    by_cases hwait : s.start = .wait
    · constructor <;> simp_all
    · constructor <;> simp_all
  | unlock | evsignalNew | evsignalAdd | callDispatch =>
    simp only [hinit, Option.some.injEq] at hstep
    subst hstep
    constructor <;> simp_all
  | absent => simp [hinit] at hstep
  | paxosInit => simp [hinit] at hstep
  | dispatch => simp [hinit] at hstep

/-- **Every step** keeps what holds in between. -/
lemma Inv.step (h : s.Inv currentNodeIp lastLoggedStateTimeMs) {a : StartAction}
    (hstep : s.step currentNodeIp lastLoggedStateTimeMs a = some s') :
    s'.Inv currentNodeIp lastLoggedStateTimeMs := by
  unfold StartUp.step at hstep
  rw [Option.ite_none_left_eq_some] at hstep
  obtain ⟨-, hstep⟩ := hstep
  cases a with
  | main => exact h.stepMain hstep
  | paxos => exact h.stepPaxos hstep
  | create succeeds =>
    obtain ⟨hmain, hpaxos, htimer, hcreated, hdone, hsignal, hpassed, hmutex, hcond, hreplica⟩ := h
    rw [Option.ite_none_right_eq_some] at hstep
    obtain ⟨hstart, hstep⟩ := hstep
    cases succeeds with
    | true =>
      simp only [if_true, Option.some.injEq] at hstep
      subst hstep
      constructor <;> simp_all
    | false =>
      simp only [Bool.false_eq_true, if_false, Option.some.injEq] at hstep
      subst hstep
      constructor <;> simp_all
  | wakeUp =>
    obtain ⟨hmain, hpaxos, htimer, hcreated, hdone, hsignal, hpassed, hmutex, hcond, hreplica⟩ := h
    simp only [Option.ite_none_right_eq_some, Option.some.injEq] at hstep
    obtain ⟨hstart, rfl⟩ := hstep
    constructor <;> simp_all
  | paxosInit succeeds =>
    obtain ⟨hmain, hpaxos, htimer, hcreated, hdone, hsignal, hpassed, hmutex, hcond, hreplica⟩ := h
    rw [Option.ite_none_right_eq_some] at hstep
    obtain ⟨hinit, hstep⟩ := hstep
    cases succeeds with
    | true =>
      simp only [if_true, Option.some.injEq] at hstep
      subst hstep
      constructor <;> simp_all
    | false =>
      simp only [Bool.false_eq_true, if_false, Option.some.injEq] at hstep
      subst hstep
      constructor <;> simp_all

/-- **Every state of a run** is as described. -/
lemma run_inv {actions : List StartAction}
    (hrun : run (StartUp.step currentNodeIp lastLoggedStateTimeMs) begin actions = some s) :
    s.Inv currentNodeIp lastLoggedStateTimeMs :=
  run_invariant (Inv currentNodeIp lastLoggedStateTimeMs)
    (fun _ _ _ h (_ : True) hstep => h.step hstep) begin_inv (fun _ _ => trivial) hrun

/-! ### The end -/

/-- How many steps `main` can still make, if it is not woken up any more. -/
def startLeft : StartPc → ℕ
  | .create => 8
  | .lock => 7
  | .woken => 7
  | .test => 6
  | .wait => 5
  | .unlock => 3
  | .destroyMutex => 2
  | .destroyCond => 1
  | .returned _ => 0

/-- How many steps the thread of the replica can still make. Two more are counted for the signal,
which wakes `main` up. -/
def initLeft : InitPc → ℕ
  | .absent => 11
  | .paxosInit => 11
  | .initState => 10
  | .lock => 9
  | .setDone => 8
  | .signal => 7
  | .unlock => 4
  | .evsignalNew => 3
  | .evsignalAdd => 2
  | .callDispatch => 1
  | .dispatch => 0

/-- How many steps can still be made. -/
def left (s : StartUp) : ℕ :=
  startLeft s.start + initLeft s.init + if s.exited = true then 0 else 1

/-- A step of `main` leaves fewer. -/
lemma left_stepMain (hstep : s.stepMain = some s') : s'.left + 1 ≤ s.left := by
  unfold StartUp.stepMain at hstep
  cases hstart : s.start with
  | lock =>
    simp only [hstart, Option.ite_none_right_eq_some, Option.some.injEq] at hstep
    obtain ⟨-, rfl⟩ := hstep
    simp only [left, hstart, startLeft]
    omega
  | test =>
    simp only [hstart] at hstep
    cases hset : s.done with
    | true =>
      simp only [hset, if_true, Option.some.injEq] at hstep
      subst hstep
      simp only [left, hstart, startLeft]
      omega
    | false =>
      simp only [hset, Bool.false_eq_true, if_false, Option.some.injEq] at hstep
      subst hstep
      simp only [left, hstart, startLeft]
      omega
  | woken =>
    simp only [hstart, Option.ite_none_right_eq_some, Option.some.injEq] at hstep
    obtain ⟨-, rfl⟩ := hstep
    simp only [left, hstart, startLeft]
    omega
  | unlock =>
    simp only [hstart, Option.some.injEq] at hstep
    subst hstep
    simp only [left, hstart, startLeft]
    omega
  | destroyMutex =>
    simp only [hstart, Option.some.injEq] at hstep
    subst hstep
    simp only [left, hstart, startLeft]
    omega
  | destroyCond =>
    simp only [hstart, Option.some.injEq] at hstep
    subst hstep
    simp only [left, hstart, startLeft]
    omega
  | create => simp [hstart] at hstep
  | wait => simp [hstart] at hstep
  | returned created => simp [hstart] at hstep

/-- A step of the replica's thread leaves fewer, also when it wakes `main` up. -/
lemma left_stepPaxos (hstep : s.stepPaxos currentNodeIp lastLoggedStateTimeMs = some s') :
    s'.left + 1 ≤ s.left := by
  unfold StartUp.stepPaxos at hstep
  cases hinit : s.init with
  | initState =>
    simp only [hinit, Option.some.injEq] at hstep
    subst hstep
    simp only [left, hinit, initLeft]
    omega
  | lock =>
    simp only [hinit, Option.ite_none_right_eq_some, Option.some.injEq] at hstep
    obtain ⟨-, rfl⟩ := hstep
    simp only [left, hinit, initLeft]
    omega
  | setDone =>
    simp only [hinit, Option.some.injEq] at hstep
    subst hstep
    simp only [left, hinit, initLeft]
    omega
  | signal =>
    simp only [hinit, Option.some.injEq] at hstep
    subst hstep
    by_cases hwait : s.start = .wait
    · simp only [left, hinit, hwait, if_true, startLeft, initLeft]
      omega
    · simp only [left, hinit, hwait, if_false, initLeft]
      omega
  | unlock | evsignalNew | evsignalAdd | callDispatch =>
    simp only [hinit, Option.some.injEq] at hstep
    subst hstep
    simp only [left, hinit, initLeft]
    omega
  | absent => simp [hinit] at hstep
  | paxosInit => simp [hinit] at hstep
  | dispatch => simp [hinit] at hstep

/-- **Every step leaves fewer**, unless `main` is woken up without a signal: then it makes two
more. -/
lemma Inv.left_step (h : s.Inv currentNodeIp lastLoggedStateTimeMs) {a : StartAction}
    (hstep : s.step currentNodeIp lastLoggedStateTimeMs a = some s') :
    s'.left + 1 ≤ s.left + if a = .wakeUp then 3 else 0 := by
  unfold StartUp.step at hstep
  rw [Option.ite_none_left_eq_some] at hstep
  obtain ⟨hexited, hstep⟩ := hstep
  cases a with
  | main => simpa using left_stepMain hstep
  | paxos => simpa using left_stepPaxos hstep
  | create succeeds =>
    rw [Option.ite_none_right_eq_some] at hstep
    obtain ⟨hstart, hstep⟩ := hstep
    have hinit := h.created.mpr (Or.inl hstart)
    cases succeeds with
    | true =>
      simp only [if_true, Option.some.injEq] at hstep
      subst hstep
      simp [left, hstart, hinit, startLeft, initLeft]
    | false =>
      simp only [Bool.false_eq_true, if_false, Option.some.injEq] at hstep
      subst hstep
      simp [left, hstart, hinit, startLeft]
  | wakeUp =>
    simp only [Option.ite_none_right_eq_some, Option.some.injEq] at hstep
    obtain ⟨hstart, rfl⟩ := hstep
    simp only [left, hstart, startLeft, if_true]
    omega
  | paxosInit succeeds =>
    rw [Option.ite_none_right_eq_some] at hstep
    obtain ⟨hinit, hstep⟩ := hstep
    cases succeeds with
    | true =>
      simp only [if_true, Option.some.injEq] at hstep
      subst hstep
      simp [left, hinit, initLeft]
    | false =>
      simp only [Bool.false_eq_true, if_false, Option.some.injEq] at hstep
      subst hstep
      simp [left, hexited]

/-- A run has at most 20 steps, and three more for every time that `main` is woken up without a
signal. -/
lemma length_add_left_le {actions : List StartAction}
    (h : s.Inv currentNodeIp lastLoggedStateTimeMs)
    (hrun : run (StartUp.step currentNodeIp lastLoggedStateTimeMs) s actions = some s') :
    actions.length + s'.left ≤ s.left + 3 * actions.count .wakeUp := by
  induction actions generalizing s with
  | nil =>
    cases hrun
    simp
  | cons a actions ih =>
    obtain ⟨t, hstep, hrun⟩ := run_cons_eq_some.mp hrun
    have hlt := h.left_step hstep
    have hle := ih (h.step hstep) hrun
    rw [List.length_cons, List.count_cons]
    by_cases ha : a = .wakeUp
    · subst ha
      simp only [if_true, beq_self_eq_true] at hlt ⊢
      omega
    · simp only [ha, if_false, beq_eq_false_iff_ne.mpr ha, Bool.false_eq_true] at hlt ⊢
      omega

/-- While `main` does not hold the mutex it is free, or the other thread holds it. -/
lemma Inv.owner_cases (h : s.Inv currentNodeIp lastLoggedStateTimeMs) (htest : s.start ≠ .test)
    (hunlock : s.start ≠ .unlock) : s.owner = none ∨ s.owner = some .paxos := by
  cases howner : s.owner with
  | none => exact Or.inl rfl
  | some t =>
    cases t with
    | main =>
      rcases h.main.mp howner with hstart | hstart
      · exact absurd hstart htest
      · exact absurd hstart hunlock
    | timer => exact absurd howner h.timer
    | paxos => exact Or.inr rfl

/-- The thread of the replica can go on when it holds the mutex. -/
lemma Inv.step_of_owner (h : s.Inv currentNodeIp lastLoggedStateTimeMs) (hexited : s.exited = false)
    (howner : s.owner = some .paxos) :
    (s.step currentNodeIp lastLoggedStateTimeMs .paxos).isSome := by
  rcases h.paxos.mp howner with hinit | hinit | hinit
  · simp [StartUp.step, StartUp.stepPaxos, hexited, hinit]
  · simp [StartUp.step, StartUp.stepPaxos, hexited, hinit]
  · simp [StartUp.step, StartUp.stepPaxos, hexited, hinit]

/-- **Nobody waits for ever**: until nothing is left to do or the program has exited, there is a
step that is not a wake-up without a signal. -/
lemma Inv.exists_step (h : s.Inv currentNodeIp lastLoggedStateTimeMs) (hexited : s.exited = false)
    (hfinished : ¬ s.Finished) :
    ∃ a ≠ .wakeUp, (s.step currentNodeIp lastLoggedStateTimeMs a).isSome := by
  cases hstart : s.start with
  | create => exact ⟨.create true, by simp, by simp [StartUp.step, hexited, hstart]⟩
  | lock =>
    rcases h.owner_cases (by simp [hstart]) (by simp [hstart]) with howner | howner
    · exact ⟨.main, by simp, by simp [StartUp.step, StartUp.stepMain, hexited, hstart, howner]⟩
    · exact ⟨.paxos, by simp, h.step_of_owner hexited howner⟩
  | test =>
    refine ⟨.main, by simp, ?_⟩
    cases hdone : s.done <;> simp [StartUp.step, StartUp.stepMain, hexited, hstart, hdone]
  | wait =>
    -- the signal is still to come, and the mutex is not in its way
    obtain ⟨hunlock, hreleased⟩ := h.signal hstart
    rcases h.owner_cases (by simp [hstart]) (by simp [hstart]) with howner | howner
    · cases hinit : s.init with
      | absent =>
        rcases h.created.mp hinit with hcreate | hfailed
        · simp [hstart] at hcreate
        · simp [hstart] at hfailed
      | paxosInit => exact ⟨.paxosInit true, by simp, by simp [StartUp.step, hexited, hinit]⟩
      | initState =>
        exact ⟨.paxos, by simp, by simp [StartUp.step, StartUp.stepPaxos, hexited, hinit]⟩
      | lock =>
        exact ⟨.paxos, by simp, by simp [StartUp.step, StartUp.stepPaxos, hexited, hinit, howner]⟩
      | setDone => simp [h.paxos.mpr (Or.inl hinit)] at howner
      | signal => simp [h.paxos.mpr (Or.inr (Or.inl hinit))] at howner
      | unlock => exact absurd hinit hunlock
      | evsignalNew | evsignalAdd | callDispatch | dispatch => simp [hinit] at hreleased
    · exact ⟨.paxos, by simp, h.step_of_owner hexited howner⟩
  | woken =>
    rcases h.owner_cases (by simp [hstart]) (by simp [hstart]) with howner | howner
    · exact ⟨.main, by simp, by simp [StartUp.step, StartUp.stepMain, hexited, hstart, howner]⟩
    · exact ⟨.paxos, by simp, h.step_of_owner hexited howner⟩
  | unlock =>
    exact ⟨.main, by simp, by simp [StartUp.step, StartUp.stepMain, hexited, hstart]⟩
  | destroyMutex =>
    exact ⟨.main, by simp, by simp [StartUp.step, StartUp.stepMain, hexited, hstart]⟩
  | destroyCond =>
    exact ⟨.main, by simp, by simp [StartUp.step, StartUp.stepMain, hexited, hstart]⟩
  | returned created =>
    cases created with
    | false => exact absurd (Or.inl hstart) hfinished
    | true =>
      -- the thread has left the critical section and needs no mutex any more
      have hreleased := h.passed (by simp [hstart])
      refine ⟨.paxos, by simp, ?_⟩
      cases hinit : s.init with
      | dispatch => exact absurd (Or.inr ⟨hstart, hinit⟩) hfinished
      | evsignalNew | evsignalAdd | callDispatch =>
        simp [StartUp.step, StartUp.stepPaxos, hexited, hinit]
      | absent | paxosInit | initState | lock | setDone | signal | unlock =>
        simp [hinit] at hreleased

end StartUp

/-- **The replica is started.** In whatever order the two threads run, and however often
`pthread_cond_wait` returns without a signal:

* when `start_paxos_replica` returns 1, the replica is set up as by `init_state`, and its thread
  has left its critical section, and is in its event loop or still on the way to it;
* when it returns 0, there is no such thread, and the replica is never set up;
* when the mutex or the condition variable has been destroyed, the thread of the replica does not
  use them any more, and `main` neither the one nor the other;
* until `start_paxos_replica` has returned and its thread, if there is one, is in the event loop, or
  the program exits, something can happen that is not a wake-up without a signal, and there are at
  most 20 such steps and two more for every such wake-up.

**Proof sketch.** `done` is set and the signal is sent within one critical section. So while `main`
waits the signal is still to come, and once it has seen that `done` is set the other thread has left
the section. -/
theorem replica_started (currentNodeIp : IpBuffer) (lastLoggedStateTimeMs : ℚ)
    (actions : List StartAction) (s : StartUp)
    (hrun : run (StartUp.step currentNodeIp lastLoggedStateTimeMs) StartUp.begin actions = some s) :
    (s.start = .returned true →
      s.replica = some (initReplica currentNodeIp lastLoggedStateTimeMs) ∧ s.init.Released) ∧
    (s.start = .returned false → s.replica = none ∧ s.init = .absent) ∧
    (s.mutexAlive = false ∨ s.condAlive = false →
      s.init.Released ∧ (s.start = .destroyCond ∨ s.start = .returned true)) ∧
    (s.exited = false → ¬ s.Finished →
      ∃ a ≠ .wakeUp, (s.step currentNodeIp lastLoggedStateTimeMs a).isSome) ∧
    actions.length ≤ 20 + 3 * actions.count .wakeUp := by
  have hinv := StartUp.run_inv hrun
  refine ⟨fun hstart => ?_, fun hstart => ?_, fun hdestroyed => ?_, hinv.exists_step, ?_⟩
  · have hreleased := hinv.passed (by simp [hstart])
    refine ⟨?_, hreleased⟩
    rw [hinv.replica, if_neg]
    rintro (hinit | hinit | hinit) <;> simp [hinit] at hreleased
  · have hinit := hinv.created.mpr (Or.inr hstart)
    rw [hinv.replica]
    simp [hinit]
  · have hstart : s.start = .destroyCond ∨ s.start = .returned true := by
      rcases hdestroyed with hmutex | hcond
      · exact hinv.mutexAlive.mp hmutex
      · exact Or.inr (hinv.condAlive.mp hcond)
    refine ⟨hinv.passed ?_, hstart⟩
    exact Or.inr (Or.inr hstart)
  · have hle := StartUp.length_add_left_le StartUp.begin_inv hrun
    have hbegin : StartUp.begin.left = 20 := rfl
    omega

/-- `main` waits, is woken up without a signal and waits again. The signal wakes it up a second
time, and `start_paxos_replica` returns before the event loop is entered. -/
def startActions : List StartAction :=
  [.create true, .main, .main, .wakeUp, .paxosInit true, .main, .main, .paxos, .paxos, .paxos,
    .paxos, .paxos, .main, .main, .main, .main, .main]

/-- After these steps the replica is set up, and its thread is not yet in the event loop. -/
theorem replica_started_woken : ∃ s, run (StartUp.step (CharArray.zero _) 0) StartUp.begin
    startActions = some s ∧ s.replica = some (initReplica (CharArray.zero _) 0) ∧
      s.init ≠ .dispatch := by
  refine ⟨_, rfl, ?_, nofun⟩
  exact ((replica_started (CharArray.zero _) 0 startActions _ rfl).1 rfl).1

end FailureDetector
