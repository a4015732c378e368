import FailureDetector.Detector.Timed

set_option relaxedAutoImplicit false
set_option autoImplicit false

/-!
# The loop of the timer thread

In every round `_timer_thread` copies the descriptors of all timers into an array of
`MAX_TIMER_COUNT` entries, without a bound of its own. It waits in `poll`, reads the descriptors
that were ready, one after the other, and looks for the timer of each. It holds no mutex meanwhile.
So a heartbeat can come between any two of its steps, and it closes the descriptor of the timer that
it stops and frees its node.

* The timer thread may stand at the node. What it reads there afterwards is whatever is at the
  address by then.
* The number of the descriptor may be given to the next timer. Then the timer thread reads, or looks
  for, another timer than the one that was ready.
* `read` waits until the file has expired that the descriptor refers to.

A heartbeat and a callback are one step each, as `hashmap_lock` is held. Descriptors are opened for
timers only.

## Main definitions

* `FailureDetector.PollPc`, `FailureDetector.PollLoop` — where the timer thread is in its loop, and
  the state of the program with it.
* `FailureDetector.PollLoop.next`, `FailureDetector.PollLoop.step` — the steps of `_timer_thread`,
  and those of all threads.
* `FailureDetector.PollLoop.Untouched`, `FailureDetector.PollLoop.RoomForTimer` — the conditions.
* `FailureDetector.PollLoop.TimerStep`, `FailureDetector.PollLoop.Moves` — what the timer thread can
  do in a step.

## Main results

* `FailureDetector.PollLoop.timerStep_of_step` — it does nothing else.
-/

namespace FailureDetector

open CString LinkedList Runs

/-- `MAX_TIMER_COUNT`. -/
def maxTimerCount : ℕ := 1000

/-- How long `poll` waits if no descriptor gets ready, in milliseconds. -/
def pollTimeoutMs : ℚ := 100

/-- A file that `timerfd_create` has made, for the timer with the id `timerId`: the settings that it
has, and when they were made. -/
structure TimerFile where
  timerId : ℕ
  spec : Itimerspec
  setAt : ℚ

/-- The file has expired at the time `time`. -/
def TimerFile.readable (file : TimerFile) (time : ℚ) : Bool :=
  file.spec.armed ∧ file.setAt + file.spec.valueMs ≤ time

/-- Where the timer thread is in `_timer_thread`. -/
inductive PollPc
  /-- At the top of the loop. -/
  | top
  /-- At the test of the loop over the list, with `tmp` and the descriptors stored so far. -/
  | scan (tmp : ℕ) (ufds : List ℕ)
  /-- In this loop, before `tmp = tmp->next`. -/
  | advance (tmp : ℕ) (ufds : List ℕ)
  /-- In `poll`, since the time `since`. -/
  | poll (since : ℚ) (ufds : List ℕ)
  /-- In the loop over `ufds`, where these descriptors are left that `poll` has found ready. -/
  | visit (ready : List ℕ)
  /-- In `read`, on the file that the descriptor has referred to. -/
  | read (fd : ℕ) (file : TimerFile) (ready : List ℕ)
  /-- Before `_get_timer_from_fd`. -/
  | call (fd : ℕ) (ready : List ℕ)
  /-- At the test of its loop, with `tmp`. -/
  | lookup (fd tmp : ℕ) (ready : List ℕ)
  /-- In its loop, before `tmp = tmp->next`. -/
  | lookupNext (fd tmp : ℕ) (ready : List ℕ)
  /-- Before the callback is called with the timer at `tmp` and a copy of its arguments. -/
  | found (fd tmp : ℕ) (ready : List ℕ)

namespace PollPc

/-- The node at which the timer thread stands, or `0`. -/
def node : PollPc → ℕ
  | top | poll _ _ | visit _ | read _ _ _ | call _ _ => 0
  | scan tmp _ | advance tmp _ | lookup _ tmp _ | lookupNext _ tmp _ | found _ tmp _ => tmp

/-- The descriptors that the scan has stored. -/
def ufds : PollPc → List ℕ
  | scan _ ufds | advance _ ufds | poll _ ufds => ufds
  | _ => []

/-- The timers that the scan has still to store. -/
def toScan (timers : List (ℕ × Timer)) : PollPc → List (ℕ × Timer)
  | scan tmp _ => startingAt timers tmp
  | advance tmp _ => (startingAt timers tmp).tail
  | _ => []

/-- The descriptors that `poll` has found ready and that have not been read. -/
def ready : PollPc → List ℕ
  | visit ready | call _ ready | lookup _ _ ready | lookupNext _ _ ready | found _ _ ready => ready
  | read fd _ ready => fd :: ready
  | _ => []

/-- The descriptor that has been read and whose timer is looked for. -/
def serving : PollPc → Option ℕ
  | call fd _ | lookup fd _ _ | lookupNext fd _ _ | found fd _ _ => some fd
  | _ => none

end PollPc

/-- The state of the program with its two threads, where the timer thread is in its loop. -/
structure PollLoop extends TimedThreads where
  pc : PollPc
  /-- The id of the timer that a descriptor was opened for last. -/
  opener : ℕ → ℕ
  /-- The main thread has left the receive loop and is in `terminate_timer_manager`. -/
  terminating : Bool

/-- A step of the receive loop, of the timer thread or of `terminate_timer_manager`. -/
inductive PollAction
  | receive (time : ℚ) (env : DetectorEnv) (input : Received)
  /-- A node that has been freed reads as `freed`. -/
  | timer (time : ℚ) (env : DetectorEnv) (freed : Node Timer)
  /-- An iteration of the loop of `terminate_timer_manager`. -/
  | stop (time : ℚ)

/-- When the step happens. -/
def PollAction.time : PollAction → ℚ
  | .receive time _ _ | .timer time _ _ | .stop time => time

/-- The id of the timer that a step stops, or `0`: that of the sender of the heartbeat. -/
def Threads.stopped (s : Threads) (a : ThreadAction) : ℕ :=
  match s.heard a with
  | none => 0
  | some (_, ip) => (s.detector.timerOf ip).getD 0

namespace PollLoop

/-- The state in which the receive loop starts, at the time `now`. -/
def start (hostname : IpString) (unset : NodeStruct) (currentNodeIp : IpBuffer)
    (lastLogged now : ℚ) : PollLoop where
  toTimedThreads := TimedThreads.start hostname unset currentNodeIp lastLogged now
  pc := .top
  opener := fun _ => 0
  terminating := false

/-- The file that a descriptor refers to, if it is open. -/
def file (s : PollLoop) (fd : ℕ) : Option TimerFile :=
  (s.detector.timers.fds fd).map fun spec => ⟨s.opener fd, spec, s.setAt fd⟩

/-- Where the timer thread gets at the time `time`, in a step that does nothing else. It gets
nowhere while it waits, and nothing is said about what follows a store outside of `ufds`. -/
def next (s : PollLoop) (time : ℚ) (freed : Node Timer) : Option PollPc :=
  let node := fun tmp => (s.detector.timers.heap tmp).getD freed
  match s.pc with
  | .top => some (.scan s.detector.timers.gHead [])
  | .scan tmp ufds =>
    if tmp = 0 then some (.poll time ufds)
    else if ufds.length < maxTimerCount then some (.advance tmp (ufds ++ [(node tmp).data.fd]))
    else none
  | .advance tmp ufds => some (.scan (node tmp).next ufds)
  | .poll since ufds =>
    -- a closed descriptor is an event for `poll` as well, but not one that the loop looks for
    if ufds.any (fun fd => (s.file fd).all fun file => file.readable time) ∨
        since + pollTimeoutMs ≤ time then
      some (.visit (ufds.filter fun fd => (s.file fd).any fun file => file.readable time))
    else none
  | .visit [] => some .top
  | .visit (fd :: ready) =>
    match s.file fd with
    -- reading a closed descriptor fails
    | none => some (.visit ready)
    | some file => some (.read fd file ready)
  | .call fd ready => some (.lookup fd s.detector.timers.gHead ready)
  | .lookup fd tmp ready =>
    if tmp = 0 then some (.visit ready)
    else if (node tmp).data.fd = fd then some (.found fd tmp ready)
    else some (.lookupNext fd tmp ready)
  | .lookupNext fd tmp ready => some (.lookup fd (node tmp).next ready)
  | .read _ _ _ | .found _ _ _ => none

/-- Reading a file starts its next period, if there is one. The descriptor may have been closed
since the read began, and may refer to another file. -/
def readFile (s : PollLoop) (fd : ℕ) (file : TimerFile) : TimerManager :=
  match s.detector.timers.fds fd with
  | none => s.detector.timers
  | some spec =>
    if s.opener fd = file.timerId then
      { s.detector.timers with fds := Function.update s.detector.timers.fds fd (some spec.rearm) }
    else s.detector.timers

/-- The timer thread goes on at the time `time`. -/
def stepTimer (s : PollLoop) (time : ℚ) (env : DetectorEnv) (freed : Node Timer) :
    Option PollLoop :=
  match s.pending with
  | some _ => (s.toTimedThreads.step ⟨time, .callback env⟩).map fun threads =>
    { s with toTimedThreads := threads }
  | none =>
    match s.pc with
    | .read fd file ready =>
      if file.readable time then
        some { s with
          detector := { s.detector with timers := s.readFile fd file }
          now := time
          pc := .call fd ready }
      else none
    | .found _ tmp ready =>
      let node := (s.detector.timers.heap tmp).getD freed
      some { s with pending := some (tmp, node.data.userData), now := time, pc := .visit ready }
    | _ => (s.next time freed).map fun pc => { s with now := time, pc := pc }

/-- An iteration of the receive loop. -/
def stepReceive (s : PollLoop) (time : ℚ) (env : DetectorEnv) (input : Received) :
    Option PollLoop :=
  (s.toTimedThreads.step ⟨time, .receive env input⟩).map fun threads =>
    { s with
      toTimedThreads := threads
      opener :=
        match startedFd s.detector.timers threads.detector.timers with
        | none => s.opener
        | some fd => Function.update s.opener fd threads.detector.timers.started }

/-- One step. -/
def step (s : PollLoop) : PollAction → Option PollLoop
  | .receive time env input => if s.terminating then none else s.stepReceive time env input
  | .timer time env freed => if s.now ≤ time then s.stepTimer time env freed else none
  | .stop time =>
    if s.now ≤ time ∧ s.detector.timers.gHead ≠ 0 then
      (stopTimer s.detector.timers s.detector.timers.gHead).map fun timers =>
        { s with
          detector := { s.detector with timers := timers }
          now := time
          terminating := true }
    else none

/-! ### The conditions -/

/-- The id of the timer that a step stops, or `0`. -/
def stops (s : PollLoop) : PollAction → ℕ
  | .receive _ env input => s.toThreads.stopped (.receive env input)
  | .timer _ _ _ => 0
  | .stop _ => s.detector.timers.gHead

/-- The timer thread does not stand at the node of the timer that the step stops. -/
def Untouched (s : PollLoop) (a : PollAction) : Prop := s.stops a = 0 ∨ s.stops a ≠ s.pc.node

/-- The step adds a timer. -/
def AddsTimer (s : PollLoop) (a : PollAction) : Prop :=
  ∃ time env input, a = .receive time env input ∧ s.toThreads.AddsTimer (.receive env input)

/-- There are fewer than `MAX_TIMER_COUNT` timers when the step adds one. -/
def RoomForTimer (s : PollLoop) (a : PollAction) : Prop :=
  s.AddsTimer a → ∀ timers, s.detector.timers.Reaches timers → timers.length < maxTimerCount

/-- The step is the first heartbeat of a node, or its first one after it has been removed. -/
def joinsAt (s : PollLoop) : PollAction → Bool
  | .receive _ env input => s.toThreads.joinsAt (.receive env input)
  | _ => false

end PollLoop

/-! ### What a step can do -/

namespace PollLoop

variable {s s' : PollLoop}

/-- Where the timer thread gets in a step that does nothing else. -/
inductive Moves (s : PollLoop) (time : ℚ) (freed : Node Timer) : PollPc → PollPc → Prop
  | top : Moves s time freed .top (.scan s.detector.timers.gHead [])
  | scanned (ufds : List ℕ) : Moves s time freed (.scan 0 ufds) (.poll time ufds)
  | stored (tmp : ℕ) (ufds : List ℕ) (h0 : tmp ≠ 0) (hroom : ufds.length < maxTimerCount) :
      Moves s time freed (.scan tmp ufds)
        (.advance tmp (ufds ++ [((s.detector.timers.heap tmp).getD freed).data.fd]))
  | advanced (tmp : ℕ) (ufds : List ℕ) : Moves s time freed (.advance tmp ufds)
      (.scan ((s.detector.timers.heap tmp).getD freed).next ufds)
  | polled (since : ℚ) (ufds : List ℕ)
      (hreturn : ufds.any (fun fd => (s.file fd).all fun file => file.readable time) = true ∨
        since + pollTimeoutMs ≤ time) :
      Moves s time freed (.poll since ufds)
        (.visit (ufds.filter fun fd => (s.file fd).any fun file => file.readable time))
  | visited : Moves s time freed (.visit []) .top
  | closed (fd : ℕ) (ready : List ℕ) (hfile : s.file fd = none) :
      Moves s time freed (.visit (fd :: ready)) (.visit ready)
  | opened (fd : ℕ) (ready : List ℕ) (file : TimerFile) (hfile : s.file fd = some file) :
      Moves s time freed (.visit (fd :: ready)) (.read fd file ready)
  | called (fd : ℕ) (ready : List ℕ) :
      Moves s time freed (.call fd ready) (.lookup fd s.detector.timers.gHead ready)
  | absent (fd : ℕ) (ready : List ℕ) : Moves s time freed (.lookup fd 0 ready) (.visit ready)
  | matched (fd tmp : ℕ) (ready : List ℕ) (h0 : tmp ≠ 0)
      (hfd : ((s.detector.timers.heap tmp).getD freed).data.fd = fd) :
      Moves s time freed (.lookup fd tmp ready) (.found fd tmp ready)
  | different (fd tmp : ℕ) (ready : List ℕ) (h0 : tmp ≠ 0)
      (hfd : ((s.detector.timers.heap tmp).getD freed).data.fd ≠ fd) :
      Moves s time freed (.lookup fd tmp ready) (.lookupNext fd tmp ready)
  | followed (fd tmp : ℕ) (ready : List ℕ) : Moves s time freed (.lookupNext fd tmp ready)
      (.lookup fd ((s.detector.timers.heap tmp).getD freed).next ready)

/-- **Every such step is one of these.** -/
lemma moves_of_next {time : ℚ} {freed : Node Timer} {pc : PollPc}
    (hnext : s.next time freed = some pc) : Moves s time freed s.pc pc := by
  unfold next at hnext
  dsimp only at hnext
  split at hnext
  · next hpc =>
    cases hnext
    exact hpc ▸ .top
  · next tmp ufds hpc =>
    rw [hpc]
    split at hnext
    · next h0 =>
      subst h0
      cases hnext
      exact .scanned ufds
    · next h0 =>
      split at hnext
      · next hroom =>
        cases hnext
        exact .stored tmp ufds h0 hroom
      · cases hnext
  · next tmp ufds hpc =>
    cases hnext
    exact hpc ▸ .advanced tmp ufds
  · next since ufds hpc =>
    split at hnext
    · next hreturn =>
      cases hnext
      exact hpc ▸ .polled since ufds hreturn
    · cases hnext
  · next hpc =>
    cases hnext
    exact hpc ▸ .visited
  · next fd ready hpc =>
    rw [hpc]
    split at hnext
    · next hfile =>
      cases hnext
      exact .closed fd ready hfile
    · next file hfile =>
      cases hnext
      exact .opened fd ready file hfile
  · next fd ready hpc =>
    cases hnext
    exact hpc ▸ .called fd ready
  · next fd tmp ready hpc =>
    rw [hpc]
    split at hnext
    · next h0 =>
      subst h0
      cases hnext
      exact .absent fd ready
    · next h0 =>
      split at hnext
      · next hfd =>
        cases hnext
        exact .matched fd tmp ready h0 hfd
      · next hfd =>
        cases hnext
        exact .different fd tmp ready h0 hfd
  · next fd tmp ready hpc =>
    cases hnext
    exact hpc ▸ .followed fd tmp ready
  · cases hnext
  · cases hnext

/-- The kinds of steps that the timer thread makes. -/
inductive TimerStep (s : PollLoop) (time : ℚ) (env : DetectorEnv) (freed : Node Timer) :
    PollLoop → Prop
  /-- It runs the callback. -/
  | callback (threads : TimedThreads)
      (hthreads : s.toTimedThreads.step ⟨time, .callback env⟩ = some threads) :
      TimerStep s time env freed { s with toTimedThreads := threads }
  /-- `read` returns. -/
  | returned (fd : ℕ) (file : TimerFile) (ready : List ℕ) (hpending : s.pending = none)
      (hpc : s.pc = .read fd file ready) (hreadable : file.readable time = true) :
      TimerStep s time env freed
        { s with
          detector := { s.detector with timers := s.readFile fd file }
          now := time
          pc := .call fd ready }
  /-- It copies the arguments of the timer that it has found. -/
  | copied (fd tmp : ℕ) (ready : List ℕ) (hpending : s.pending = none)
      (hpc : s.pc = .found fd tmp ready) :
      TimerStep s time env freed
        { s with
          pending := some (tmp, ((s.detector.timers.heap tmp).getD freed).data.userData)
          now := time
          pc := .visit ready }
  /-- It does nothing but go on. -/
  | moved (pc : PollPc) (hpending : s.pending = none) (hmoves : Moves s time freed s.pc pc) :
      TimerStep s time env freed { s with now := time, pc := pc }

/-- **Every step of the timer thread is of one of these kinds.** -/
lemma timerStep_of_step {time : ℚ} {env : DetectorEnv} {freed : Node Timer}
    (hstep : s.step (.timer time env freed) = some s') :
    s.now ≤ time ∧ TimerStep s time env freed s' := by
  rw [step] at hstep
  split at hstep
  · next hnow =>
    refine ⟨hnow, ?_⟩
    unfold stepTimer at hstep
    split at hstep
    · obtain ⟨threads, hthreads, rfl⟩ := Option.map_eq_some_iff.mp hstep
      exact .callback threads hthreads
    · next hpending =>
      split at hstep
      · next fd file ready hpc =>
        split at hstep
        · next hreadable =>
          cases hstep
          exact .returned fd file ready hpending hpc hreadable
        · cases hstep
      · next fd tmp ready hpc =>
        cases hstep
        exact .copied fd tmp ready hpending hpc
      · obtain ⟨pc, hnext, rfl⟩ := Option.map_eq_some_iff.mp hstep
        exact .moved pc hpending (moves_of_next hnext)
  · cases hstep

end PollLoop

end FailureDetector
