import FailureDetector.Detector.PollRound

set_option relaxedAutoImplicit false
set_option autoImplicit false

/-!
# The array that the timer thread polls

In every round `_timer_thread` copies the descriptors of all timers into an array of
`MAX_TIMER_COUNT` entries, without a bound of its own. A heartbeat of a node that has a timer
replaces it, but one of a node without a timer adds one, and `handle_timeout` leaves the timer of
the node it removes in the list. So every join counts, also that of a node that has been there
before.

As long as there are never more timers than the array has entries, the copy stays inside of it, also
if heartbeats change the list meanwhile, unless one of them frees the node at which the timer thread
stands.

## Main definitions

* `FailureDetector.PollLoop.ScanInBounds` — the next store is inside the array.

## Main results

* `FailureDetector.poll_scan_in_bounds` — when all stores are.
* `FailureDetector.poll_scan_out_of_bounds` — they need not be.
-/

namespace FailureDetector

open CString LinkedList Runs

namespace PollLoop

variable {hostname : IpString} {s s' : PollLoop} {timers : List (ℕ × Timer)} {a : PollAction}
  {actions : List PollAction} {unset : NodeStruct} {currentNodeIp : IpBuffer} {lastLogged now : ℚ}

/-- If the scan stores a descriptor next, its index is smaller than `MAX_TIMER_COUNT`. -/
def ScanInBounds (s : PollLoop) : Prop :=
  ∀ tmp ufds, s.pc = .scan tmp ufds → tmp ≠ 0 → ufds.length < maxTimerCount

/-- It is if the array has room for everything that the scan has still to store. -/
lemma Listed.scanInBounds (h : Listed hostname s timers)
    (hle : s.pc.scanLength timers ≤ maxTimerCount) : s.ScanInBounds := by
  intro tmp ufds hpc h0
  have hnode := h.stands.node
  rw [hpc] at hnode hle
  have hmem : tmp ∈ timers.map Prod.fst := hnode.resolve_left h0
  obtain ⟨n, -, hrest, -⟩ := h.reaches.chain.startingAt_node hmem
  rw [PollPc.scanLength, PollPc.ufds, PollPc.toScan, hrest, List.length_cons] at hle
  omega

/-- What has been done by the end of a step includes what had been done before it. -/
lemma trace_step (hstep : s.step a = some s') : ∃ events, s'.trace = s.trace ++ events := by
  cases a with
  | receive time env input =>
    rw [step] at hstep
    split at hstep
    · cases hstep
    · obtain ⟨threads, hthreads, rfl⟩ := Option.map_eq_some_iff.mp hstep
      obtain ⟨-, -, hplain, -⟩ := TimedThreads.step_eq_some hthreads
      obtain ⟨history, hhistory, heq⟩ := Option.map_eq_some_iff.mp hplain
      rw [History.step] at hhistory
      split at hhistory
      · obtain ⟨⟨d', events⟩, -, rfl⟩ := Option.map_eq_some_iff.mp hhistory
        refine ⟨events, ?_⟩
        show threads.trace = s.trace ++ events
        rw [← heq]
      · cases hhistory
  | timer time env freed =>
    obtain ⟨-, hdo⟩ := timerStep_of_step hstep
    cases hdo with
    | callback threads hthreads =>
      obtain ⟨-, -, hplain, -⟩ := TimedThreads.step_eq_some hthreads
      obtain ⟨⟨timerId, ip⟩, -, heq⟩ := Option.map_eq_some_iff.mp hplain
      refine ⟨(handleTimeout env s.detector timerId ip).2, ?_⟩
      show threads.trace = _
      rw [← heq]
    | returned | copied | moved => exact ⟨[], (List.append_nil _).symm⟩
  | stop time =>
    rw [step] at hstep
    split at hstep
    · obtain ⟨t, -, rfl⟩ := Option.map_eq_some_iff.mp hstep
      exact ⟨[], (List.append_nil _).symm⟩
    · cases hstep

/-- **There are no more timers than there have been joins**, if every timer could be started, and
neither are there more descriptors to store.

**Proof sketch.** Induction on the run: a step that adds a timer is a join. -/
lemma run_joins
    (halong : Along PollLoop.step Untouched (start hostname unset currentNodeIp lastLogged now)
      actions)
    (hrun : run PollLoop.step (start hostname unset currentNodeIp lastLogged now) actions = some s)
    (halloc : ∀ ip, .startTimer 0 ip ∉ s.trace) :
    ∃ timers, Listed hostname s timers ∧
      timers.length ≤ countAlong PollLoop.step joinsAt
        (start hostname unset currentNodeIp lastLogged now) actions ∧
      s.pc.scanLength timers ≤ countAlong PollLoop.step joinsAt
        (start hostname unset currentNodeIp lastLogged now) actions := by
  induction actions using List.reverseRecOn generalizing s with
  | nil =>
    cases hrun
    exact ⟨[], start_listed hostname unset currentNodeIp lastLogged now, le_rfl, le_rfl⟩
  | append_singleton actions a ih =>
    obtain ⟨t, ht, hstep⟩ := run_concat_eq_some.mp hrun
    obtain ⟨halong', hlast⟩ := along_concat.mp halong
    obtain ⟨events, htrace⟩ := trace_step hstep
    have halloc' : ∀ ip, .startTimer 0 ip ∉ t.trace :=
      fun ip hmem => halloc ip (htrace ▸ List.mem_append_left _ hmem)
    obtain ⟨timers, h, hlen, hscan⟩ := ih halong' ht halloc'
    obtain ⟨timers', h', hgrows⟩ := h.step (hlast t ht) hstep
    rw [countAlong_concat ht]
    have hscan' := hgrows.scanLength_le
    refine ⟨timers', h', ?_, by omega⟩
    rcases hgrows.length_le with hle | ⟨hadds, heq⟩
    · omega
    · have hjoin : t.joinsAt a = true := by
        obtain ⟨time, env, input, rfl, hadds⟩ := hadds
        have hrunning : t.terminating = false := by
          by_contra hne
          rw [step, if_pos (by simpa using hne)] at hstep
          cases hstep
        exact hadds.joinsAt (h.threads hrunning) halloc'
      rw [heq, hjoin, Bool.toNat_true]
      omega

end PollLoop

/-- **When the poll scan stays inside its array.** Along a run in which no heartbeat and no
iteration of `terminate_timer_manager` frees the node at which the timer thread stands, every index
at which the scan stores is smaller than `MAX_TIMER_COUNT` if there are fewer than `MAX_TIMER_COUNT`
timers whenever a heartbeat of a node without a timer adds one. If every timer can be started, that
is so if there are at most `MAX_TIMER_COUNT` joins in the run, counting every time a node joins
again after it has been removed.

**Proof sketch.** What the scan has stored and what it has still to store do not get more than the
timers that there were when it began (`FailureDetector.PollLoop.Listed.step`), and the timers are no
more than the joins. -/
theorem poll_scan_in_bounds (hostname : IpString) (unset : NodeStruct) (currentNodeIp : IpBuffer)
    (lastLogged now : ℚ) (actions : List PollAction) (s : PollLoop)
    (halong : Along PollLoop.step PollLoop.Untouched
      (PollLoop.start hostname unset currentNodeIp lastLogged now) actions)
    (hrun : run PollLoop.step (PollLoop.start hostname unset currentNodeIp lastLogged now) actions =
      some s) :
    (Along PollLoop.step PollLoop.RoomForTimer
        (PollLoop.start hostname unset currentNodeIp lastLogged now) actions → s.ScanInBounds) ∧
    ((∀ ip, .startTimer 0 ip ∉ s.trace) →
      countAlong PollLoop.step PollLoop.joinsAt
        (PollLoop.start hostname unset currentNodeIp lastLogged now) actions ≤ maxTimerCount →
      s.ScanInBounds) := by
  refine ⟨fun hroom => ?_, fun halloc hjoins => ?_⟩
  · obtain ⟨timers, h, hin⟩ := PollLoop.run_inBounds (fun pre a post t heq hpre =>
      ⟨halong pre a post t heq hpre, hroom pre a post t heq hpre⟩) hrun
    exact h.scanInBounds hin.scanLength_le
  · obtain ⟨timers, h, -, hscan⟩ := PollLoop.run_joins halong hrun halloc
    exact h.scanInBounds (hscan.trans hjoins)

/-- The scan stays inside the array when a node joins and the timer thread begins a round. -/
theorem poll_scan_in_bounds_one :
    ∃ s tmp, run PollLoop.step
        (PollLoop.start ipOne (nodeWithIp ⟨[], by decide⟩) (CharArray.zero _) 0 0)
        [PollLoop.firstBeacon ipTwo,
          .timer 0 quietDetectorEnv ⟨⟨0, ipTwo, 0, .timerSingleShot⟩, 0⟩] = some s ∧
      s.pc = .scan tmp [] ∧ tmp ≠ 0 ∧ s.ScanInBounds := by
  have hne : ipTwo ≠ ipOne := by decide
  obtain ⟨s₁, timers, hjoined⟩ := PollLoop.exists_joined (nodeWithIp ⟨[], by decide⟩)
    (CharArray.zero _) 0 hne
  have hnow : s₁.now ≤ 0 := hjoined.joins.now.le
  have hstep := PollLoop.step_top hjoined.top hjoined.pending hnow quietDetectorEnv
    ⟨⟨0, ipTwo, 0, .timerSingleShot⟩, 0⟩
  obtain ⟨t, ht, hnil⟩ := run_cons_eq_some.mp hjoined.run_eq
  cases hnil
  have hrun := run_cons_eq_some.mpr ⟨s₁, ht, run_singleton.trans hstep⟩
  have hhead : s₁.detector.timers.gHead ≠ 0 := by
    intro hzero
    have hlists : s₁.detector.timers.Lists timers := hjoined.refines.inv.threads.timersOwned.lists
    have hrest := hlists.chain.startingAt_head
    rw [hzero, startingAt_of_notMem hlists.chain.zero_notMem] at hrest
    exact absurd hjoined.length_eq (by rw [← hrest]; exact Nat.zero_ne_one)
  refine ⟨_, _, hrun, rfl, hhead, ?_⟩
  refine (poll_scan_in_bounds _ _ _ _ _ _ _ ?_ hrun).2 hjoined.starts ?_
  · refine along_cons.mpr ⟨(PollLoop.undisturbed_top rfl _ _ _).untouched, fun u _ =>
      along_cons.mpr ⟨Or.inl rfl, fun v _ => along_nil⟩⟩
  · refine (countAlong_le_length _ _ _).trans ?_
    rw [maxTimerCount, List.length_cons, List.length_singleton]
    omega

/-! ### A node that fails and joins again -/

namespace PollLoop

variable {hostname peer : IpString} {s s' : PollLoop} {timers : List (ℕ × Timer)} {n : ℕ}

/-- The environment at the time `time` in which `timerfd_create` returns the descriptor `n + 3`. -/
def nextFdEnv (n : ℕ) (time : ℚ) : DetectorEnv :=
  { quietDetectorEnv with timerfd := some (n + 3), currentTimeMs := time }

/-- The node `peer` is not in the table, the timer thread is at the top of its loop, there are `n`
timers, and no descriptor from `n + 3` on is open. -/
structure Idle (hostname peer : IpString) (n : ℕ) (s : PollLoop) : Prop where
  refines : ∃ now timers, Refines hostname s now s.pending timers ∧ timers.length = n
  top : s.pc = .top
  pending : s.pending = none
  running : s.detector.running = true
  absent : peer ∉ ipKeys s.detector.nodes
  closed : ∀ fd, n + 3 ≤ fd → s.detector.timers.fds fd = none
  starts : ∀ ip, .startTimer 0 ip ∉ s.trace

/-- The node joins. -/
lemma Idle.join (h : Idle hostname peer n s) (hne : peer ≠ hostname) :
    ∃ s' timers, s.step (.receive s.now (nextFdEnv n s.now) (.beacon peer [])) = some s' ∧
      TimedThreads.Joins s.toTimedThreads (nextFdEnv n s.now) peer s'.toTimedThreads ∧
      s'.pc = .top ∧ timers.length = n + 1 ∧ Refines hostname s' s.now s'.pending timers ∧
      TimedThreads.Watched peer (s'.abstract s.now s'.pending) timers := by
  obtain ⟨now, timers, hrefines, hlen⟩ := h.refines
  have hnow : s.now ≤ (nextFdEnv n s.now).currentTimeMs := le_rfl
  have halloc : TimerManager.Allocates (nextFdEnv n s.now).toTimerEnv s.detector.timers :=
    ⟨rfl, n + 3, rfl, h.closed _ le_rfl⟩
  obtain ⟨s', timers', hstep, hjoins, hpc, hlen', hrefines', hwatched⟩ :=
    exists_join hrefines h.top h.running hne h.absent hnow rfl halloc h.starts []
  exact ⟨s', timers', hstep, hjoins, hpc, hlen'.trans (congrArg (· + 1) hlen), hrefines', hwatched⟩

/-- **A node joins and fails**: its timer remains. -/
lemma Idle.cycle (h : Idle hostname peer n s) (hne : peer ≠ hostname) (hlt : n < maxTimerCount) :
    ∃ as s', run PollLoop.step s as = some s' ∧ Idle hostname peer (n + 1) s' := by
  obtain ⟨s₁, timers, hstep, hjoins, htop₁, hlen, h₁, hwatched⟩ := h.join hne
  have hin₁ : s₁.InBounds timers := by
    refine ⟨hlen.trans_le hlt, ?_⟩
    rw [htop₁]
    exact Nat.zero_le _
  have halloc₁ : ∀ ip, .startTimer 0 ip ∉ s₁.trace :=
    fun ip hstart => h.starts ip (hjoins.starts ip hstart)
  have hdeadline : s₁.deadline peer ≤ ((s₁.now + pollTimeoutMs : ℚ) : WithTop ℚ) := by
    rw [hjoins.deadline, hjoins.now]
    exact le_rfl
  have hlock : quietDetectorEnv.lock .hashmapLock = true := rfl
  set freed : Node Timer := ⟨⟨0, peer, 0, .timerSingleShot⟩, 0⟩
  -- the timer thread removes the node, and completes its round
  obtain ⟨as₂, s₂, has₂, hrun₂, ⟨now₂, pending₂, h₂⟩, hin₂, -, hremoved⟩ :=
    exists_removed h₁ hin₁ hne hwatched halloc₁ le_rfl hdeadline hlock freed
  obtain ⟨as₃, s₃, has₃, hrun₃, ⟨now₃, pending₃, h₃⟩, -, -, htop₃, hnone₃⟩ :=
    exists_run_top h₂ hin₂ le_rfl quietDetectorEnv freed
  have htimer₂ : ∀ a ∈ as₂, ∃ t, a = .timer t quietDetectorEnv freed :=
    fun a ha => (has₂ a ha).imp fun _ ht => ht.2
  have htimer₃ : ∀ a ∈ as₃, ∃ t, a = .timer t quietDetectorEnv freed :=
    fun a ha => (has₃ a ha).imp fun _ ht => ht.2
  have hframe₂ := h₁.timerFrame hlock htimer₂ hrun₂
  have hframe₃ := h₂.timerFrame hlock htimer₃ hrun₃
  have hidle : pending₃ = s₃.pending := by
    have hpicked := h₃.picked
    rw [htop₃] at hpicked
    exact hpicked
  refine ⟨_ :: (as₂ ++ as₃), s₃, run_cons_eq_some.mpr ⟨s₁, hstep, run_append_eq_some.mpr
    ⟨s₂, hrun₂, hrun₃⟩⟩, ⟨now₃, timers, hidle ▸ h₃, hlen⟩, htop₃, hnone₃,
    hframe₃.running.trans (hframe₂.running.trans hjoins.running),
    fun hmem => hremoved (hframe₃.keys peer hmem), fun fd hfd => ?_, fun ip hstart => ?_⟩
  · have hne' : (nextFdEnv n s.now).timerfd ≠ some fd := by
      intro heq
      have : n + 3 = fd := Option.some.inj heq
      omega
    exact hframe₃.closed fd (hframe₂.closed fd (hjoins.closed fd hne' (h.closed fd (by omega))))
  · rw [← Threads.mem_timersStarted, hframe₃.starts, hframe₂.starts,
      Threads.mem_timersStarted] at hstart
    exact halloc₁ ip hstart

/-- **A node may join and fail** as many times as the array has entries, and leaves a timer each
time.
-/
lemma exists_idle (unset : NodeStruct) (currentNodeIp : IpBuffer) (lastLogged now : ℚ)
    (hne : peer ≠ hostname) (hle : n ≤ maxTimerCount) :
    ∃ actions s, run PollLoop.step (start hostname unset currentNodeIp lastLogged now) actions =
      some s ∧ Idle hostname peer n s := by
  induction n with
  | zero =>
    refine ⟨[], _, rfl, ⟨now, [], start_refines hostname unset currentNodeIp lastLogged now, rfl⟩,
      rfl, rfl, rfl, fun hmem => hne (List.mem_singleton.mp hmem), fun _ _ => rfl,
      start_starts hostname unset currentNodeIp lastLogged now⟩
  | succ n ih =>
    obtain ⟨actions, s, hrun, hidle⟩ := ih (Nat.le_of_succ_le hle)
    obtain ⟨as, s', hcycle, hidle'⟩ := hidle.cycle hne hle
    exact ⟨_, s', run_append_eq_some.mpr ⟨s, hrun, hcycle⟩, hidle'⟩

/-- The scan stores a descriptor and goes on to the next timer. -/
lemma run_store {tmp : ℕ} {ufds : List ℕ} (hpc : s.pc = .scan tmp ufds) (hnone : s.pending = none)
    (h0 : tmp ≠ 0) (hlt : ufds.length < maxTimerCount) (env : DetectorEnv) (freed : Node Timer) :
    run PollLoop.step s [.timer s.now env freed, .timer s.now env freed] = some { s with
      pc := .scan ((s.detector.timers.heap tmp).getD freed).next
        (ufds ++ [((s.detector.timers.heap tmp).getD freed).data.fd]) } := by
  have hstore : s.step (.timer s.now env freed) = some { s with
      pc := .advance tmp (ufds ++ [((s.detector.timers.heap tmp).getD freed).data.fd]) } := by
    rw [step, if_pos le_rfl, stepTimer, hnone]
    dsimp only
    rw [hpc]
    dsimp only
    rw [next, hpc]
    dsimp only
    rw [if_neg h0, if_pos hlt]
    rfl
  refine run_cons_eq_some.mpr ⟨_, hstore, run_singleton.trans ?_⟩
  rw [step, if_pos le_rfl, stepTimer, hnone]
  rfl

/-- **The scan stores one descriptor after the other**, until the array is full. -/
lemma exists_scan (hreaches : s.detector.timers.Reaches timers) (htop : s.pc = .top)
    (hnone : s.pending = none) (env : DetectorEnv) (freed : Node Timer) {k : ℕ}
    (hk : k ≤ maxTimerCount) (hlen : k ≤ timers.length) :
    ∃ as tmp ufds, run PollLoop.step s as = some { s with pc := .scan tmp ufds } ∧
      ufds.length = k ∧ (startingAt timers tmp).length + k = timers.length := by
  induction k with
  | zero =>
    refine ⟨[.timer s.now env freed], s.detector.timers.gHead, [],
      run_singleton.trans (step_top htop hnone le_rfl env freed), rfl, ?_⟩
    · rw [hreaches.chain.startingAt_head]
      rfl
  | succ k ih =>
    obtain ⟨as, tmp, ufds, hrun, hufds, hrest⟩ := ih (Nat.le_of_succ_le hk) (Nat.le_of_succ_le hlen)
    have hmem : tmp ∈ timers.map Prod.fst := by
      by_contra hnot
      rw [startingAt_of_notMem hnot, List.length_nil] at hrest
      omega
    have h0 : tmp ≠ 0 := fun h => hreaches.chain.zero_notMem (h ▸ hmem)
    obtain ⟨n, hn, hnode, -⟩ := exists_node hreaches freed tmp h0 (Or.inr hmem)
    have hstore := run_store (s := { s with pc := .scan tmp ufds }) rfl hnone h0
      (by omega) env freed
    refine ⟨as ++ [.timer s.now env freed, .timer s.now env freed], n.next, _,
      run_append_eq_some.mpr ⟨_, hrun, hn ▸ hstore⟩, ?_, ?_⟩
    · rw [List.length_append, List.length_singleton, hufds]
    · rw [hnode, List.length_cons] at hrest
      omega

end PollLoop

/-- **The poll scan need not stay inside its array.** The node `2` joins and fails as many times as
the array has entries, and joins once more. -/
theorem poll_scan_out_of_bounds :
    ¬ ∀ (hostname : IpString) (unset : NodeStruct) (currentNodeIp : IpBuffer)
      (lastLogged now : ℚ) (actions : List PollAction) (s : PollLoop),
      run PollLoop.step (PollLoop.start hostname unset currentNodeIp lastLogged now) actions =
        some s → s.ScanInBounds := by
  intro h
  have hne : ipTwo ≠ ipOne := by decide
  obtain ⟨actions, s, hrun, hidle⟩ := PollLoop.exists_idle (nodeWithIp ⟨[], by decide⟩)
    (CharArray.zero _) 0 0 hne (le_refl maxTimerCount)
  obtain ⟨s₁, timers, hstep, hjoins, htop, hlen, hrefines, -⟩ := hidle.join hne
  have hreaches : s₁.detector.timers.Reaches timers :=
    hrefines.inv.threads.timersOwned.lists.reaches
  obtain ⟨as, tmp, ufds, hscan, hufds, hrest⟩ := PollLoop.exists_scan hreaches htop
    (hjoins.pending.trans hidle.pending) quietDetectorEnv ⟨⟨0, ipTwo, 0, .timerSingleShot⟩, 0⟩
    le_rfl (Nat.le_of_succ_le hlen.ge)
  have h0 : tmp ≠ 0 := by
    rintro rfl
    rw [startingAt_of_notMem hreaches.chain.zero_notMem, List.length_nil] at hrest
    omega
  have hlt := h _ _ _ _ _ _ _ (run_append_eq_some.mpr ⟨s, hrun, run_cons_eq_some.mpr
    ⟨s₁, hstep, hscan⟩⟩) tmp ufds rfl h0
  omega

end FailureDetector
