import FailureDetector.Detector.Expiry
import FailureDetector.Detector.Timed

set_option relaxedAutoImplicit false
set_option autoImplicit false

/-!
# The deadlines of the nodes

The deadline of a node is the time of its last heartbeat plus the timeout that the estimator has
computed from all its heartbeats since it has joined. If no expiry is overtaken by a heartbeat, the
timer of a node is not picked up before its deadline. That needs no condition for a node whose
heartbeats come with a period below the first timeout: its deadline is never before its next
heartbeat. The timer of a node that has become silent stays due at its deadline until it is picked
up, and there is none if the timeout is below a millisecond: then the node stays for ever.

## Main definitions

* `FailureDetector.TimedThreads.Punctual` — the heartbeats of a node are processed every `P` ms.
* `FailureDetector.TimedThreads.Watched` — a timer guards the deadline of a node.

## Main results

* `FailureDetector.TimedThreads.Inv.exists_estimate` — what the deadline is.
* `FailureDetector.TimedThreads.removed_after_deadline` — when a node is removed.
* `FailureDetector.TimedThreads.run_periodic` — a periodic peer.
* `FailureDetector.TimedThreads.Watched.step`, `FailureDetector.TimedThreads.run_no_deadline` — a
  silent one.
-/

namespace FailureDetector

open CString Runs Watchdog

/-- The deadline after a heartbeat is later than `P` ms if the interval is zero or not below `P`. -/
lemma lt_deadlineAfter {time t P : ℚ} {interval : ℕ} (h : interval = 0 ∨ P ≤ interval)
    (ht : t < time + P) : (t : WithTop ℚ) < deadlineAfter time interval := by
  rw [deadlineAfter]
  split
  · exact WithTop.coe_lt_top t
  · next hne =>
    have hle := h.resolve_left hne
    rw [WithTop.coe_lt_coe]
    linarith

/-- The timeouts of a periodic peer are in the range of `unsigned int` if its period is. -/
lemma nextTimeout_periodic_lt (mem : UnsetTimeoutMemory) {a₀ P : ℚ} (hP : P < 100) {k : ℕ}
    (hk : 1 ≤ k) : (feed mem (fun i : ℕ => a₀ + i * P) (k + 1)).nextTimeout < 4294967296 := by
  have hq : (1 : ℚ) ≤ k := by exact_mod_cast hk
  have hmean : ∀ w, 1 ≤ w → windowMean (fun i : ℕ => a₀ + i * P) w k ≤ 50 := by
    intro w hw
    rcases Nat.lt_or_ge w k with h | h
    · rw [windowMean_periodic_of_lt hw h]
      norm_num
    · rw [windowMean_periodic_of_le hk h, div_le_iff₀ (by linarith), heartbeatInterval]
      linarith
  have hmax := max_le (hmean w1WindowSize (by decide)) (hmean w2WindowSize (by decide))
  rw [nextTimeout_periodic mem hk, heartbeatInterval]
  linarith

namespace TimedThreads

variable {hostname : IpString} {s s' : TimedThreads} {timers : List (ℕ × Timer)} {a : TimedAction}
  {actions : List TimedAction} {unset : NodeStruct} {currentNodeIp : IpBuffer} {lastLogged now : ℚ}
  {ip : IpString}

/-- In a run without overtaken expiries, no timer is picked up before the deadline of its node. -/
lemma run_onTime
    (halong : Along step (fun s a => s.toThreads.NotOvertaken a.act)
      (start hostname unset currentNodeIp lastLogged now) actions)
    (hrun : run step (start hostname unset currentNodeIp lastLogged now) actions = some s) :
    ∃ timers, Inv hostname s timers ∧ (s.watch timers).watch.Current ∧
      (s.watch timers).OnTime (s.now : WithTop ℚ) := by
  refine run_invariant_along (fun s => ∃ timers, Inv hostname s timers ∧
    (s.watch timers).watch.Current ∧ (s.watch timers).OnTime (s.now : WithTop ℚ)) ?_
    ⟨[], start_inv hostname unset currentNodeIp lastLogged now, Threads.start_current,
      fun _ hp => absurd hp List.not_mem_nil, fun _ _ h => absurd h.symm (Option.some_ne_none _)⟩
    halong hrun
  rintro s a s' ⟨timers, hinv, hcurrent, hontime⟩ hfree hstep
  obtain ⟨timers', hinv'⟩ := hinv.step hstep
  obtain ⟨timers₁, l, hthreads, hsim, hears⟩ := step_sim hinv.threads hstep
  obtain rfl := hthreads.timersOwned.lists.chain.unique hinv'.threads.timersOwned.lists.chain
  obtain ⟨hle, -, -, hnow, -⟩ := step_eq_some hstep
  have hovertaken : ∀ ip id, l = .heard ip → (s.watch timers).watch.pending ≠ some (id, ip) :=
    fun ip id heq => hfree ip id ((hears ip).mp heq)
  refine ⟨timers₁, hinv', hsim.step.current hcurrent hovertaken, ?_⟩
  rw [hnow]
  exact hsim.onTime hcurrent hontime (WithTop.coe_le_coe.mpr hle) hovertaken

/-- A node that is in the table has been heard from. -/
lemma Inv.estimated_of_mem (hinv : Inv hostname s timers) (hip : ip ≠ hostname)
    (hmem : ip ∈ ipKeys s.detector.nodes) :
    ∃ node, HashTable.find NodeStruct.ipaddress s.detector.nodes ip = some node ∧
      Estimated (s.beats ip) (s.deadline ip) node := by
  obtain ⟨node, hnode⟩ : ∃ node,
      HashTable.find NodeStruct.ipaddress s.detector.nodes ip = some node := by
    refine Option.ne_none_iff_exists'.mp fun hnone => ?_
    exact (HashTable.find_eq_none NodeStruct.ipaddress).mp hnone hmem
  exact ⟨node, hnode, hinv.estimated ip node hip hnode⟩

end TimedThreads

/-- The number of the last heartbeat, and its time. -/
lemma Estimated.exists_last {beats : List ℚ} {deadline : WithTop ℚ} {node : NodeStruct}
    (h : Estimated beats deadline node) :
    ∃ k, beats.length = k + 1 ∧ beats.getD k 0 = node.lastHeartbeatMs := by
  have hne : beats ≠ [] := by
    rintro rfl
    exact absurd h.last.symm (Option.some_ne_none _)
  obtain ⟨k, hk⟩ := Nat.exists_eq_succ_of_ne_zero (List.length_pos_of_ne_nil hne).ne'
  refine ⟨k, hk, ?_⟩
  have hlast := h.last
  rw [List.getLast?_eq_getElem?, hk, Nat.succ_sub_one] at hlast
  rw [List.getD_eq_getElem?_getD, hlast, Option.getD_some]

namespace TimedThreads

variable {hostname : IpString} {s s' : TimedThreads} {timers : List (ℕ × Timer)} {a : TimedAction}
  {actions : List TimedAction} {unset : NodeStruct} {currentNodeIp : IpBuffer} {lastLogged now : ℚ}
  {ip : IpString}

/-- **The deadline of a node** is the time of its last heartbeat plus the timeout that the estimator
has computed from all its heartbeats. -/
lemma Inv.exists_estimate (hinv : Inv hostname s timers) (hip : ip ≠ hostname)
    (hmem : ip ∈ ipKeys s.detector.nodes) :
    ∃ k mem outOfRange, (s.beats ip).length = k + 1 ∧
      let arrivals := fun i => (s.beats ip).getD i 0
      s.deadline ip = deadlineAfter (arrivals k)
        (unsignedOfDouble outOfRange (feed mem arrivals (k + 1)).nextTimeout) := by
  obtain ⟨node, -, hestimated⟩ := hinv.estimated_of_mem hip hmem
  obtain ⟨k, hk, hlast⟩ := hestimated.exists_last
  obtain ⟨mem, hmetadata⟩ := hestimated.metadata
  obtain ⟨outOfRange, hdeadline⟩ := hestimated.deadline_eq
  refine ⟨k, mem, outOfRange, hk, ?_⟩
  dsimp only
  rw [hlast, ← hk, ← hmetadata]
  exact hdeadline

/-- **A node is removed after its deadline** in a run in which no expiry is overtaken by a heartbeat
of its node.

**Proof sketch.** By simulation the run is one of watchdog timers with deadlines, in which a timer
is not picked up before the deadline of its key (`Watchdog.TimedStep.onTime`). -/
lemma removed_after_deadline
    (hrun : run step (start hostname unset currentNodeIp lastLogged now) actions = some s)
    (halong : Along step (fun s a => s.toThreads.NotOvertaken a.act)
      (start hostname unset currentNodeIp lastLogged now) actions)
    (hstep : s.step a = some s') (hmem : ip ∈ ipKeys s.detector.nodes)
    (hremoved : ip ∉ ipKeys s'.detector.nodes) :
    ip ≠ hostname ∧ s.deadline ip ≤ (a.time : WithTop ℚ) := by
  obtain ⟨timers, hinv, -, hontime⟩ := run_onTime halong hrun
  obtain ⟨hle, -, hthreads, -⟩ := step_eq_some hstep
  obtain ⟨hip, env, timerId, -, -, hpending, -⟩ :=
    Threads.removes_of_not_mem hinv.threads hthreads hmem hremoved
  have hpassed : s.deadline ip ≤ (s.now : WithTop ℚ) := hontime.pending timerId ip hpending
  exact ⟨hip, hpassed.trans (WithTop.coe_le_coe.mpr hle)⟩

/-! ### Steps that are possible -/

/-- A step that the threads and the clock allow. -/
lemma exists_step {time : ℚ} {act : ThreadAction} {threads : Threads} (hnow : s.now ≤ time)
    (hallows : s.allows ⟨time, act⟩ = true) (hthreads : s.toThreads.step act = some threads) :
    ∃ s', s.step ⟨time, act⟩ = some s' ∧ s'.toThreads = threads ∧ s'.now = time := by
  rw [step, if_pos ⟨hnow, hallows⟩, hthreads]
  exact ⟨_, rfl, rfl, rfl⟩

/-- As long as the receive loop has not been left, a beacon can be received at any time. -/
lemma exists_receive {s : TimedThreads} {timers : List (ℕ × Timer)} (hinv : Inv hostname s timers)
    (hrunning : s.detector.running = true) {env : DetectorEnv} (hnow : s.now ≤ env.currentTimeMs)
    (input : Received) : ∃ s', s.step ⟨env.currentTimeMs, .receive env input⟩ = some s' := by
  obtain ⟨threads, hthreads⟩ := Threads.exists_receive hinv.threads hrunning env input
  have hallows : s.allows ⟨env.currentTimeMs, .receive env input⟩ = true := by simp [allows]
  obtain ⟨s', hstep, -⟩ := exists_step hnow hallows hthreads
  exact ⟨s', hstep⟩

/-- What the first heartbeat of a node does if a timer can be started for it. -/
structure Joins (s : TimedThreads) (env : DetectorEnv) (peer : IpString) (s' : TimedThreads) :
    Prop where
  mem : peer ∈ ipKeys s'.detector.nodes
  beats : s'.beats peer = [env.currentTimeMs]
  now : s'.now = env.currentTimeMs
  deadline : s'.deadline peer = ((env.currentTimeMs + 100 : ℚ) : WithTop ℚ)
  running : s'.detector.running = true
  pending : s'.pending = s.pending
  starts : ∀ ip, .startTimer 0 ip ∈ s'.trace → .startTimer 0 ip ∈ s.trace
  closed : ∀ fd, env.timerfd ≠ some fd → s.detector.timers.fds fd = none →
    s'.detector.timers.fds fd = none

/-- **A node joins.** -/
lemma exists_join (hinv : Inv hostname s timers) (hrunning : s.detector.running = true)
    {peer : IpString} (hne : peer ≠ hostname) (hnew : peer ∉ ipKeys s.detector.nodes)
    {env : DetectorEnv} (hnow : s.now ≤ env.currentTimeMs) (hlock : env.lock .hashmapLock = true)
    (halloc : TimerManager.Allocates env.toTimerEnv s.detector.timers) (received : CStr) :
    s.AddsTimer (.receive env (.beacon peer received)) ∧
      ∃ s', s.step ⟨env.currentTimeMs, .receive env (.beacon peer received)⟩ = some s' ∧
        Joins s env peer s' := by
  have hhost : peer ≠ s.detector.hostname := hinv.threads.hostname_eq.symm ▸ hne
  have htimer : (s.detector.timerOf peer).getD 0 = 0 := by
    rw [Detector.timerOf_eq_none.mpr hnew, Option.getD_none]
  refine ⟨⟨env, peer, received, rfl, hhost, hlock, htimer, halloc⟩, ?_⟩
  obtain ⟨s', hstep⟩ := exists_receive hinv hrunning hnow (.beacon peer received)
  refine ⟨s', hstep, ?_⟩
  obtain ⟨-, -, hthreads, hnow', -⟩ := step_eq_some hstep
  have heard : s.heard (.receive env (.beacon peer received)) = some (env, peer) :=
    Threads.heard_eq_some.mpr ⟨received, rfl, hhost, hlock⟩
  obtain ⟨timerId, hfind⟩ := (Threads.find_step hinv.threads hthreads).1 env peer heard
  have hmem := HashTable.mem_keys_of_find _ hfind
  obtain ⟨d', events, timers', hreceive, hdo⟩ := receive_step env hinv.threads.wf
    hinv.threads.timersOwned (.beacon peer received)
  have heq : s'.toThreads = ⟨⟨d', s.trace ++ events⟩, s.pending⟩ := by
    have hplain := Threads.step_receive hrunning hreceive
    exact Option.some.inj (hthreads.symm.trans hplain)
  obtain ⟨t, intervalMs, hstop, htimers⟩ := receive_timers hhost hlock hreceive
  rw [htimer, stopTimer, if_pos rfl, Option.some.injEq] at hstop
  subst hstop
  have hdetector : s'.detector = d' := by rw [heq]
  have htrace : s'.trace = s.trace ++ events := by rw [heq]
  refine ⟨hmem, ?_, hnow', ?_, ?_, by rw [heq], fun ip hstart => ?_, fun fd hfd hclosed => ?_⟩
  · rw [(beats_step hstep hmem).1 (Threads.hears_iff.mpr ⟨env, heard⟩), hinv.absent peer hnew]
    rfl
  · have hhundred : ((100 : ℕ) : ℚ) = 100 := by norm_num
    rw [deadline_of_heard hstep heard, Threads.heartbeatTimeout_join _ hnew, deadlineAfter,
      if_neg (by decide), hhundred]
  · rw [hdetector]
    cases hdo with
    | own => exact absurd rfl hhost
    | refused _ _ _ hrefused => exact absurd (hlock.symm.trans hrefused) Bool.noConfusion
    | heartbeat _ _ d₁ events timerId _ _ _ h =>
      obtain ⟨silenced, horchestrate⟩ := orchestrate_eq d₁ received
      rw [horchestrate]
      exact h.frame.running.trans hrunning
  · rw [htrace, List.mem_append] at hstart
    refine hstart.resolve_right fun hevents => ?_
    cases hdo with
    | own => exact hhost rfl
    | refused _ _ _ hrefused => exact absurd (hlock.symm.trans hrefused) Bool.noConfusion
    | heartbeat _ _ d₁ events timerId _ _ _ h =>
      rw [← Threads.mem_timersStarted, Threads.timersStarted_heartbeat h] at hevents
      have hid : timerId ≠ 0 := by
        have hrestarted := h.restarted
        cases hrestarted with
        | failed refused => exact absurd halloc refused
        | started => exact Nat.succ_ne_zero _
      split at hevents
      · exact hid (List.mem_singleton.mp hevents).symm
      · cases hevents
  · rw [hdetector, htimers, fds_startTimer hfd]
    exact hclosed

/-! ### The timer of a node -/

/-- If `ip` has a deadline, its timer has been picked up, or it can expire and is due at the
deadline. -/
def Watched (ip : IpString) (s : TimedThreads) (timers : List (ℕ × Timer)) : Prop :=
  ∀ id, s.detector.timerOf ip = some id → s.deadline ip ≠ ⊤ → s.pending = some (id, ip) ∨
    ∃ timer, (id, timer) ∈ timers ∧ timer.userData = ip ∧ s.detector.timers.Armed timer ∧
      (s.watch timers).due id = s.deadline ip

/-- The callbacks are granted the lock. -/
def CallbacksGranted (a : TimedAction) : Prop :=
  ∀ env, a.act = .callback env → env.lock .hashmapLock = true

/-- A timer that has been picked up stays so until the callback, which removes the node. -/
lemma pending_step (hinv : Inv hostname s timers) (hstep : s.step a = some s')
    (hgranted : CallbacksGranted a) {id : ℕ} (hpending : s.pending = some (id, ip)) :
    s'.pending = some (id, ip) ∨ ip ∉ ipKeys s'.detector.nodes := by
  obtain ⟨-, -, hthreads, -⟩ := step_eq_some hstep
  obtain ⟨time, act⟩ := a
  cases act with
  | receive env input =>
    obtain ⟨history, -, heq⟩ := Option.map_eq_some_iff.mp hthreads
    rw [← heq]
    exact Or.inl hpending
  | pickUp fd =>
    rw [Threads.step, hpending] at hthreads
    cases hthreads
  | callback env =>
    by_cases hmem : ip ∈ ipKeys s.detector.nodes
    · obtain ⟨t, ht, hremoved⟩ := Threads.exists_step_of_removes hinv.threads
        ⟨env, id, rfl, hgranted env rfl, hpending, hmem⟩
      rw [hthreads, Option.some.injEq] at ht
      exact Or.inr (ht ▸ hremoved)
    · refine Or.inr fun hmem' => hmem ?_
      obtain ⟨node, hnode⟩ : ∃ node,
          HashTable.find NodeStruct.ipaddress s'.detector.nodes ip = some node := by
        refine Option.ne_none_iff_exists'.mp fun hnone => ?_
        exact (HashTable.find_eq_none NodeStruct.ipaddress).mp hnone hmem'
      have hold := (Threads.find_step hinv.threads hthreads).2 ip node
        (fun _ h => absurd h.symm (Option.some_ne_none _)) hnode
      exact HashTable.mem_keys_of_find _ hold

/-- A timer that is not picked up is due when it was, unless a heartbeat of its node stops it. -/
lemma Watched.timer_step (hinv : Inv hostname s timers) (hstep : s.step a = some s')
    {timers' : List (ℕ × Timer)} (hinv' : Inv hostname s' timers')
    (hears : ¬ s.Hears a.act ip) {id : ℕ} {timer : Timer} (hmem : (id, timer) ∈ timers)
    (huser : timer.userData = ip) (harmed : s.detector.timers.Armed timer) :
    s'.pending = some (id, ip) ∨ ((id, timer) ∈ timers' ∧ s'.detector.timers.Armed timer ∧
      (s'.watch timers').due id = (s.watch timers).due id) := by
  obtain ⟨-, -, hthreads, -⟩ := step_eq_some hstep
  obtain ⟨timers₁, hinv₁, hdo⟩ := Threads.step_timers hinv.threads hthreads
  obtain rfl := hinv₁.timersOwned.lists.chain.unique hinv'.threads.timersOwned.lists.chain
  have hlists := hinv.threads.timersOwned.lists
  have hlists' := hinv₁.timersOwned.lists
  have hkept : (id, timer) ∈ timers₁ →
      s'.detector.timers.fds timer.fd = s.detector.timers.fds timer.fd →
      s'.setAt timer.fd = s.setAt timer.fd → (id, timer) ∈ timers₁ ∧
        s'.detector.timers.Armed timer ∧ (s'.watch timers₁).due id = (s.watch timers).due id := by
    intro hmem' hfds hset
    have harmed' : s'.detector.timers.Armed timer := by
      rw [TimerManager.Armed, hfds]
      exact harmed
    exact ⟨hmem', harmed', due_eq hlists hlists' hmem hmem' harmed' hfds hset⟩
  generalize hact : a.act = act at hdo
  cases hdo with
  | kept _ hnot =>
    rw [← hact] at hnot
    obtain ⟨hstarted, hfds⟩ := Threads.fds_of_not_hears hinv.threads hthreads hnot
    rcases hfds _ hmem with hsame | ⟨hpending, -⟩
    · exact Or.inr (hkept hmem hsame (congrFun (setAt_of_not_started hstep hstarted) _))
    · rw [huser] at hpending
      exact Or.inl hpending
  | heartbeat env ip' received timerId _ hhears timerOf restarted =>
    have hne : ip ≠ ip' := by
      rintro rfl
      exact hears (hact ▸ hhears)
    have hhost' : ip' ≠ s.detector.hostname := by
      obtain ⟨env', received', heq, hhost', -⟩ := hhears
      cases heq
      exact hhost'
    have hrest := HeartbeatStep.mem_rest hinv.threads.timersOwned hhost' hmem huser hne
    cases restarted with
    | failed _ _ started frame =>
      exact Or.inr (hkept hrest (frame _ hrest) (congrFun (setAt_of_not_started hstep started) _))
    | started timer' lists userData fds started frame =>
      refine Or.inr (hkept (List.mem_cons_of_mem _ hrest) (frame _ hrest) ?_)
      exact (setAt_of_started hstep lists started).2 _ hrest

/-- **A step keeps a node watched** if its timer can be started. -/
lemma Watched.step (h : Watched ip s timers) (hinv : Inv hostname s timers)
    (hstep : s.step a = some s') (hip : ip ≠ hostname) (hgranted : CallbacksGranted a)
    (halloc : ∀ ip, .startTimer 0 ip ∉ s'.trace) :
    ∃ timers', Inv hostname s' timers' ∧ Watched ip s' timers' := by
  obtain ⟨timers', hinv'⟩ := hinv.step hstep
  refine ⟨timers', hinv', fun id hid hdeadline => ?_⟩
  obtain ⟨-, -, hthreads, -⟩ := step_eq_some hstep
  by_cases hears : s.Hears a.act ip
  · obtain ⟨timers₁, hinv₁, hdo⟩ := Threads.step_timers hinv.threads hthreads
    obtain rfl := hinv₁.timersOwned.lists.chain.unique hinv'.threads.timersOwned.lists.chain
    obtain ⟨env, heard⟩ := Threads.hears_iff.mp hears
    rw [deadline_of_heard hstep heard] at hdeadline ⊢
    have hinterval : heartbeatTimeout env s.detector ip ≠ 0 := by
      intro hzero
      rw [deadlineAfter, if_pos hzero] at hdeadline
      exact hdeadline rfl
    obtain ⟨received, hact, -⟩ := Threads.heard_eq_some.mp heard
    rw [hact] at hdo
    cases hdo with
    | kept _ hnot => exact absurd (hact ▸ hears) (hnot ip)
    | heartbeat _ _ _ timerId _ hhears timerOf restarted =>
      rw [timerOf, Option.some.injEq] at hid
      cases restarted with
      | failed =>
        have hlast := hinv₁.latest ip 0 hip timerOf
        exact absurd (Threads.mem_timersStarted.mp (List.mem_of_getLast? hlast)) (halloc ip)
      | started timer lists userData fds started frame =>
        refine Or.inr ⟨timer, hid ▸ List.mem_cons_self, userData,
          ⟨_, fds, timerSpec_armed.mpr hinterval⟩, ?_⟩
        rw [← hid, due_of_mem lists List.mem_cons_self fds, valueMs_timerSpec,
          (setAt_of_started hstep lists started).1, deadlineAfter, if_neg hinterval]
  · rw [deadline_of_not_heard hstep hears] at hdeadline ⊢
    have hmem : ip ∈ ipKeys s'.detector.nodes := by
      by_contra hnot
      rw [Detector.timerOf_eq_none.mpr hnot] at hid
      cases hid
    have hold : s.detector.timerOf ip = some id := by
      obtain ⟨node, hnode, hnodeId⟩ := Option.map_eq_some_iff.mp hid
      have hfind := (Threads.find_step hinv.threads hthreads).2 ip node
        (fun env heq => hears (Threads.hears_iff.mpr ⟨env, heq⟩)) hnode
      rw [Detector.timerOf, hfind, Option.map_some, hnodeId]
    rcases h id hold hdeadline with hpending | ⟨timer, htimer, huser, harmed, hdue⟩
    · exact Or.inl ((pending_step hinv hstep hgranted hpending).resolve_right fun hnot => hnot hmem)
    · rcases timer_step hinv hstep hinv' hears htimer huser harmed with hpending | hkept
      · exact Or.inl hpending
      · obtain ⟨htimer', harmed', hdue'⟩ := hkept
        exact Or.inr ⟨timer, htimer', huser, harmed', hdue'.trans hdue⟩

/-- What has been done by the end of a run includes what had been done before it. -/
lemma trace_step (hinv : Inv hostname s timers) (hstep : s.step a = some s') :
    ∃ events, s'.trace = s.trace ++ events := by
  obtain ⟨-, -, hthreads, -⟩ := step_eq_some hstep
  exact (Threads.step_sim hinv.threads hthreads).trace

/-- Every node stays watched in a run in which all timers can be started. -/
lemma run_watched (hip : ip ≠ hostname)
    (hgranted : Along step (fun _ a => CallbacksGranted a)
      (start hostname unset currentNodeIp lastLogged now) actions)
    (hrun : run step (start hostname unset currentNodeIp lastLogged now) actions = some s)
    (halloc : ∀ ip, .startTimer 0 ip ∉ s.trace) :
    ∃ timers, Inv hostname s timers ∧ Watched ip s timers := by
  have hfinal := run_invariant_along (fun s => ∃ timers, Inv hostname s timers ∧
    ((∀ ip, .startTimer 0 ip ∉ s.trace) → Watched ip s timers)) ?_
    ⟨[], start_inv hostname unset currentNodeIp lastLogged now, fun _ id hid => ?_⟩ hgranted hrun
  · obtain ⟨timers, hinv, hwatched⟩ := hfinal
    exact ⟨timers, hinv, hwatched halloc⟩
  · rintro s a s' ⟨timers, hinv, hwatched⟩ hok hstep
    obtain ⟨events, htrace⟩ := trace_step hinv hstep
    by_cases halloc' : ∀ ip, .startTimer 0 ip ∉ s'.trace
    · have hbefore : ∀ ip, .startTimer 0 ip ∉ s.trace :=
        fun ip hmem => halloc' ip (htrace ▸ List.mem_append_left _ hmem)
      obtain ⟨timers', hinv', hwatched'⟩ :=
        (hwatched hbefore).step hinv hstep hip hok halloc'
      exact ⟨timers', hinv', fun _ => hwatched'⟩
    · obtain ⟨timers', hinv'⟩ := hinv.step hstep
      exact ⟨timers', hinv', fun h => absurd h halloc'⟩
  · have hnone : (start hostname unset currentNodeIp lastLogged now).detector.timerOf ip = none :=
      Detector.timerOf_eq_none.mpr fun hmem => hip (List.mem_singleton.mp hmem)
    rw [hnone] at hid
    cases hid

/-! ### The timer thread alone -/

/-- What the steps of the timer thread leave alone: they remove nodes only, and start no timer. -/
structure TimerFrame (s s' : TimedThreads) : Prop where
  running : s'.detector.running = s.detector.running
  keys : ∀ ip ∈ ipKeys s'.detector.nodes, ip ∈ ipKeys s.detector.nodes
  closed : ∀ fd, s.detector.timers.fds fd = none → s'.detector.timers.fds fd = none
  starts : ∀ ip, timersStarted s'.trace ip = timersStarted s.trace ip
  deadline : s'.deadline = s.deadline

/-- The step is one of the timer thread. -/
def OfTimer (a : TimedAction) : Prop := ∀ env input, a.act ≠ .receive env input

/-- A step of the timer thread. -/
lemma timerFrame_step (hinv : Inv hostname s timers) (hstep : s.step a = some s')
    (ha : OfTimer a) : TimerFrame s s' := by
  obtain ⟨-, -, hthreads, -, -, -, hdeadline⟩ := step_eq_some hstep
  have hears : ∀ ip, ¬ s.Hears a.act ip := Threads.not_hears ha
  have hheard : s.heard a.act = none := by
    cases hheard : s.heard a.act with
    | none => rfl
    | some p => exact absurd (Threads.hears_iff.mpr ⟨p.1, hheard⟩) (hears p.2)
  have hkeys : ∀ ip ∈ ipKeys s'.detector.nodes, ip ∈ ipKeys s.detector.nodes := by
    intro ip hmem
    obtain ⟨node, hnode⟩ := Option.isSome_iff_exists.mp (isSome_find.mpr hmem)
    refine HashTable.mem_keys_of_find _
      ((Threads.find_step hinv.threads hthreads).2 ip node ?_ hnode)
    rw [hheard]
    exact fun env => (Option.some_ne_none _).symm
  rw [hheard] at hdeadline
  obtain ⟨time, act⟩ := a
  cases act with
  | receive env input => exact absurd rfl (ha env input)
  | pickUp fd =>
    rw [Threads.step] at hthreads
    split at hthreads
    · cases hthreads
    · obtain ⟨⟨t', found⟩, hread, heq⟩ := Option.map_eq_some_iff.mp hthreads
      have hdetector : s'.detector = { s.detector with timers := t' } := by rw [← heq]
      have htrace : s'.trace = s.trace := by rw [← heq]
      refine ⟨by rw [hdetector], hkeys, fun fd' hclosed => ?_, fun ip => by rw [htrace], hdeadline⟩
      have hne : fd' ≠ fd := by
        rintro rfl
        rw [timerThreadRead, hclosed] at hread
        cases hread
      rw [hdetector]
      exact (fds_timerThreadRead hread hne).trans hclosed
  | callback env =>
    have hstarts := Threads.timersStarted_callback hinv.threads hthreads
    obtain ⟨⟨timerId, ip⟩, hpending, heq⟩ := Option.map_eq_some_iff.mp hthreads
    have hip : ip ≠ s.detector.hostname :=
      hinv.threads.hostname_eq ▸ (hinv.threads.pending timerId ip hpending).1
    have hdo := handleTimeout_step env hinv.threads.wf hip timerId
    have hdetector : s'.detector = (handleTimeout env s.detector timerId ip).1 := by rw [← heq]
    refine ⟨by rw [hdetector]; exact hdo.frame.running, hkeys, fun fd hclosed => ?_, hstarts,
      hdeadline⟩
    rw [hdetector, handleTimeout_timers]
    exact hclosed

/-- A run of the timer thread. -/
lemma timerFrame_run {bs : List TimedAction} (hinv : Inv hostname s timers)
    (halong : Along step (fun _ a => OfTimer a) s bs) (hrun : run step s bs = some s') :
    TimerFrame s s' := by
  have hfinal := run_invariant_along
    (fun t => TimerFrame s t ∧ ∃ timers, Inv hostname t timers) ?_
    ⟨⟨rfl, fun _ h => h, fun _ h => h, fun _ => rfl, rfl⟩, timers, hinv⟩ halong hrun
  · exact hfinal.1
  · rintro t a t' ⟨hframe, timers, hinv⟩ ha hstep
    have hone := timerFrame_step hinv hstep ha
    exact ⟨⟨hone.running.trans hframe.running, fun ip h => hframe.keys ip (hone.keys ip h),
      fun fd h => hone.closed fd (hframe.closed fd h),
      fun ip => (hone.starts ip).trans (hframe.starts ip),
      hone.deadline.trans hframe.deadline⟩, hinv.step hstep⟩

/-- The timer thread keeps a node watched. -/
lemma Watched.run_timer {bs : List TimedAction} (h : Watched ip s timers)
    (hinv : Inv hostname s timers) (hip : ip ≠ hostname) (halloc : ∀ ip, .startTimer 0 ip ∉ s.trace)
    (halong : Along TimedThreads.step (fun _ a => OfTimer a ∧ CallbacksGranted a) s bs)
    (hrun : run TimedThreads.step s bs = some s') :
    ∃ timers', Inv hostname s' timers' ∧ Watched ip s' timers' := by
  have hfinal := run_invariant_along
    (fun t => (∀ ip, .startTimer 0 ip ∉ t.trace) ∧ ∃ timers, Inv hostname t timers ∧
      Watched ip t timers) ?_ ⟨halloc, timers, hinv, h⟩ halong hrun
  · exact hfinal.2
  · rintro t a t' ⟨halloc, timers, hinv, hwatched⟩ ⟨ha, hgranted⟩ hstep
    have halloc' : ∀ ip, .startTimer 0 ip ∉ t'.trace := by
      intro ip hstart
      rw [← Threads.mem_timersStarted, (timerFrame_step hinv hstep ha).starts] at hstart
      exact halloc ip (Threads.mem_timersStarted.mp hstart)
    exact ⟨halloc', hwatched.step hinv hstep hip hgranted halloc'⟩

/-! ### A periodic peer -/

variable {P : ℚ}

/-- The heartbeats of `ip` are processed every `P` ms: once one has been, the next one is processed
`P` ms later, and any other step in between happens before that time. -/
def Punctual (ip : IpString) (P : ℚ) (s : TimedThreads) (a : TimedAction) : Prop :=
  ∀ last, (s.beats ip).getLast? = some last →
    (s.Hears a.act ip ∧ a.time = last + P) ∨ (¬ s.Hears a.act ip ∧ a.time < last + P)

/-- The heartbeats of `ip` so far have come every `P` ms, and none of its timers has been picked up.
-/
structure Periodic (ip : IpString) (P : ℚ) (s : TimedThreads) (timers : List (ℕ × Timer)) :
    Prop where
  guarded : (s.watch timers).Guarded ip
  beats : ∃ a₀ n, s.beats ip = (List.range n).map fun i : ℕ => a₀ + i * P
  unheard : s.beats ip = [] → s.deadline ip = ⊤

/-- The last of a number of periodic heartbeats. -/
lemma getLast?_periodic (a₀ : ℚ) (n : ℕ) :
    ((List.range (n + 1)).map fun i : ℕ => a₀ + i * P).getLast? = some (a₀ + n * P) := by
  rw [List.range_succ, List.map_append, List.map_singleton, List.getLast?_concat]

/-- The deadline of a periodic peer is not before its next heartbeat. -/
lemma Periodic.lt_deadline (h : Periodic ip P s timers) (hinv : Inv hostname s timers)
    (hip : ip ≠ hostname) (hP : 0 < P) (hP' : P < 100) {t : ℚ}
    (ht : ∀ last, (s.beats ip).getLast? = some last → t < last + P) :
    (t : WithTop ℚ) < s.deadline ip := by
  obtain ⟨a₀, n, hbeats⟩ := h.beats
  cases n with
  | zero =>
    rw [h.unheard hbeats]
    exact WithTop.coe_lt_top t
  | succ n =>
    have hlast : (s.beats ip).getLast? = some (a₀ + n * P) := by
      rw [hbeats, getLast?_periodic]
    have hmem : ip ∈ ipKeys s.detector.nodes := by
      by_contra hnot
      rw [hinv.absent ip hnot] at hlast
      cases hlast
    obtain ⟨node, -, hestimated⟩ := hinv.estimated_of_mem hip hmem
    obtain ⟨mem, hmetadata⟩ := hestimated.metadata
    obtain ⟨outOfRange, hdeadline⟩ := hestimated.deadline_eq
    have htime : node.lastHeartbeatMs = a₀ + n * P :=
      Option.some.inj (hestimated.last.symm.trans hlast)
    have hfeed : node.timeoutMetadata = feed mem (fun i : ℕ => a₀ + i * P) (n + 1) := by
      have hget : ∀ i < n + 1, (s.beats ip).getD i 0 = a₀ + i * P := by
        intro i hi
        simp [hbeats, List.getD_eq_getElem?_getD, List.getElem?_range hi]
      have hlength : (s.beats ip).length = n + 1 := by simp [hbeats]
      rw [hmetadata, hlength]
      exact feed_congr mem (hget 0 (Nat.succ_pos n)) hget
    rw [hdeadline, htime, hfeed]
    refine lt_deadlineAfter ?_ (ht _ hlast)
    rcases Nat.eq_zero_or_pos n with rfl | hn
    · have hfloor : ⌊(2 * 50 : ℚ)⌋ = 100 := by norm_num
      rw [feed_one_nextTimeout, heartbeatInterval, unsignedOfDouble, if_pos (by norm_num), hfloor]
      exact Or.inr hP'.le
    · exact periodic_peer_interval mem outOfRange a₀ P hP n hn (nextTimeout_periodic_lt mem hP' hn)

/-- **A punctual step keeps a peer periodic.** -/
lemma Periodic.step (h : Periodic ip P s timers) (hinv : Inv hostname s timers)
    (hip : ip ≠ hostname)
    (hP : 0 < P) (hP' : P < 100) (hpunctual : Punctual ip P s a) (hstep : s.step a = some s') :
    ∃ timers', Inv hostname s' timers' ∧ Periodic ip P s' timers' := by
  obtain ⟨timers', hinv'⟩ := hinv.step hstep
  obtain ⟨timers₁, l, hthreads', hsim, hears⟩ := step_sim hinv.threads hstep
  obtain rfl := hthreads'.timersOwned.lists.chain.unique hinv'.threads.timersOwned.lists.chain
  obtain ⟨-, -, hthreads, -⟩ := step_eq_some hstep
  have hguarded : (s'.watch timers₁).Guarded ip := by
    refine hsim.guarded h.guarded fun hl => h.lt_deadline hinv hip hP hP' fun last hlast => ?_
    have hnot : ¬ s.Hears a.act ip := by
      intro heard
      rw [(hears ip).mpr heard] at hl
      cases hl
    exact ((hpunctual last hlast).resolve_left fun heard => hnot heard.1).2
  refine ⟨timers₁, hinv', hguarded, ?_, fun hnil => ?_⟩
  · obtain ⟨a₀, n, hbeats⟩ := h.beats
    by_cases hmem : ip ∈ ipKeys s'.detector.nodes
    · obtain ⟨hheard, hnot⟩ := beats_step hstep hmem
      by_cases heard : s.Hears a.act ip
      · rw [hheard heard, hbeats]
        cases n with
        | zero => exact ⟨a.time, 1, by simp⟩
        | succ n =>
          have hlast : (s.beats ip).getLast? = some (a₀ + n * P) := by
            rw [hbeats, getLast?_periodic]
          have htime := ((hpunctual _ hlast).resolve_right fun hnot => hnot.1 heard).2
          refine ⟨a₀, n + 2, ?_⟩
          rw [List.range_succ (n := n + 1), List.map_append, List.map_singleton, htime]
          push_cast
          rw [add_assoc, add_mul, one_mul]
      · exact ⟨a₀, n, (hnot heard).trans hbeats⟩
    · exact ⟨0, 0, hinv'.absent ip hmem⟩
  · by_cases hmem : ip ∈ ipKeys s'.detector.nodes
    · obtain ⟨hheard, hnot⟩ := beats_step hstep hmem
      by_cases heard : s.Hears a.act ip
      · rw [hheard heard] at hnil
        exact absurd hnil (by simp)
      · rw [deadline_of_not_heard hstep heard]
        exact h.unheard ((hnot heard).symm.trans hnil)
    · have hold : ip ∉ ipKeys s.detector.nodes := by
        intro hold
        obtain ⟨-, env, timerId, -, -, hpending, -⟩ :=
          Threads.removes_of_not_mem hinv.threads hthreads hold hmem
        exact h.guarded.pending timerId hpending
      have heard : ¬ s.Hears a.act ip := by
        intro heard
        obtain ⟨env, heq⟩ := Threads.hears_iff.mp heard
        obtain ⟨timerId, hfind⟩ := (Threads.find_step hinv.threads hthreads).1 env ip heq
        exact hmem (HashTable.mem_keys_of_find _ hfind)
      rw [deadline_of_not_heard hstep heard]
      exact h.unheard (hinv.absent ip hold)

/-- At first no node is known. -/
lemma start_periodic (hostname : IpString) (unset : NodeStruct) (currentNodeIp : IpBuffer)
    (lastLogged now : ℚ) (ip : IpString) (P : ℚ) :
    Periodic ip P (start hostname unset currentNodeIp lastLogged now) [] :=
  ⟨⟨fun _ hp => absurd hp List.not_mem_nil, fun _ hp => absurd hp List.not_mem_nil,
    fun _ h => absurd h.symm (Option.some_ne_none _)⟩, ⟨0, 0, rfl⟩, fun _ => rfl⟩

/-- A peer stays periodic in a punctual run. -/
lemma run_periodic (hip : ip ≠ hostname) (hP : 0 < P) (hP' : P < 100)
    (halong : Along step (Punctual ip P) (start hostname unset currentNodeIp lastLogged now)
      actions)
    (hrun : run step (start hostname unset currentNodeIp lastLogged now) actions = some s) :
    ∃ timers, Inv hostname s timers ∧ Periodic ip P s timers := by
  refine run_invariant_along (fun s => ∃ timers, Inv hostname s timers ∧ Periodic ip P s timers) ?_
    ⟨[], start_inv hostname unset currentNodeIp lastLogged now, start_periodic ..⟩ halong hrun
  rintro s a s' ⟨timers, hinv, hperiodic⟩ hpunctual hstep
  exact hperiodic.step hinv hip hP hP' hpunctual hstep

/-! ### A silent peer without a deadline -/

/-- A node without a deadline, none of whose timers has been picked up, stays until it is heard from
again. -/
lemma run_no_deadline {as : List TimedAction} (hinv : Inv hostname s timers) (hip : ip ≠ hostname)
    (hguarded : (s.watch timers).Guarded ip) (htop : s.deadline ip = ⊤)
    (hmem : ip ∈ ipKeys s.detector.nodes)
    (halong : Along step (fun s a => ¬ s.Hears a.act ip) s as) (hrun : run step s as = some s') :
    ip ∈ ipKeys s'.detector.nodes := by
  have hfinal := run_invariant_along (fun s => ∃ timers, Inv hostname s timers ∧
    (s.watch timers).Guarded ip ∧ s.deadline ip = ⊤ ∧ ip ∈ ipKeys s.detector.nodes) ?_
    ⟨timers, hinv, hguarded, htop, hmem⟩ halong hrun
  · obtain ⟨-, -, -, -, hmem'⟩ := hfinal
    exact hmem'
  · rintro s a s' ⟨timers, hinv, hguarded, htop, hmem⟩ hears hstep
    obtain ⟨timers', hinv'⟩ := hinv.step hstep
    obtain ⟨timers₁, l, hthreads', hsim, -⟩ := step_sim hinv.threads hstep
    obtain rfl := hthreads'.timersOwned.lists.chain.unique hinv'.threads.timersOwned.lists.chain
    have hwatched : (s.watch timers).watch.timer ip ≠ none :=
      Threads.watch_timer_ne_none.mpr ⟨hinv.threads.hostname_eq ▸ hip, hmem⟩
    refine ⟨timers₁, hinv', hsim.guarded hguarded fun _ => ?_,
      (deadline_of_not_heard hstep hears).trans htop, ?_⟩
    · show (a.time : WithTop ℚ) < s.deadline ip
      rw [htop]
      exact WithTop.coe_lt_top _
    · exact (Threads.watch_timer_ne_none.mp (hsim.not_removed hguarded hwatched)).2

end TimedThreads

end FailureDetector
