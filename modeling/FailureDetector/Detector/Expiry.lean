import FailureDetector.Detector.Threads

set_option relaxedAutoImplicit false
set_option autoImplicit false

/-!
# Which timer removes a node, and which timers remain

`handle_timeout` looks a node up by its address and ignores the timer that has expired. Between the
pick-up of a timer and its callback the node may be heard from, which stops the timer and starts
another; the callback removes the node all the same. And it removes the node only: nothing takes
its timer out of the list.

Both results are about whole runs of the two threads, and follow from the invariants of the
watchdog timers.

## Main definitions

* `FailureDetector.Threads.NotOvertaken` — the step does not process a heartbeat of the node whose
  timer has been picked up.
* `FailureDetector.Threads.TimersMatch` — timers and nodes match one to one.

## Main results

* `FailureDetector.peer_removed_by_current_timer` — which timer removes a node.
* `FailureDetector.peer_removed_by_stale_timer` — it need not be the node's own.
* `FailureDetector.timers_match_iff_no_removal` — when timers and nodes match.
* `FailureDetector.removal_leaves_timer` — they need not.
-/

namespace FailureDetector

open CString Runs Watchdog

namespace Threads

variable {hostname : IpString} {s s' : Threads} {timers : List (ℕ × Timer)} {a : ThreadAction}
  {actions : List ThreadAction} {unset : NodeStruct} {currentNodeIp : IpBuffer} {lastLogged : ℚ}

/-- The step does not process a heartbeat of the node whose timer has been picked up. -/
def NotOvertaken (s : Threads) (a : ThreadAction) : Prop :=
  ∀ ip timerId, s.Hears a ip → s.pending ≠ some (timerId, ip)

/-! ### The timer that removes a node -/

/-- At first no timer can expire. -/
lemma start_current : ((start hostname unset currentNodeIp lastLogged).watch []).Current :=
  ⟨fun _ hp => absurd hp List.not_mem_nil, fun _ _ h => absurd h.symm (Option.some_ne_none _)⟩

/-- In a run without overtaken expiries, the timers that can still remove a node are the ones
recorded for their nodes. -/
lemma run_current
    (halong : Along step NotOvertaken (start hostname unset currentNodeIp lastLogged) actions)
    (hrun : run step (start hostname unset currentNodeIp lastLogged) actions = some s) :
    ∃ timers, Inv hostname s timers ∧ (s.watch timers).Current := by
  refine run_invariant_along (fun s => ∃ timers, Inv hostname s timers ∧ (s.watch timers).Current)
    ?_ ⟨[], start_inv hostname unset currentNodeIp lastLogged, start_current⟩ halong hrun
  rintro s a s' ⟨timers, hinv, hcurrent⟩ hfree hstep
  obtain ⟨-, timers', l, hinv', hsim, hears, -⟩ := step_sim hinv hstep
  exact ⟨timers', hinv', hsim.current hcurrent fun ip id heq => hfree ip id ((hears ip).mp heq)⟩

/-- A step that takes a node from the table removes it. -/
lemma removes_of_not_mem (hinv : Inv hostname s timers) (hstep : s.step a = some s') {ip : IpString}
    (hmem : ip ∈ ipKeys s.detector.nodes) (hremoved : ip ∉ ipKeys s'.detector.nodes) :
    ip ≠ hostname ∧ s.Removes a ip := by
  obtain ⟨-, timers', l, hinv', -, -, hremoves⟩ := step_sim hinv hstep
  have hip : ip ≠ hostname := by
    rintro rfl
    exact hremoved (hinv'.hostname_eq ▸ hinv'.wf.hostname_mem)
  refine ⟨hip, hremoves ip (watch_timer_ne_none.mpr ⟨hinv.hostname_eq ▸ hip, hmem⟩) ?_⟩
  rw [watch_timer hinv' hip]
  exact Detector.timerOf_eq_none.mpr hremoved

/-- A node that is heard from while its timer is picked up is removed by the next callback, although
another timer is recorded for it. -/
lemma removed_of_overtaken (hinv : Inv hostname s timers) (hstep : s.step a = some s')
    {ip : IpString} {timerId : ℕ} (hpending : s.pending = some (timerId, ip)) (hears : s.Hears a ip)
    {env : DetectorEnv} (hlock : env.lock .hashmapLock = true) :
    s'.pending = some (timerId, ip) ∧ s'.detector.timerOf ip ≠ some timerId ∧
      ip ∈ ipKeys s'.detector.nodes ∧
      ∃ s'', s'.step (.callback env) = some s'' ∧ ip ∉ ipKeys s''.detector.nodes := by
  obtain ⟨-, timers', l, hinv', hsim, hlabel, -⟩ := step_sim hinv hstep
  cases (hlabel ip).mpr hears
  obtain ⟨hpending', hsome, hne⟩ := hsim.overtaken hpending
  have hmem : ip ∈ ipKeys s'.detector.nodes := (watch_timer_ne_none.mp hsome).2
  rw [watch_timer hinv' (hinv.pending timerId ip hpending).1] at hne
  exact ⟨hpending', hne, hmem,
    exists_step_of_removes hinv' ⟨env, timerId, rfl, hlock, hpending', hmem⟩⟩

end Threads

/-- **Which timer removes a node.** In every run of the two threads in which no heartbeat of a node
is processed between the pick-up of its timer and the callback, a node is removed only by the timer
recorded for it, which is the one started by its last heartbeat. The condition cannot be dropped:
if a heartbeat of the node comes between, the callback removes the node although another timer is
recorded for it.

**Proof sketch.** By simulation the run is one of watchdog timers, for which
`Watchdog.Watch.Current` is kept by every step that does not overtake an expiry. -/
theorem peer_removed_by_current_timer (hostname : IpString) (unset : NodeStruct)
    (currentNodeIp : IpBuffer) (lastLogged : ℚ) (actions : List ThreadAction) (s : Threads)
    (hrun : run Threads.step (Threads.start hostname unset currentNodeIp lastLogged) actions =
      some s) :
    (Along Threads.step Threads.NotOvertaken
        (Threads.start hostname unset currentNodeIp lastLogged) actions →
      ∀ a s' ip, s.step a = some s' → ip ∈ ipKeys s.detector.nodes →
        ip ∉ ipKeys s'.detector.nodes →
        ∃ env timerId, a = .callback env ∧ s.pending = some (timerId, ip) ∧
          s.detector.timerOf ip = some timerId ∧
          (timersStarted s.trace ip).getLast? = some timerId) ∧
    ∀ a s' ip timerId env, s.pending = some (timerId, ip) → s.Hears a ip → s.step a = some s' →
      env.lock .hashmapLock = true →
      s'.pending = some (timerId, ip) ∧ s'.detector.timerOf ip ≠ some timerId ∧
        ip ∈ ipKeys s'.detector.nodes ∧
        ∃ s'', s'.step (.callback env) = some s'' ∧ ip ∉ ipKeys s''.detector.nodes := by
  refine ⟨fun halong a s' ip hstep hmem hremoved => ?_,
    fun a s' ip timerId env hpending hears hstep hlock => ?_⟩
  · obtain ⟨timers, hinv, hcurrent⟩ := Threads.run_current halong hrun
    obtain ⟨hip, env, timerId, rfl, -, hpending, -⟩ :=
      Threads.removes_of_not_mem hinv hstep hmem hremoved
    have htimer := (hcurrent.pending timerId ip hpending).1
    rw [Threads.watch_timer hinv hip] at htimer
    exact ⟨env, timerId, rfl, hpending, htimer, hinv.latest ip timerId hip htimer⟩
  · obtain ⟨timers, hinv⟩ := Threads.run_inv hrun
    exact Threads.removed_of_overtaken hinv hstep hpending hears hlock

namespace Threads

variable {hostname : IpString} {s s' : Threads} {timers : List (ℕ × Timer)} {a : ThreadAction}
  {actions : List ThreadAction} {unset : NodeStruct} {currentNodeIp : IpBuffer} {lastLogged : ℚ}

/-- The first heartbeat of a node sets a timeout of twice the heartbeat interval. -/
lemma heartbeatTimeout_join (env : DetectorEnv) {d : Detector} {ip : IpString}
    (hnew : ip ∉ ipKeys d.nodes) : heartbeatTimeout env d ip = 100 := by
  have hnext := feed_one_nextTimeout env.unset fun _ => env.currentTimeMs
  have hfind := (HashTable.find_eq_none NodeStruct.ipaddress).mpr hnew
  have hmetadata : heartbeatMetadata env d ip = feed env.unset (fun _ => env.currentTimeMs) 1 := by
    rw [heartbeatMetadata, hfind]
    rfl
  have hfloor : ⌊(2 * 50 : ℚ)⌋ = 100 := by norm_num
  rw [heartbeatTimeout, hmetadata, hnext, heartbeatInterval, unsignedOfDouble,
    if_pos (by norm_num), hfloor]
  rfl

/-- A step of the receive loop. -/
lemma step_receive (hrunning : s.detector.running = true) {env : DetectorEnv} {input : Received}
    {d' : Detector} {events : List Event}
    (hreceive : receive env s.detector input = some (d', events)) :
    s.step (.receive env input) = some ⟨⟨d', s.trace ++ events⟩, s.pending⟩ := by
  rw [step, History.step, if_pos hrunning, hreceive]
  rfl

/-- As long as the receive loop has not been left, it goes on with whatever arrives. -/
lemma exists_receive (hinv : Inv hostname s timers) (hrunning : s.detector.running = true)
    (env : DetectorEnv) (input : Received) : ∃ s', s.step (.receive env input) = some s' := by
  obtain ⟨d', events, -, hreceive, -⟩ := receive_step env hinv.wf hinv.timersOwned input
  exact ⟨_, step_receive hrunning hreceive⟩

/-- A node joins, and its timer expires and is picked up. -/
lemma exists_pickedUp (unset : NodeStruct) (currentNodeIp : IpBuffer) (lastLogged : ℚ)
    {hostname peer : IpString} (hne : peer ≠ hostname) (received : CStr) :
    ∃ fd s, run step (start hostname unset currentNodeIp lastLogged)
        [.receive quietDetectorEnv (.beacon peer received), .pickUp fd] = some s ∧
      s.pending = some (1, peer) ∧ peer ∈ ipKeys s.detector.nodes ∧
      s.detector.running = true ∧ ∀ ip, .startTimer 0 ip ∉ s.trace := by
  set s₀ := start hostname unset currentNodeIp lastLogged with hs₀
  have hinv : Inv hostname s₀ [] := start_inv hostname unset currentNodeIp lastLogged
  have hnew : peer ∉ ipKeys s₀.detector.nodes := fun hmem => hne (List.mem_singleton.mp hmem)
  obtain ⟨d', events, timers', hreceive, hdo⟩ :=
    receive_step quietDetectorEnv hinv.wf hinv.timersOwned (.beacon peer received)
  have hfirst : s₀.step (.receive quietDetectorEnv (.beacon peer received)) =
      some ⟨⟨d', s₀.trace ++ events⟩, none⟩ := step_receive rfl hreceive
  cases hdo with
  | own => exact absurd rfl hne
  | refused _ _ _ hlock => cases hlock
  | heartbeat _ _ d₁ events timerId _ _ _ h =>
    have hstarts := timersStarted_heartbeat h received
    obtain ⟨silenced, heq⟩ := orchestrate_eq d₁ received
    have hkeys := (h.joined hnew).1
    have hrestarted := h.restarted
    cases hrestarted with
    | failed refused => exact absurd ⟨rfl, 3, rfl, rfl⟩ refused
    | started timer lists userData fds started frame =>
      have harmed : (timerSpec (heartbeatTimeout quietDetectorEnv s₀.detector peer)
          .timerSingleShot).armed = true := by
        rw [heartbeatTimeout_join _ hnew]
        decide
      obtain ⟨t', hread, -⟩ := lists.timerThreadRead_of_mem List.mem_cons_self fds harmed
      rw [heq] at hfirst
      generalize .lock .hashmapLock :: events ++ [.unlock .hashmapLock] ++
        (orchestrate d₁ received).2 = events' at hfirst hstarts
      refine ⟨timer.fd, ⟨⟨{ d₁ with silenced := silenced, timers := t' }, s₀.trace ++ events'⟩,
        some (1, peer)⟩, run_cons_eq_some.mpr ⟨_, hfirst, ?_⟩, rfl, ?_, ?_, fun ip hmem => ?_⟩
      · rw [run_singleton, step]
        dsimp only
        rw [hread, userData]
        rfl
      · exact hkeys.mem_iff.mpr List.mem_cons_self
      · exact h.frame.running
      · rw [← mem_timersStarted, timersStarted_append, hstarts] at hmem
        have hnone : timersStarted s₀.trace ip = [] := rfl
        rw [hnone, List.nil_append] at hmem
        split at hmem
        · cases List.mem_singleton.mp hmem
        · cases hmem

end Threads

/-- The timer of a node that has just joined may remove it. -/
theorem peer_removed_by_current_timer_one :
    ∃ fd s, run Threads.step
        (Threads.start ipOne (nodeWithIp ⟨[], by decide⟩) (CharArray.zero _) 0)
        [.receive quietDetectorEnv (.beacon ipTwo []), .pickUp fd] = some s ∧
      s.pending = some (1, ipTwo) ∧ s.detector.timerOf ipTwo = some 1 := by
  have hne : ipTwo ≠ ipOne := by decide
  obtain ⟨fd, s, hrun, hpending, hmem, -, -⟩ := Threads.exists_pickedUp
    (nodeWithIp ⟨[], by decide⟩) (CharArray.zero _) 0 hne []
  refine ⟨fd, s, hrun, hpending, ?_⟩
  have halong : Along Threads.step Threads.NotOvertaken
      (Threads.start ipOne (nodeWithIp ⟨[], by decide⟩) (CharArray.zero _) 0)
      [.receive quietDetectorEnv (.beacon ipTwo []), .pickUp fd] := by
    refine along_cons.mpr ⟨fun ip id _ hpending => ?_,
      fun t _ => along_cons.mpr ⟨fun ip id hears => ?_, fun u _ => along_nil⟩⟩
    · cases hpending
    · refine absurd hears (Threads.not_hears (fun env input h => ?_) ip)
      cases h
  obtain ⟨timers, hinv⟩ := Threads.run_inv hrun
  obtain ⟨s', hstep, hremoved⟩ := Threads.exists_step_of_removes hinv
    ⟨quietDetectorEnv, 1, rfl, rfl, hpending, hmem⟩
  obtain ⟨env, timerId, -, hpending', htimer, -⟩ :=
    (peer_removed_by_current_timer _ _ _ _ _ s hrun).1 halong _ s' _ hstep hmem hremoved
  rw [hpending] at hpending'
  cases hpending'
  exact htimer

/-- **A node may be removed by a stale timer.** The node `1` hears from `2`, the timer of `2` is
picked up, `2` is heard from once more, which replaces its timer, and the callback removes `2`. -/
theorem peer_removed_by_stale_timer :
    ¬ ∀ (hostname : IpString) (unset : NodeStruct) (currentNodeIp : IpBuffer) (lastLogged : ℚ)
      (actions : List ThreadAction) (s : Threads),
      run Threads.step (Threads.start hostname unset currentNodeIp lastLogged) actions = some s →
      ∀ a s' ip, s.step a = some s' → ip ∈ ipKeys s.detector.nodes →
        ip ∉ ipKeys s'.detector.nodes →
        ∃ env timerId, a = .callback env ∧ s.pending = some (timerId, ip) ∧
          s.detector.timerOf ip = some timerId := by
  intro h
  have hne : ipTwo ≠ ipOne := by decide
  obtain ⟨fd, s, hrun, hpending, -, hrunning, -⟩ := Threads.exists_pickedUp
    (nodeWithIp ⟨[], by decide⟩) (CharArray.zero _) 0 hne []
  obtain ⟨timers, hinv⟩ := Threads.run_inv hrun
  obtain ⟨s', hstep⟩ := Threads.exists_receive hinv hrunning quietDetectorEnv (.beacon ipTwo [])
  have hears : s.Hears (.receive quietDetectorEnv (.beacon ipTwo [])) ipTwo :=
    ⟨_, _, rfl, hinv.hostname_eq ▸ hne, rfl⟩
  obtain ⟨hpending', hstale, hmem, s'', hstep', hremoved⟩ :=
    Threads.removed_of_overtaken hinv hstep hpending hears
      (show quietDetectorEnv.lock .hashmapLock = true from rfl)
  obtain ⟨env, timerId, -, hpending'', htimer⟩ :=
    h _ _ _ _ _ s' (run_append_eq_some.mpr ⟨s, hrun, run_singleton.trans hstep⟩) _ s'' _ hstep'
      hmem hremoved
  rw [hpending'] at hpending''
  cases hpending''
  exact hstale htimer

/-! ### The timers that remain -/

namespace Threads

variable {hostname : IpString} {s s' : Threads} {timers : List (ℕ × Timer)} {a : ThreadAction}
  {actions : List ThreadAction} {unset : NodeStruct} {currentNodeIp : IpBuffer} {lastLogged : ℚ}

/-- Timers and nodes match one to one, where `timers` is the list that starts at `g_head`: every
node but the node itself has the timer whose id it stores, and there is no other timer, except one
that has expired and whose callback has not run. -/
structure TimersMatch (s : Threads) (timers : List (ℕ × Timer)) : Prop where
  lists : s.detector.timers.Lists timers
  owned : ∀ ip ∈ ipKeys s.detector.nodes, ip ≠ s.detector.hostname → ∃ timerId timer,
    s.detector.timerOf ip = some timerId ∧ (timerId, timer) ∈ timers ∧ timer.userData = ip
  no_other : ∀ p ∈ timers,
    (p.2.userData ≠ s.detector.hostname ∧ s.detector.timerOf p.2.userData = some p.1) ∨
      s.pending = some (p.1, p.2.userData)

/-- Timers and nodes match if the watchdog timers do. -/
lemma timersMatch_iff (hinv : Inv hostname s timers) :
    (∃ timers, s.TimersMatch timers) ↔ (s.watch timers).Matched := by
  have hlists := hinv.timersOwned.lists
  constructor
  · rintro ⟨timers', hmatch⟩
    obtain rfl := hmatch.lists.chain.unique hlists.chain
    refine ⟨?_, fun ip id hid => ?_, fun p hp => ?_⟩
    · rw [watch, List.map_map]
      exact hlists.id_nodup
    · obtain ⟨hip, hmem⟩ := watch_timer_ne_none.mp (hid ▸ Option.some_ne_none id)
      obtain ⟨id', timer, hid', htimer, rfl⟩ := hmatch.owned ip hmem hip
      rw [watch_timer hinv (hinv.hostname_eq ▸ hip), hid', Option.some.injEq] at hid
      subst hid
      exact List.mem_map_of_mem htimer
    · obtain ⟨q, hq, rfl⟩ := List.mem_map.mp hp
      rcases hmatch.no_other q hq with ⟨hip, hid⟩ | hpending
      · exact Or.inl ((watch_timer hinv (hinv.hostname_eq ▸ hip)).trans hid)
      · exact Or.inr hpending
  · intro hmatch
    refine ⟨timers, hlists, fun ip hmem hip => ?_, fun p hp => ?_⟩
    · obtain ⟨id, hid⟩ := Option.ne_none_iff_exists'.mp (watch_timer_ne_none.mpr ⟨hip, hmem⟩)
      obtain ⟨q, hq, heq⟩ := List.mem_map.mp (hmatch.owned ip id hid)
      rw [Prod.mk.injEq] at heq
      refine ⟨id, q.2, (watch_timer hinv (hinv.hostname_eq ▸ hip)).symm.trans hid, ?_, heq.2⟩
      exact heq.1 ▸ hq
    · rcases hmatch.no_other _ (List.mem_map_of_mem hp) with hid | hpending
      · have hip := hinv.peers p hp
        exact Or.inl ⟨hinv.hostname_eq ▸ hip, (watch_timer hinv hip).symm.trans hid⟩
      · exact Or.inr hpending

/-- A node's timer has the id `0` only if a timer could not be started. -/
lemma timer_ne_zero (hinv : Inv hostname s timers) (halloc : ∀ ip, .startTimer 0 ip ∉ s.trace)
    (ip : IpString) : (s.watch timers).timer ip ≠ some 0 := by
  intro hid
  have hip : ip ≠ hostname :=
    hinv.hostname_eq ▸ (watch_timer_ne_none.mp (hid ▸ Option.some_ne_none 0)).1
  rw [watch_timer hinv hip] at hid
  exact halloc ip (mem_timersStarted.mp (List.mem_of_getLast? (hinv.latest ip 0 hip hid)))

/-- What has been done by the end of a run includes what had been done before it. -/
lemma run_trace {as : List ThreadAction} (hinv : Inv hostname s timers)
    (hrun : run step s as = some s') : ∃ events, s'.trace = s.trace ++ events := by
  have hfinal := run_invariant
    (fun t => (∃ timers, Inv hostname t timers) ∧ ∃ events, t.trace = s.trace ++ events)
    ?_ ⟨⟨timers, hinv⟩, [], (List.append_nil _).symm⟩ (fun _ _ => trivial) hrun
  · exact hfinal.2
  · rintro t a t' ⟨⟨timers, hinv⟩, events, htrace⟩ - hstep
    obtain ⟨⟨events', htrace'⟩, timers', l, hinv', -⟩ := step_sim hinv hstep
    exact ⟨⟨timers', hinv'⟩, events ++ events', by rw [htrace', htrace, List.append_assoc]⟩

/-- As long as no node is removed and every timer can be started, timers and nodes match. -/
lemma run_strict
    (halong : Along step (fun t a => ∀ ip, ¬ t.Removes a ip)
      (start hostname unset currentNodeIp lastLogged) actions)
    (hrun : run step (start hostname unset currentNodeIp lastLogged) actions = some s)
    (halloc : ∀ ip, .startTimer 0 ip ∉ s.trace) :
    ∃ timers, Inv hostname s timers ∧ (s.watch timers).Strict := by
  have hfinal := run_invariant_along
    (fun s => ∃ timers, Inv hostname s timers ∧
      ((∀ ip, .startTimer 0 ip ∉ s.trace) → (s.watch timers).Strict))
    ?_ ⟨[], start_inv hostname unset currentNodeIp lastLogged, fun _ =>
      ⟨List.nodup_nil, fun ip id hid => ?_, fun p hp => absurd hp List.not_mem_nil⟩⟩ halong hrun
  · obtain ⟨timers, hinv, hstrict⟩ := hfinal
    exact ⟨timers, hinv, hstrict halloc⟩
  · rintro s a s' ⟨timers, hinv, hstrict⟩ hkeep hstep
    obtain ⟨⟨events, htrace⟩, timers', l, hinv', hsim, -, hremoves⟩ := step_sim hinv hstep
    refine ⟨timers', hinv', fun halloc => ?_⟩
    have halloc' : ∀ ip, .startTimer 0 ip ∉ s.trace :=
      fun ip hmem => halloc ip (htrace ▸ List.mem_append_left _ hmem)
    exact hsim.strict (hstrict halloc') (timer_ne_zero hinv' halloc)
      fun ip hsome hnone => hkeep ip (hremoves ip hsome hnone)
  · obtain ⟨hip, hmem⟩ := watch_timer_ne_none.mp (hid ▸ Option.some_ne_none id)
    exact absurd (List.mem_singleton.mp hmem) hip

end Threads

/-- **When timers and nodes match.** In a run of the two threads in which every timer can be
started, timers and nodes match one to one in every state if and only if no callback of the run
removes a node.

**Proof sketch.** By simulation the run is one of watchdog timers. A strict match is kept by every
step that removes no node (`Watchdog.Step.strict`), and a removal leaves the node's timer behind
(`Watchdog.Step.not_matched`). -/
theorem timers_match_iff_no_removal (hostname : IpString) (unset : NodeStruct)
    (currentNodeIp : IpBuffer) (lastLogged : ℚ) (actions : List ThreadAction) (s : Threads)
    (hrun : run Threads.step (Threads.start hostname unset currentNodeIp lastLogged) actions =
      some s)
    (halloc : ∀ ip, .startTimer 0 ip ∉ s.trace) :
    (∀ pre post t, actions = pre ++ post →
      run Threads.step (Threads.start hostname unset currentNodeIp lastLogged) pre = some t →
      ∃ timers, t.TimersMatch timers) ↔
    Along Threads.step (fun t a => ∀ ip, ¬ t.Removes a ip)
      (Threads.start hostname unset currentNodeIp lastLogged) actions := by
  constructor
  · intro hmatch pre a post t heq hpre ip hremoves
    obtain ⟨timers, hinv⟩ := Threads.run_inv hpre
    obtain ⟨t', hstep, hremoved⟩ := Threads.exists_step_of_removes hinv hremoves
    have hbefore := (Threads.timersMatch_iff hinv).mp (hmatch pre (a :: post) t heq hpre)
    obtain ⟨-, timers', l, hinv', hsim, -⟩ := Threads.step_sim hinv hstep
    obtain ⟨env, timerId, -, -, hpending, hmem⟩ := hremoves
    have hip := (hinv.pending timerId ip hpending).1
    refine hsim.not_matched hbefore
      (Threads.watch_timer_ne_none.mpr ⟨hinv.hostname_eq ▸ hip, hmem⟩) ?_
      ((Threads.timersMatch_iff hinv').mp (hmatch (pre ++ [a]) post t' ?_ ?_))
    · rw [Threads.watch_timer hinv' hip]
      exact Detector.timerOf_eq_none.mpr hremoved
    · rw [heq, List.append_assoc, List.singleton_append]
    · exact run_append_eq_some.mpr ⟨t, hpre, run_singleton.trans hstep⟩
  · rintro halong pre post t rfl hpre
    obtain ⟨t₂, hpre₂, hpost⟩ := run_append_eq_some.mp hrun
    rw [hpre, Option.some.injEq] at hpre₂
    subst hpre₂
    obtain ⟨timers₀, hinv₀⟩ := Threads.run_inv hpre
    obtain ⟨events, htrace⟩ := Threads.run_trace hinv₀ hpost
    obtain ⟨timers, hinv, hstrict⟩ := Threads.run_strict halong.of_append hpre
      fun ip hmem => halloc ip (htrace ▸ List.mem_append_left _ hmem)
    exact (Threads.timersMatch_iff hinv).mpr hstrict.matched

/-- As long as only one node has joined, its timer is the only one. -/
theorem timers_match_iff_no_removal_one :
    ∃ fd s timers, run Threads.step
        (Threads.start ipOne (nodeWithIp ⟨[], by decide⟩) (CharArray.zero _) 0)
        [.receive quietDetectorEnv (.beacon ipTwo []), .pickUp fd] = some s ∧
      s.TimersMatch timers := by
  have hne : ipTwo ≠ ipOne := by decide
  obtain ⟨fd, s, hrun, -, -, -, halloc⟩ := Threads.exists_pickedUp
    (nodeWithIp ⟨[], by decide⟩) (CharArray.zero _) 0 hne []
  have halong : Along Threads.step (fun t a => ∀ ip, ¬ t.Removes a ip)
      (Threads.start ipOne (nodeWithIp ⟨[], by decide⟩) (CharArray.zero _) 0)
      [.receive quietDetectorEnv (.beacon ipTwo []), .pickUp fd] := by
    refine along_cons.mpr ⟨Threads.not_removes fun env h => ?_,
      fun t _ => along_cons.mpr ⟨Threads.not_removes fun env h => ?_, fun u _ => along_nil⟩⟩
    · cases h
    · cases h
  obtain ⟨timers, hmatch⟩ := (timers_match_iff_no_removal _ _ _ _ _ s hrun halloc).mpr halong _ [] s
    (List.append_nil _).symm hrun
  exact ⟨fd, s, timers, hrun, hmatch⟩

/-- **A removal leaves the timer behind.** The node `1` hears from `2`, the timer of `2` expires,
and the callback removes `2`: its timer is still in the list. -/
theorem removal_leaves_timer :
    ¬ ∀ (hostname : IpString) (unset : NodeStruct) (currentNodeIp : IpBuffer) (lastLogged : ℚ)
      (actions : List ThreadAction) (s : Threads),
      run Threads.step (Threads.start hostname unset currentNodeIp lastLogged) actions = some s →
      (∀ ip, .startTimer 0 ip ∉ s.trace) → ∃ timers, s.TimersMatch timers := by
  intro h
  have hne : ipTwo ≠ ipOne := by decide
  obtain ⟨fd, s, hrun, hpending, hmem, -, halloc⟩ := Threads.exists_pickedUp
    (nodeWithIp ⟨[], by decide⟩) (CharArray.zero _) 0 hne []
  obtain ⟨timers, hinv⟩ := Threads.run_inv hrun
  have hremoves : s.Removes (.callback quietDetectorEnv) ipTwo :=
    ⟨quietDetectorEnv, 1, rfl, rfl, hpending, hmem⟩
  obtain ⟨s', hstep, hremoved⟩ := Threads.exists_step_of_removes hinv hremoves
  obtain ⟨-, timers', l, hinv', hsim, -⟩ := Threads.step_sim hinv hstep
  have hbefore := (Threads.timersMatch_iff hinv).mp (h _ _ _ _ _ s hrun halloc)
  refine hsim.not_matched hbefore
    (Threads.watch_timer_ne_none.mpr ⟨hinv.hostname_eq ▸ hne, hmem⟩) ?_
    ((Threads.timersMatch_iff hinv').mp (h _ _ _ _ _ s'
      (run_append_eq_some.mpr ⟨s, hrun, run_singleton.trans hstep⟩) ?_))
  · rw [Threads.watch_timer hinv' hne]
    exact Detector.timerOf_eq_none.mpr hremoved
  · intro ip hmem'
    rw [← Threads.mem_timersStarted, Threads.timersStarted_callback hinv hstep] at hmem'
    exact halloc ip (Threads.mem_timersStarted.mp hmem')

end FailureDetector
