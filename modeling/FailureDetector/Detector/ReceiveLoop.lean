import FailureDetector.Detector.Membership

set_option relaxedAutoImplicit false
set_option autoImplicit false

/-!
# The receive loop

A beacon from another address whose payload is the node's own address is a command of the
orchestrator. The loop counts it as a heartbeat of its sender before it looks at the payload, and
goes on from there to silence or restart the node. The loop is left when a lock is refused.

## Main definitions

* `FailureDetector.isControl` — commands of the orchestrator.
* `FailureDetector.publishing`, `FailureDetector.submittedLists` — what actions make of the speaker
  and of Paxos.
* `FailureDetector.receiveLoop` — runs of the receive loop.
* `FailureDetector.Ready`, `FailureDetector.LoopInv` — the invariants of the receive loop.

## Main results

* `FailureDetector.ReceiveStep.mem_keys`, `FailureDetector.ReceiveStep.lists`,
  `FailureDetector.ReceiveStep.silenced`, `FailureDetector.ReceiveStep.speaker` — what an iteration
  does to the keys, to Paxos and to the speaker.
* `FailureDetector.LoopInv.step`, `FailureDetector.run_loopInv` — the invariant.
* `FailureDetector.exists_run` — which inputs the loop processes.
-/

namespace FailureDetector

open CString Wire Runs

/-- The beacon is a command of the orchestrator to the node `hostname`. -/
def isControl (hostname : IpString) : Received → Bool
  | .failure => false
  | .beacon ipaddress received => decide (ipaddress ≠ hostname ∧ received = hostname.1)

/-- The beacon comes from another address than `hostname`. -/
def isForeign (hostname : IpString) : Received → Bool
  | .failure => false
  | .beacon ipaddress _ => decide (ipaddress ≠ hostname)

/-- What an action makes of the speaker. -/
def Event.speaker (publishing : Bool) : Event → Bool
  | .publish => true
  | .silence => false
  | _ => publishing

/-- Whether the speaker publishes beacons. -/
def publishing (trace : List Event) : Bool := trace.foldl Event.speaker false

/-- The lists submitted to Paxos. -/
def submittedLists (trace : List Event) : List (Option (List CStr)) :=
  (submissions trace).map fun value => (decode value).map Message.members

/-- Iterations of the receive loop. -/
def receiveLoop (inputs : List (DetectorEnv × Received)) : List Action :=
  inputs.map fun p => .receive p.1 p.2

/-- The number of commands. -/
def controls (hostname : IpString) (inputs : List (DetectorEnv × Received)) : ℕ :=
  inputs.countP fun p => isControl hostname p.2

/-- The number of commands for which the lock is granted. -/
def controlsGranted (hostname : IpString) (inputs : List (DetectorEnv × Received)) : ℕ :=
  inputs.countP fun p => isControl hostname p.2 && p.1.lock .hashmapLock

/-- The number of beacons from other addresses for which the lock is refused. -/
def beaconsRefused (hostname : IpString) (inputs : List (DetectorEnv × Received)) : ℕ :=
  inputs.countP fun p => isForeign hostname p.2 && !p.1.lock .hashmapLock

/-- The input is a beacon from `ip`, and the lock is granted. -/
def HeardFrom (p : DetectorEnv × Received) (ip : IpString) : Prop :=
  ∃ received, p.2 = .beacon ip received ∧ p.1.lock .hashmapLock = true

/-- The input is the first beacon from an address, and its submission succeeds. -/
def Joins (env : DetectorEnv) (d : Detector) (input : Received) : Prop :=
  ∃ ip, HeardFrom (env, input) ip ∧ ip ∉ ipKeys d.nodes ∧
    env.lock .detectedStatesHashmapLock = true

/-! ### Iterations -/

/-- The node's own beacon does not come from another address. -/
lemma isForeign_own (hostname : IpString) (received : CStr) :
    isForeign hostname (.beacon hostname received) = false := decide_eq_false fun hne => hne rfl

/-- The node's own beacon is no command. -/
lemma isControl_own (hostname : IpString) (received : CStr) :
    isControl hostname (.beacon hostname received) = false := decide_eq_false fun hne => hne.1 rfl

/-- A command is a beacon from another address. -/
lemma isControl_eq_true {hostname : IpString} {input : Received}
    (h : isControl hostname input = true) :
    ∃ ip received, input = .beacon ip received ∧ ip ≠ hostname := by
  cases input with
  | failure => cases h
  | beacon ip received => exact ⟨ip, received, rfl, (of_decide_eq_true h).1⟩

/-- The speaker after some more actions. -/
lemma publishing_append (trace events : List Event) :
    publishing (trace ++ events) = events.foldl Event.speaker (publishing trace) :=
  List.foldl_append

/-- Submitting a table does nothing to the speaker. -/
lemma speaker_of_ofSubmit {events : List Event} (h : ∀ e ∈ events, e.OfSubmit) (b : Bool) :
    events.foldl Event.speaker b = b := by
  induction events with
  | nil => rfl
  | cons e events ih =>
    have he : e.speaker b = b := by
      cases e with
      | publish => exact (h _ List.mem_cons_self).elim
      | silence => exact (h _ List.mem_cons_self).elim
      | _ => rfl
    rw [List.foldl_cons, he]
    exact ih fun e' he' => h e' (List.mem_cons_of_mem _ he')

/-- An iteration of the receive loop makes of the speaker what the orchestrator's switch does. -/
lemma speaker_of_heartbeat {env : DetectorEnv} {d d₁ : Detector}
    {timers timers' : List (ℕ × Timer)} {ip : IpString} {events : List Event} {timerId : ℕ}
    (h : HeartbeatStep env d d₁ timers ip events timerId timers') (trace : List Event)
    (received : CStr) :
    publishing (trace ++ (.lock .hashmapLock :: events ++ [.unlock .hashmapLock] ++
      (orchestrate d₁ received).2)) =
      (orchestrate d₁ received).2.foldl Event.speaker (publishing trace) := by
  obtain ⟨rest, rfl, hrest⟩ := h.acts
  have hbefore : (.lock .hashmapLock :: .startTimer timerId ip :: rest ++
      [.unlock .hashmapLock] : List Event).foldl Event.speaker (publishing trace) =
      publishing trace := by
    rw [List.foldl_append]
    exact speaker_of_ofSubmit hrest _
  rw [publishing, List.foldl_append, List.foldl_append, ← publishing, hbefore]

/-- The orchestrator's switch: the flag after it. -/
lemma orchestrate_silenced (d : Detector) (received : CStr) :
    (orchestrate d received).1.silenced = (d.silenced || decide (received = d.hostname.1)) := by
  unfold orchestrate
  by_cases heq : d.hostname.1 = received
  · cases hsilenced : d.silenced with
    | false => simp [heq]
    | true => simp [heq, hsilenced]
  · simp [heq, Ne.symm heq]

/-- The orchestrator's switch: the speaker after it. -/
lemma orchestrate_speaker (d : Detector) (received : CStr) (b : Bool) :
    (orchestrate d received).2.foldl Event.speaker b =
      if received = d.hostname.1 then d.silenced else b := by
  unfold orchestrate
  by_cases heq : d.hostname.1 = received
  · cases hsilenced : d.silenced with
    | false => simp [heq, Event.speaker]
    | true => simp [heq, Event.speaker]
  · simp [heq, Ne.symm heq]

namespace ReceiveStep

variable {env : DetectorEnv} {d d' : Detector} {timers timers' : List (ℕ × Timer)}
  {input : Received} {events : List Event}

/-- The keys after an iteration: those before it, and the sender of the beacon. -/
lemma mem_keys (h : ReceiveStep env d timers input d' events timers') {ip : IpString}
    (hip : ip ≠ d.hostname) :
    ip ∈ ipKeys d'.nodes ↔ ip ∈ ipKeys d.nodes ∨ HeardFrom (env, input) ip := by
  cases h with
  | failure =>
    refine ⟨Or.inl, fun hor => hor.elim id ?_⟩
    rintro ⟨received, hinput, -⟩
    cases hinput
  | own received =>
    refine ⟨Or.inl, fun hor => hor.elim id ?_⟩
    rintro ⟨received', hinput, -⟩
    cases hinput
    exact absurd rfl hip
  | refused ip' received hip' hlock =>
    refine ⟨Or.inl, fun hor => hor.elim id ?_⟩
    rintro ⟨received', -, hgranted⟩
    exact absurd (hlock.symm.trans hgranted) Bool.false_ne_true
  | heartbeat ip' received d₁ _ _ _ hip' hlock step =>
    have hheard : HeardFrom (env, .beacon ip' received) ip ↔ ip = ip' := by
      constructor
      · rintro ⟨received', hinput, -⟩
        cases hinput
        rfl
      · rintro rfl
        exact ⟨received, rfl, hlock⟩
    obtain ⟨silenced, heq⟩ := orchestrate_eq d₁ received
    rw [heq, hheard]
    exact step.mem_keys ip

/-- The loop is left when a lock is refused. -/
lemma running (h : ReceiveStep env d timers input d' events timers') :
    d'.running = (d.running && !(isForeign d.hostname input && !env.lock .hashmapLock)) := by
  cases h with
  | failure => exact (Bool.and_true _).symm
  | own received => rw [isForeign_own, Bool.false_and, Bool.not_false, Bool.and_true]
  | refused ip received hip hlock =>
    have hforeign : isForeign d.hostname (.beacon ip received) = true := decide_eq_true hip
    rw [hforeign, hlock, Bool.not_false, Bool.and_true, Bool.not_true, Bool.and_false]
  | heartbeat ip received d₁ _ _ _ hip hlock step =>
    obtain ⟨silenced, heq⟩ := orchestrate_eq d₁ received
    rw [heq, hlock, Bool.not_true, Bool.and_false, Bool.not_false, Bool.and_true]
    exact step.frame.running

/-- A command sets the flag. -/
lemma silenced (h : ReceiveStep env d timers input d' events timers') :
    d'.silenced = (d.silenced || (isControl d.hostname input && env.lock .hashmapLock)) := by
  cases h with
  | failure => exact (Bool.or_false _).symm
  | own received => rw [isControl_own, Bool.false_and, Bool.or_false]
  | refused ip received hip hlock => rw [hlock, Bool.and_false, Bool.or_false]
  | heartbeat ip received d₁ _ _ _ hip hlock step =>
    rw [orchestrate_silenced, step.frame.silenced, step.frame.hostname, hlock, Bool.and_true,
      isControl]
    simp only [hip, ne_eq, not_false_eq_true, true_and]

/-- A command silences the speaker if the flag is not set, and restarts it otherwise. -/
lemma speaker (h : ReceiveStep env d timers input d' events timers') (trace : List Event) :
    publishing (trace ++ events) =
      if (isControl d.hostname input && env.lock .hashmapLock) = true then d.silenced
      else publishing trace := by
  cases h with
  | failure => exact publishing_append _ _
  | own received =>
    rw [isControl_own, Bool.false_and, List.append_nil, if_neg Bool.false_ne_true]
  | refused ip received hip hlock =>
    rw [hlock, Bool.and_false, if_neg Bool.false_ne_true]
    exact publishing_append _ _
  | heartbeat ip received d₁ _ _ _ hip hlock step =>
    rw [speaker_of_heartbeat step, orchestrate_speaker, step.frame.silenced, step.frame.hostname,
      hlock, Bool.and_true, isControl]
    simp only [hip, ne_eq, not_false_eq_true, true_and, decide_eq_true_eq]

/-- An iteration submits the table when a node joins, and nothing otherwise. -/
lemma lists (h : ReceiveStep env d timers input d' events timers') (hwf : d.Wf) :
    Joins env d input ∧ submittedLists events = [some (membership d'.nodes)] ∨
      ¬ Joins env d input ∧ submittedLists events = [] := by
  cases h with
  | failure =>
    refine Or.inr ⟨?_, rfl⟩
    rintro ⟨ip, ⟨received, hinput, -⟩, -⟩
    cases hinput
  | own received =>
    refine Or.inr ⟨?_, rfl⟩
    rintro ⟨ip, ⟨received', hinput, -⟩, hnew, -⟩
    cases hinput
    exact hnew hwf.hostname_mem
  | refused ip received hip hlock =>
    refine Or.inr ⟨?_, rfl⟩
    rintro ⟨ip, ⟨received', -, hgranted⟩, -⟩
    exact absurd (hlock.symm.trans hgranted) Bool.false_ne_true
  | heartbeat ip received d₁ events' _ _ hip hlock step =>
    have hquiet := submissions_eq_nil (orchestrate_quiet d₁ received)
    have hlists : submittedLists (.lock .hashmapLock :: events' ++ [.unlock .hashmapLock] ++
        (orchestrate d₁ received).2) = submittedLists events' := by
      rw [submittedLists, submissions_append, hquiet, List.append_nil, submissions_append]
      exact congrArg _ (List.append_nil _)
    obtain ⟨silenced, heq⟩ := orchestrate_eq d₁ received
    rw [hlists, heq]
    by_cases hmem : ip ∈ ipKeys d.nodes
    · rw [(step.refreshed hmem).2]
      refine Or.inr ⟨?_, rfl⟩
      rintro ⟨ip', ⟨received', hinput, -⟩, hnew, -⟩
      cases hinput
      exact hnew hmem
    · obtain ⟨-, hgranted, hrefused⟩ := step.joined hmem
      cases hdetected : env.lock .detectedStatesHashmapLock with
      | true =>
        obtain ⟨value, uuid, ⟨bytes, hdecode⟩, rfl⟩ := hgranted hdetected
        refine Or.inl ⟨⟨ip, ⟨received, rfl, hlock⟩, hmem, hdetected⟩, ?_⟩
        show [(decode value).map Message.members] = _
        rw [hdecode, Option.map_some]
      | false =>
        refine Or.inr ⟨?_, ?_⟩
        · rintro ⟨-, -, -, htrue⟩
          exact absurd (hdetected.symm.trans htrue) Bool.false_ne_true
        · rw [submittedLists, hrefused hdetected, List.map_nil]

end ReceiveStep

/-! ### Runs -/

/-- The state of the node `hostname` is sound, whether or not its receive loop has been left. -/
structure Ready (hostname : IpString) (s : History) : Prop where
  hostname_eq : s.detector.hostname = hostname
  wf : s.detector.Wf
  timers : ∃ timers, s.detector.TimersOwned timers

namespace Ready

variable {hostname : IpString} {s s' : History} {env : DetectorEnv} {input : Received}

/-- The state in which the receive loop starts is sound. -/
lemma start (hostname : IpString) (unset : NodeStruct) (currentNodeIp : IpBuffer)
    (lastLogged : ℚ) : Ready hostname (History.start hostname unset currentNodeIp lastLogged) :=
  have hinv := History.start_inv hostname unset currentNodeIp lastLogged
  ⟨rfl, hinv.wf, hinv.timers⟩

/-- The loop processes any input unless it has been left. -/
lemma exists_step (h : Ready hostname s) (hrunning : s.detector.running = true)
    (env : DetectorEnv) (input : Received) :
    ∃ s', History.step s (.receive env input) = some s' := by
  obtain ⟨timers, htimers⟩ := h.timers
  obtain ⟨d', events, timers', heq, -⟩ := receive_step env h.wf htimers input
  refine ⟨⟨d', s.trace ++ events⟩, ?_⟩
  rw [History.step, if_pos hrunning, heq, Option.map_some]

/-- An iteration keeps the state sound, and is a `FailureDetector.ReceiveStep`. -/
lemma receive (h : Ready hostname s) (hstep : History.step s (.receive env input) = some s') :
    s.detector.running = true ∧ Ready hostname s' ∧ ∃ events timers timers',
      s'.trace = s.trace ++ events ∧
      ReceiveStep env s.detector timers input s'.detector events timers' := by
  obtain ⟨timers, htimers⟩ := h.timers
  have hrunning : s.detector.running = true := by
    by_contra hnot
    rw [History.step, if_neg hnot] at hstep
    cases hstep
  obtain ⟨d', events, timers', heq, hdo⟩ := receive_step env h.wf htimers input
  rw [History.step, if_pos hrunning, heq, Option.map_some] at hstep
  cases hstep
  exact ⟨hrunning, ⟨hdo.hostname.trans h.hostname_eq, hdo.wf h.wf, timers',
    hdo.timersOwned htimers⟩, events, timers, timers', rfl, hdo⟩

end Ready

/-- The invariant of the receive loop of the node `hostname` after some inputs. -/
structure LoopInv (hostname : IpString) (inputs : List (DetectorEnv × Received)) (s : History) :
    Prop extends Ready hostname s where
  keys : ∀ ip, ip ∈ ipKeys s.detector.nodes ↔ ip = hostname ∨ ∃ p ∈ inputs, HeardFrom p ip
  running : s.detector.running = true ↔ beaconsRefused hostname inputs = 0
  refused_le : beaconsRefused hostname inputs ≤ 1
  silenced : s.detector.silenced = true ↔ controlsGranted hostname inputs ≠ 0
  publishing : publishing s.trace = true ↔ controlsGranted hostname inputs ≠ 1

/-- The commands among one more input. -/
lemma controlsGranted_concat (hostname : IpString) (inputs : List (DetectorEnv × Received))
    (p : DetectorEnv × Received) :
    controlsGranted hostname (inputs ++ [p]) = controlsGranted hostname inputs +
      if (isControl hostname p.2 && p.1.lock .hashmapLock) = true then 1 else 0 := by
  rw [controlsGranted, List.countP_append, List.countP_singleton, ← controlsGranted]

/-- The refused beacons among one more input. -/
lemma beaconsRefused_concat (hostname : IpString) (inputs : List (DetectorEnv × Received))
    (p : DetectorEnv × Received) :
    beaconsRefused hostname (inputs ++ [p]) = beaconsRefused hostname inputs +
      if (isForeign hostname p.2 && !p.1.lock .hashmapLock) = true then 1 else 0 := by
  rw [beaconsRefused, List.countP_append, List.countP_singleton, ← beaconsRefused]

/-- **The step lemma.** -/
lemma LoopInv.step {hostname : IpString} {inputs : List (DetectorEnv × Received)} {s s' : History}
    (hinv : LoopInv hostname inputs s) {p : DetectorEnv × Received}
    (hstep : History.step s (.receive p.1 p.2) = some s') :
    LoopInv hostname (inputs ++ [p]) s' := by
  obtain ⟨hrunning, hready, events, timers, timers', htrace, hdo⟩ := hinv.toReady.receive hstep
  have hhost := hinv.hostname_eq
  have hrefused := hinv.running.mp hrunning
  have hloop := hdo.running
  have hflag := hdo.silenced
  have hspeaker := hdo.speaker s.trace
  rw [hhost] at hloop hflag hspeaker
  refine ⟨hready, fun ip => ?_, ?_, ?_, ?_, ?_⟩
  · by_cases hip : ip = hostname
    · refine iff_of_true ?_ (Or.inl hip)
      rw [hip, ← hready.hostname_eq]
      exact hready.wf.hostname_mem
    · rw [hdo.mem_keys (hhost ▸ hip), hinv.keys ip, or_assoc]
      simp only [List.mem_append, List.mem_singleton, or_and_right, exists_or, exists_eq_left]
  · rw [hloop, hrunning, Bool.true_and, beaconsRefused_concat, hrefused]
    cases isForeign hostname p.2 && !p.1.lock .hashmapLock with
    | false => exact iff_of_true rfl rfl
    | true => exact iff_of_false Bool.false_ne_true Nat.one_ne_zero
  · rw [beaconsRefused_concat, hrefused]
    split
    · exact le_rfl
    · exact Nat.zero_le 1
  · rw [hflag, controlsGranted_concat, Bool.or_eq_true, hinv.silenced]
    split
    · next hgranted => exact iff_of_true (Or.inr hgranted) (Nat.succ_ne_zero _)
    · next hgranted => rw [or_iff_left hgranted, Nat.add_zero]
  · rw [htrace, hspeaker, controlsGranted_concat]
    split
    · rw [hinv.silenced, Ne, Ne, Nat.succ_inj]
    · rw [Nat.add_zero, hinv.publishing]

/-- The invariant holds when the receive loop starts. -/
lemma start_loopInv (hostname : IpString) (unset : NodeStruct) (currentNodeIp : IpBuffer)
    (lastLogged : ℚ) :
    LoopInv hostname [] (History.start hostname unset currentNodeIp lastLogged) where
  toReady := Ready.start hostname unset currentNodeIp lastLogged
  keys := by
    intro ip
    rw [or_iff_left (fun ⟨p, hp, _⟩ => absurd hp List.not_mem_nil)]
    exact List.mem_singleton
  running := iff_of_true rfl rfl
  refused_le := Nat.zero_le 1
  silenced := iff_of_false Bool.false_ne_true fun h => h rfl
  publishing := iff_of_true rfl Nat.zero_ne_one

/-- **The invariant holds after every run of the receive loop.** -/
lemma run_loopInv {hostname : IpString} {unset : NodeStruct} {currentNodeIp : IpBuffer}
    {lastLogged : ℚ} {inputs : List (DetectorEnv × Received)} {s : History}
    (hrun : run History.step (History.start hostname unset currentNodeIp lastLogged)
      (receiveLoop inputs) = some s) :
    LoopInv hostname inputs s := by
  induction inputs using List.reverseRecOn generalizing s with
  | nil =>
    cases hrun
    exact start_loopInv hostname unset currentNodeIp lastLogged
  | append_singleton inputs p ih =>
    rw [receiveLoop, List.map_append, List.map_singleton] at hrun
    obtain ⟨t, ht, hstep⟩ := run_concat_eq_some.mp hrun
    exact (ih ht).step hstep

/-- A run continues with any next input unless the loop has been left. -/
lemma exists_run_concat {hostname : IpString} {unset : NodeStruct} {currentNodeIp : IpBuffer}
    {lastLogged : ℚ} {inputs : List (DetectorEnv × Received)} {s : History}
    (hrun : run History.step (History.start hostname unset currentNodeIp lastLogged)
      (receiveLoop inputs) = some s)
    (hrefused : beaconsRefused hostname inputs = 0) (p : DetectorEnv × Received) :
    ∃ s', run History.step (History.start hostname unset currentNodeIp lastLogged)
      (receiveLoop (inputs ++ [p])) = some s' := by
  have hinv := run_loopInv hrun
  obtain ⟨s', hs'⟩ := hinv.exists_step (hinv.running.mpr hrefused) p.1 p.2
  rw [receiveLoop, List.map_append]
  exact ⟨s', run_concat_eq_some.mpr ⟨s, hrun, hs'⟩⟩

/-- Every sequence of inputs for which no lock is refused is a run. -/
lemma exists_run (hostname : IpString) (unset : NodeStruct) (currentNodeIp : IpBuffer)
    (lastLogged : ℚ) (inputs : List (DetectorEnv × Received))
    (hrefused : beaconsRefused hostname inputs = 0) :
    ∃ s, run History.step (History.start hostname unset currentNodeIp lastLogged)
      (receiveLoop inputs) = some s := by
  induction inputs using List.reverseRecOn with
  | nil => exact ⟨_, rfl⟩
  | append_singleton inputs p ih =>
    rw [beaconsRefused_concat, Nat.add_eq_zero_iff] at hrefused
    obtain ⟨t, ht⟩ := ih hrefused.1
    exact exists_run_concat ht hrefused.1 p

end FailureDetector
