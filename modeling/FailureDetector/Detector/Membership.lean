import FailureDetector.Detector.Step
import FailureDetector.Lib.Runs
import FailureDetector.PaxosReplica.Learner

set_option relaxedAutoImplicit false
set_option autoImplicit false

/-!
# Submissions are the trace of membership changes

The detector is run as a transition system whose steps are the critical sections of
`hashmap_lock`: iterations of the receive loop, and executions of `handle_timeout` for any timer
that has been started before. Deliveries to the learner may come between them. A step that adds or
removes a node submits the new table, and no other step submits anything.

## Main definitions

* `FailureDetector.History`, `FailureDetector.Action`, `FailureDetector.History.step` — the
  transition system.
* `FailureDetector.MembershipStep` — how a step changes the keys, and what it submits.
* `FailureDetector.DiffersByOne` — lists that differ by one address.
* `FailureDetector.History.Inv` — the invariant.

## Main results

* `FailureDetector.History.step_spec` — the step lemma.
* `FailureDetector.History.run_inv` — the invariant holds after every run.
* `FailureDetector.submissions_are_membership_changes` — submissions and membership changes.
-/

namespace FailureDetector

open CString Wire Runs

/-- The state of the program with the actions it has performed so far. -/
structure History where
  detector : Detector
  trace : List Event

/-- An atomic step. -/
inductive Action
  /-- An iteration of the receive loop. -/
  | receive (env : DetectorEnv) (input : Received)
  /-- An execution of `handle_timeout`. -/
  | timeout (env : DetectorEnv) (timerId : ℕ) (ipAddress : IpString)
  /-- An execution of `on_deliver`. -/
  | deliver (delivery : Delivery)

/-- Every lock succeeds. -/
def Action.LocksSucceed : Action → Prop
  | .receive env _ => env.LocksSucceed
  | .timeout env _ _ => env.LocksSucceed
  | .deliver delivery => delivery.env.LocksSucceed

namespace History

/-- The state in which the receive loop starts, with the node's beacons being published. -/
def start (hostname : IpString) (unset : NodeStruct) (currentNodeIp : IpBuffer)
    (lastLogged : ℚ) : History :=
  ⟨startDetector hostname unset currentNodeIp lastLogged, [.publish]⟩

/-- One step. A timer that expires has been started before. -/
def step (s : History) : Action → Option History
  | .receive env input =>
    if s.detector.running then
      (FailureDetector.receive env s.detector input).map fun (d, events) => ⟨d, s.trace ++ events⟩
    else none
  | .timeout env timerId ipAddress =>
    if .startTimer timerId ipAddress ∈ s.trace then
      let (d, events) := handleTimeout env s.detector timerId ipAddress
      some ⟨d, s.trace ++ events⟩
    else none
  | .deliver delivery =>
    let (replica, events) :=
      onDeliver delivery.env s.detector.replica delivery.iid delivery.value
    some ⟨{ s.detector with replica := replica }, s.trace ++ events⟩

end History

/-! ### What a step submits -/

/-- How a step changes the keys of the table, and what it submits. -/
inductive MembershipStep (d d' : Detector) (events : List Event) : Prop
  /-- The keys stay the same and nothing is submitted. -/
  | same (keys : (ipKeys d'.nodes).Perm (ipKeys d.nodes)) (none : submissions events = [])
  /-- A node joins and the new table is submitted. -/
  | joined (ip : IpString) (new : ip ∉ ipKeys d.nodes)
      (keys : (ipKeys d'.nodes).Perm (ip :: ipKeys d.nodes)) (value : Bytes)
      (submits : Submits d d' value) (one : submissions events = [value])
  /-- A node is removed and the new table is submitted. -/
  | removed (ip : IpString) (mem : ip ∈ ipKeys d.nodes)
      (keys : (ipKeys d'.nodes).Perm ((ipKeys d.nodes).filter (· ≠ ip))) (value : Bytes)
      (submits : Submits d d' value) (one : submissions events = [value])

/-- An action that submits nothing, starts no timer and does not report an empty table. -/
def Event.Quiet : Event → Prop
  | .submit _ => False
  | .startTimer _ _ => False
  | .printf text => text ≠ "ERROR: NULL nodes structure \n"
  | _ => True

/-- Quiet actions submit nothing. -/
lemma submissions_eq_nil {events : List Event} (h : ∀ e ∈ events, e.Quiet) :
    submissions events = [] := by
  refine List.filterMap_eq_nil_iff.mpr fun e he => ?_
  cases e with
  | submit value => exact (h _ he).elim
  | _ => rfl

/-- The orchestrator's switch is quiet. -/
lemma orchestrate_quiet (d : Detector) (received : CStr) :
    ∀ e ∈ (orchestrate d received).2, e.Quiet := by
  rcases orchestrate_events d received with h | h | h
  · simp [h]
  · simp [h, Event.Quiet]
  · simp [h, Event.Quiet]

/-- Deliveries are quiet. -/
lemma onDeliver_quiet (env : PaxosEnv) (replica : FdReplica) (iid : ℕ) (value : Bytes) :
    ∀ e ∈ (onDeliver env replica iid value).2, e.Quiet := by
  have hstep := onDeliver_step env replica iid value
  generalize onDeliver env replica iid value = result at hstep ⊢
  cases hstep <;> simp [Event.Quiet]

variable {env : DetectorEnv} {ip : IpString} {events : List Event}

/-- A heartbeat, with the lock around it and the orchestrator's switch after it, changes the keys
as it submits. -/
lemma HeartbeatStep.membershipStep {d d₁ : Detector} {timers timers' : List (ℕ × Timer)}
    {timerId : ℕ} (h : HeartbeatStep env d d₁ timers ip events timerId timers')
    (hlocks : env.LocksSucceed) (received : CStr) :
    MembershipStep d (orchestrate d₁ received).1
      (.lock .hashmapLock :: events ++ [.unlock .hashmapLock] ++ (orchestrate d₁ received).2) := by
  obtain ⟨silenced, heq⟩ := orchestrate_eq d₁ received
  have hquiet := submissions_eq_nil (orchestrate_quiet d₁ received)
  rw [heq]
  by_cases hmem : ip ∈ ipKeys d.nodes
  · obtain ⟨hkeys, rfl⟩ := h.refreshed hmem
    refine .same (List.Perm.of_eq hkeys) ?_
    rw [submissions_append, hquiet]
    rfl
  · obtain ⟨hkeys, hjoined, -⟩ := h.joined hmem
    obtain ⟨value, uuid, hsubmits, rfl⟩ := hjoined (hlocks _)
    refine .joined ip hmem hkeys value hsubmits ?_
    rw [submissions_append, hquiet]
    rfl

/-- `handle_timeout` changes the keys as it submits. -/
lemma TimeoutStep.membershipStep {d d' : Detector} (h : TimeoutStep env d ip d' events)
    (hlocks : env.LocksSucceed) : MembershipStep d d' events := by
  cases h with
  | refused => exact .same (List.Perm.refl _) rfl
  | absent => exact .same (List.Perm.refl _) rfl
  | removed _ _ _ hip frame timers nodup keys timerOf starts submits =>
    obtain ⟨nextTimeout, value, uuid, hsubmits, rfl⟩ := submits (hlocks _)
    exact .removed ip hip keys value hsubmits rfl

/-! ### Lists that differ by one address -/

/-- One list has exactly one address more than the other. -/
def DiffersByOne (l l' : List CStr) : Prop :=
  ∃ s, (s ∉ l ∧ ∀ t, t ∈ l' ↔ t = s ∨ t ∈ l) ∨ (s ∉ l' ∧ ∀ t, t ∈ l ↔ t = s ∨ t ∈ l')

/-- A step that does not submit keeps the membership list, and one that does changes it by one
address. -/
lemma MembershipStep.membership {d d' : Detector} (h : MembershipStep d d' events) (hwf : d.Wf)
    (hwf' : d'.Wf) :
    ((∀ ip, ip ∈ ipKeys d'.nodes ↔ ip ∈ ipKeys d.nodes) ∧ submissions events = [] ∧
        membership d'.nodes = membership d.nodes) ∨
      ((¬ ∀ ip, ip ∈ ipKeys d'.nodes ↔ ip ∈ ipKeys d.nodes) ∧
        DiffersByOne (membership d.nodes) (membership d'.nodes) ∧
        ∃ value, submissions events = [value] ∧ Submits d d' value) := by
  cases h with
  | same keys none =>
    exact Or.inl ⟨fun ip => keys.mem_iff, none,
      membership_congr hwf'.nodup hwf.nodup fun ip => keys.mem_iff⟩
  | joined ip new keys value submits one =>
    refine Or.inr ⟨fun hsame => new ((hsame ip).mp (keys.mem_iff.mpr List.mem_cons_self)),
      ⟨ip.1, Or.inl ⟨fun hmem => new (val_mem_membership.mp hmem), fun t => ?_⟩⟩,
      value, one, submits⟩
    rw [mem_membership, mem_membership]
    constructor
    · rintro ⟨ip', hip', rfl⟩
      rcases List.mem_cons.mp (keys.mem_iff.mp hip') with rfl | hmem
      · exact Or.inl rfl
      · exact Or.inr ⟨ip', hmem, rfl⟩
    · rintro (rfl | ⟨ip', hip', rfl⟩)
      · exact ⟨ip, keys.mem_iff.mpr List.mem_cons_self, rfl⟩
      · exact ⟨ip', keys.mem_iff.mpr (List.mem_cons_of_mem _ hip'), rfl⟩
  | removed ip mem keys value submits one =>
    have hip : ip ∉ ipKeys d'.nodes := by
      rw [keys.mem_iff, List.mem_filter]
      simp
    refine Or.inr ⟨fun hsame => hip ((hsame ip).mpr mem),
      ⟨ip.1, Or.inr ⟨fun hmem => hip (val_mem_membership.mp hmem), fun t => ?_⟩⟩,
      value, one, submits⟩
    have hkeep : ∀ ip', ip' ∈ ipKeys d'.nodes ↔ ip' ∈ ipKeys d.nodes ∧ ip' ≠ ip := by
      intro ip'
      rw [keys.mem_iff, List.mem_filter, decide_eq_true_iff]
    rw [mem_membership, mem_membership]
    constructor
    · rintro ⟨ip', hip', rfl⟩
      by_cases heq : ip' = ip
      · exact Or.inl (congrArg Subtype.val heq)
      · exact Or.inr ⟨ip', (hkeep ip').mpr ⟨hip', heq⟩, rfl⟩
    · rintro (rfl | ⟨ip', hip', rfl⟩)
      · exact ⟨ip, mem, rfl⟩
      · exact ⟨ip', ((hkeep ip').mp hip').1, rfl⟩

/-! ### The invariant -/

/-- The sender and the list of a value. -/
def carries (value : Bytes) : Option (CStr × List CStr) :=
  (decode value).map fun m => (m.sender, m.members)

/-- The invariant of the runs of the node `hostname`. The lists submitted so far are `views`. -/
structure History.Inv (hostname : IpString) (s : History) : Prop where
  hostname_eq : s.detector.hostname = hostname
  running : s.detector.running = true
  wf : s.detector.Wf
  timers : ∃ timers, s.detector.TimersOwned timers
  currentNodeIp : s.detector.replica.currentNodeIp.cstr = hostname.1
  starts : ∀ id ip, Event.startTimer id ip ∈ s.trace → ip ≠ hostname
  noError : Event.printf "ERROR: NULL nodes structure \n" ∉ s.trace
  own : ∀ value ∈ submissions s.trace, ∀ m, decode value = some m →
    m.sender = hostname.1 ∧ hostname.1 ∈ m.members
  views : ∃ views : List (List CStr),
    (submissions s.trace).map carries = views.map (fun l => some (hostname.1, l)) ∧
      ([hostname.1] :: views).IsChain DiffersByOne ∧
      ([hostname.1] :: views).getLast? = some (membership s.detector.nodes)

namespace History

/-- The invariant holds when the receive loop starts. -/
lemma start_inv (hostname : IpString) (unset : NodeStruct) (currentNodeIp : IpBuffer)
    (lastLogged : ℚ) : Inv hostname (start hostname unset currentNodeIp lastLogged) where
  hostname_eq := rfl
  running := rfl
  wf := ⟨List.nodup_singleton _, List.mem_singleton.mpr rfl⟩
  timers := by
    refine ⟨[], TimerManager.lists_init, fun ip id hip hid => ?_⟩
    have hnone : (start hostname unset currentNodeIp lastLogged).detector.timerOf ip = none :=
      Detector.timerOf_eq_none.mpr fun hmem => hip (List.mem_singleton.mp hmem)
    rw [hnone] at hid
    cases hid
  currentNodeIp := IpBuffer.cstr_set _ _
  starts := by simp [start]
  noError := by simp [start]
  own := fun value hmem => absurd hmem List.not_mem_nil
  views := by
    refine ⟨[], rfl, List.isChain_singleton _, congrArg some ?_⟩
    exact (membership_singleton { unset with ipaddress := hostname }).symm

/-- The invariant is kept by a step that keeps the table well formed, submits what it changes and
performs no other action of note. -/
lemma Inv.extend {hostname : IpString} {s : History} (hinv : Inv hostname s) {d' : Detector}
    {events : List Event} (hhost : d'.hostname = s.detector.hostname)
    (hrunning : d'.running = s.detector.running) (hwf : d'.Wf)
    (htimers : ∃ timers, d'.TimersOwned timers)
    (hip : d'.replica.currentNodeIp = s.detector.replica.currentNodeIp)
    (hevents : ∀ e ∈ events, e.Quiet ∨ (∃ value, e = .submit value) ∨
      ∃ id ip, e = .startTimer id ip ∧ ip ≠ hostname)
    (hmembership : MembershipStep s.detector d' events) :
    Inv hostname ⟨d', s.trace ++ events⟩ where
  hostname_eq := hhost.trans hinv.hostname_eq
  running := hrunning.trans hinv.running
  wf := hwf
  timers := htimers
  currentNodeIp := (congrArg CharArray.cstr hip).trans hinv.currentNodeIp
  starts := by
    intro id ip hmem
    rcases List.mem_append.mp hmem with hmem | hmem
    · exact hinv.starts id ip hmem
    · rcases hevents _ hmem with hquiet | ⟨value, heq⟩ | ⟨id', ip', heq, hne⟩
      · exact hquiet.elim
      · cases heq
      · cases heq
        exact hne
  noError := by
    intro hmem
    rcases List.mem_append.mp hmem with hmem | hmem
    · exact hinv.noError hmem
    · rcases hevents _ hmem with hquiet | ⟨value, heq⟩ | ⟨id', ip', heq, hne⟩
      · exact hquiet rfl
      · cases heq
      · cases heq
  own := by
    intro value hmem m hm
    rw [submissions_append, List.mem_append] at hmem
    rcases hmem with hmem | hmem
    · exact hinv.own value hmem m hm
    · rcases hmembership.membership hinv.wf hwf with
        ⟨-, hnone, -⟩ | ⟨-, -, value', hone, uuid, hdecode⟩
      · rw [hnone] at hmem
        cases hmem
      · rw [hone, List.mem_singleton] at hmem
        rw [hmem, hdecode, Option.some.injEq] at hm
        rw [← hm]
        refine ⟨hinv.currentNodeIp, val_mem_membership.mpr ?_⟩
        rw [← hinv.hostname_eq, ← hhost]
        exact hwf.hostname_mem
  views := by
    obtain ⟨views, hviews, hchain, hlast⟩ := hinv.views
    rcases hmembership.membership hinv.wf hwf with
      ⟨-, hnone, hsame⟩ | ⟨-, hdiffers, value, hone, uuid, hdecode⟩
    · refine ⟨views, ?_, hchain, hsame ▸ hlast⟩
      rw [submissions_append, hnone, List.append_nil, hviews]
    · refine ⟨views ++ [membership d'.nodes], ?_, ?_, ?_⟩
      · rw [submissions_append, hone, List.map_append, hviews, List.map_append, List.map_singleton,
          List.map_singleton, carries, hdecode, Option.map_some, hinv.currentNodeIp]
      · rw [← List.cons_append]
        refine hchain.append (List.isChain_singleton _) fun x hx y hy => ?_
        rw [hlast, Option.mem_some_iff] at hx
        rw [List.head?_cons, Option.mem_some_iff] at hy
        rwa [← hx, ← hy]
      · rw [← List.cons_append, List.getLast?_concat]

/-- The actions of a heartbeat. -/
lemma heartbeat_events {hostname : IpString} {d d₁ : Detector} {timers timers' : List (ℕ × Timer)}
    {timerId : ℕ} (h : HeartbeatStep env d d₁ timers ip events timerId timers')
    (hlocks : env.LocksSucceed) (hip : ip ≠ hostname) :
    ∀ e ∈ events, e.Quiet ∨ (∃ value, e = .submit value) ∨
      ∃ id ip, e = .startTimer id ip ∧ ip ≠ hostname := by
  intro e he
  by_cases hmem : ip ∈ ipKeys d.nodes
  · obtain ⟨-, rfl⟩ := h.refreshed hmem
    rw [List.mem_singleton] at he
    exact Or.inr (Or.inr ⟨timerId, ip, he, hip⟩)
  · obtain ⟨-, hjoined, -⟩ := h.joined hmem
    obtain ⟨value, uuid, -, rfl⟩ := hjoined (hlocks _)
    rcases List.mem_cons.mp he with rfl | he
    · exact Or.inr (Or.inr ⟨timerId, ip, rfl, hip⟩)
    · revert e
      simp [Event.Quiet]

/-- An iteration of the receive loop is possible, keeps the invariant, and submits what it
changes. -/
lemma receive_spec {hostname : IpString} {s : History} (hinv : Inv hostname s)
    (hlocks : env.LocksSucceed) (input : Received) :
    ∃ d' events, step s (.receive env input) = some ⟨d', s.trace ++ events⟩ ∧
      Inv hostname ⟨d', s.trace ++ events⟩ ∧ MembershipStep s.detector d' events := by
  obtain ⟨timers, htimers⟩ := hinv.timers
  obtain ⟨d', events, timers', hreceive, hdo⟩ := receive_step env hinv.wf htimers input
  have hstep : step s (.receive env input) = some ⟨d', s.trace ++ events⟩ := by
    rw [step, if_pos hinv.running, hreceive, Option.map_some]
  have hhost := hdo.hostname
  have hwf := hdo.wf hinv.wf
  have howned := hdo.timersOwned htimers
  refine ⟨d', events, hstep, ?_⟩
  cases hdo with
  | failure =>
    have hsame : MembershipStep s.detector s.detector
        [.printf "ERROR: message could not be read \n"] := .same (List.Perm.refl _) rfl
    refine ⟨hinv.extend rfl rfl hwf ⟨timers, howned⟩ rfl ?_ hsame, hsame⟩
    simp [Event.Quiet]
  | own received =>
    have hsame : MembershipStep s.detector s.detector [] := .same (List.Perm.refl _) rfl
    exact ⟨hinv.extend rfl rfl hwf ⟨timers, howned⟩ rfl (by simp) hsame, hsame⟩
  | refused ip received hip hlock =>
    rw [hlocks] at hlock
    cases hlock
  | heartbeat ip received d₁ events timerId _ hip hlock hbeat =>
    have hmembership := hbeat.membershipStep hlocks received
    have hquiet := orchestrate_quiet d₁ received
    clear hstep hreceive
    obtain ⟨silenced, heq⟩ := orchestrate_eq d₁ received
    rw [heq] at hmembership hhost hwf howned ⊢
    refine ⟨hinv.extend hhost hbeat.frame.running hwf ⟨timers', howned⟩
      hbeat.frame.currentNodeIp ?_ hmembership, hmembership⟩
    rw [hinv.hostname_eq] at hip
    intro e he
    simp only [List.cons_append, List.append_assoc, List.mem_cons, List.mem_append,
      List.not_mem_nil, false_or] at he
    rcases he with rfl | he | rfl | he
    · exact Or.inl trivial
    · exact heartbeat_events hbeat hlocks hip e he
    · exact Or.inl trivial
    · exact Or.inl (hquiet e he)

/-- An execution of `handle_timeout` for a timer that has been started is possible, keeps the
invariant, and submits what it changes. -/
lemma timeout_spec {hostname : IpString} {s : History} (hinv : Inv hostname s)
    (hlocks : env.LocksSucceed) {timerId : ℕ} (hstarted : .startTimer timerId ip ∈ s.trace) :
    ∃ d' events, step s (.timeout env timerId ip) = some ⟨d', s.trace ++ events⟩ ∧
      Inv hostname ⟨d', s.trace ++ events⟩ ∧ MembershipStep s.detector d' events := by
  obtain ⟨timers, htimers⟩ := hinv.timers
  have hip : ip ≠ s.detector.hostname := by
    rw [hinv.hostname_eq]
    exact hinv.starts timerId ip hstarted
  have hdo := handleTimeout_step env hinv.wf hip timerId
  rcases htimeout : handleTimeout env s.detector timerId ip with ⟨d', events⟩
  rw [htimeout] at hdo
  have hmembership := hdo.membershipStep hlocks
  have hwf := hdo.wf hinv.wf hip
  have htimers' := hdo.timersOwned htimers
  refine ⟨d', events, ?_, ?_, hmembership⟩
  · rw [step, if_pos hstarted, htimeout]
  · have hframe := hdo.frame
    refine hinv.extend hframe.hostname hframe.running hwf ⟨timers, htimers'⟩ hframe.currentNodeIp
      ?_ hmembership
    cases hdo with
    | refused hlock =>
      rw [hlocks] at hlock
      cases hlock
    | absent => simp [Event.Quiet]
    | removed _ _ _ hmem frame same nodup keys timerOf starts submits =>
      obtain ⟨nextTimeout, value, uuid, -, rfl⟩ := submits (hlocks _)
      simp [Event.Quiet]

/-- A delivery is possible, keeps the invariant, and submits nothing. -/
lemma deliver_spec {hostname : IpString} {s : History} (hinv : Inv hostname s) (d : Delivery) :
    ∃ d' events, step s (.deliver d) = some ⟨d', s.trace ++ events⟩ ∧
      Inv hostname ⟨d', s.trace ++ events⟩ ∧ MembershipStep s.detector d' events := by
  obtain ⟨timers, htimers⟩ := hinv.timers
  have hquiet := onDeliver_quiet d.env s.detector.replica d.iid d.value
  have hsame : MembershipStep s.detector
      { s.detector with
        replica := (onDeliver d.env s.detector.replica d.iid d.value).1 }
      (onDeliver d.env s.detector.replica d.iid d.value).2 :=
    .same (List.Perm.refl _) (submissions_eq_nil hquiet)
  exact ⟨_, _, rfl, hinv.extend rfl rfl ⟨hinv.wf.nodup, hinv.wf.hostname_mem⟩
    ⟨timers, htimers.lists, htimers.owned⟩ (onDeliver_currentNodeIp _ _ _ _)
    (fun e he => Or.inl (hquiet e he)) hsame, hsame⟩

/-- **What a step does**: it keeps the invariant, and it submits what it changes. -/
lemma step_spec {hostname : IpString} {s s' : History} {a : Action} (hinv : Inv hostname s)
    (hlocks : a.LocksSucceed) (hstep : step s a = some s') :
    Inv hostname s' ∧ ∃ events, s'.trace = s.trace ++ events ∧
      MembershipStep s.detector s'.detector events := by
  have hspec : ∃ d' events, step s a = some ⟨d', s.trace ++ events⟩ ∧
      Inv hostname ⟨d', s.trace ++ events⟩ ∧ MembershipStep s.detector d' events := by
    cases a with
    | receive env input => exact receive_spec hinv hlocks input
    | timeout env timerId ip =>
      by_cases hstarted : .startTimer timerId ip ∈ s.trace
      · exact timeout_spec hinv hlocks hstarted
      · rw [step, if_neg hstarted] at hstep
        cases hstep
    | deliver d => exact deliver_spec hinv d
  obtain ⟨d', events, heq, hinv', hmembership⟩ := hspec
  rw [heq] at hstep
  cases hstep
  exact ⟨hinv', events, rfl, hmembership⟩

/-- **The invariant holds after every run.** -/
lemma run_inv {hostname : IpString} {unset : NodeStruct} {currentNodeIp : IpBuffer}
    {lastLogged : ℚ} {actions : List Action} {s : History}
    (hlocks : ∀ a ∈ actions, a.LocksSucceed)
    (hrun : run step (start hostname unset currentNodeIp lastLogged) actions = some s) :
    Inv hostname s :=
  run_invariant (Inv hostname) (fun _ _ _ hinv hok hstep => (step_spec hinv hok hstep).1)
    (start_inv hostname unset currentNodeIp lastLogged) hlocks hrun

/-- The submissions of a run that has led to `s` are the trace of its membership changes. -/
structure Traced (hostname : IpString) (s : History) : Prop where
  nodup : (ipKeys s.detector.nodes).Nodup
  hostname_mem : hostname ∈ ipKeys s.detector.nodes
  /-- `serialize_hash` has not met an empty table. -/
  noError : Event.printf "ERROR: NULL nodes structure \n" ∉ s.trace
  /-- Successive submissions differ by one address, and the last one is the table. -/
  views : ∃ views : List (List CStr),
    (submissions s.trace).map carries = views.map (fun l => some (hostname.1, l)) ∧
      ([hostname.1] :: views).IsChain DiffersByOne ∧
      ([hostname.1] :: views).getLast? = some (membership s.detector.nodes)
  receive_possible : ∀ env input, env.LocksSucceed → ∃ s', step s (.receive env input) = some s'
  timeout_possible : ∀ env timerId ip, env.LocksSucceed →
    ((∃ s', step s (.timeout env timerId ip) = some s') ↔ .startTimer timerId ip ∈ s.trace)
  /-- The next step submits if and only if it changes the keys, and then it submits them. -/
  next : ∀ a s', a.LocksSucceed → step s a = some s' → ∃ events, s'.trace = s.trace ++ events ∧
    ((∀ ip, ip ∈ ipKeys s'.detector.nodes ↔ ip ∈ ipKeys s.detector.nodes) ∧
        submissions events = [] ∨
      (¬ ∀ ip, ip ∈ ipKeys s'.detector.nodes ↔ ip ∈ ipKeys s.detector.nodes) ∧
        ∃ value m, submissions events = [value] ∧ decode value = some m ∧
          m.sender = hostname.1 ∧ Descending m.members ∧
          ∀ t, t ∈ m.members ↔ ∃ ip ∈ ipKeys s'.detector.nodes, ip.1 = t)

end History

/-- **Submissions are exactly the trace of membership changes**, after every run of the detector in
which the locks can be taken. The keys of the table are distinct and contain the node itself. A
step submits a value if and only if it changes the keys, and the value decodes to the keys after
the step. Successive values differ by one address, and the last one carries the current table.

**Proof sketch.** By induction on the run: the invariant is kept by every step
(`FailureDetector.History.step_spec`), and a step changes the keys by joining or removing one
node, or not at all, and submits accordingly (`FailureDetector.MembershipStep`). -/
theorem submissions_are_membership_changes (hostname : IpString) (unset : NodeStruct)
    (currentNodeIp : IpBuffer) (lastLogged : ℚ) (actions : List Action)
    (hlocks : ∀ a ∈ actions, a.LocksSucceed) (s : History)
    (hrun : run History.step (History.start hostname unset currentNodeIp lastLogged) actions =
      some s) :
    s.Traced hostname := by
  have hinv := History.run_inv hlocks hrun
  refine ⟨hinv.wf.nodup, hinv.hostname_eq ▸ hinv.wf.hostname_mem, hinv.noError, hinv.views,
    fun env input hok => ?_, fun env timerId ip hok => ⟨fun ⟨s', hstep⟩ => ?_, fun hmem => ?_⟩,
    fun a s' hok hstep => ?_⟩
  · obtain ⟨d', events, hstep, -⟩ := History.receive_spec hinv hok input
    exact ⟨_, hstep⟩
  · by_contra hmem
    rw [History.step, if_neg hmem] at hstep
    cases hstep
  · obtain ⟨d', events, hstep, -⟩ := History.timeout_spec hinv hok hmem
    exact ⟨_, hstep⟩
  · obtain ⟨hinv', events, htrace, hmembership⟩ := History.step_spec hinv hok hstep
    refine ⟨events, htrace, ?_⟩
    rcases hmembership.membership hinv.wf hinv'.wf with
      ⟨hsame, hnone, -⟩ | ⟨hne, -, value, hone, uuid, hdecode⟩
    · exact Or.inl ⟨hsame, hnone⟩
    · exact Or.inr ⟨hne, value, _, hone, hdecode, hinv.currentNodeIp,
        membership_descending hinv'.wf.nodup, fun t => mem_membership⟩

/-- An environment in which every lock is granted and a timer can be started. -/
def quietDetectorEnv : DetectorEnv where
  toPaxosEnv := quietEnv
  malloc := true
  timerfd := some 3
  currentTimeMs := 0
  node := 1
  unset := ⟨0, 0, 0, 0, 0⟩
  outOfRange := 0

/-- A node that has received one beacon has submitted what its table holds. -/
theorem submissions_are_membership_changes_one :
    ∃ s, run History.step
        (History.start ipOne (nodeWithIp ⟨[], by decide⟩) (CharArray.zero _) 0)
        [.receive quietDetectorEnv (.beacon ipTwo [])] = some s ∧
      s.Traced ipOne := by
  have hlocks : quietDetectorEnv.LocksSucceed := quietEnv_locks
  obtain ⟨d', events, hstep, -⟩ := History.receive_spec
    (History.start_inv ipOne (nodeWithIp ⟨[], by decide⟩)
      (CharArray.zero _) 0)
    hlocks (.beacon ipTwo [])
  have hrun := run_singleton.trans hstep
  refine ⟨_, hrun, submissions_are_membership_changes _ _ _ _ _ (fun a ha => ?_) _ hrun⟩
  rw [List.mem_singleton.mp ha]
  exact hlocks

end FailureDetector
