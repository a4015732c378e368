import FailureDetector.Detector.ReceiveLoop

set_option relaxedAutoImplicit false
set_option autoImplicit false

/-!
# The orchestrator

A run of the receive loop in which some addresses send commands, and nothing else, is compared with
the run without the commands. The commands are heartbeats of these addresses as well, so the two
runs differ, in the membership lists by these addresses only. The speaker follows the first two
commands.

## Main definitions

* `FailureDetector.withoutControls` — the inputs without the commands.
* `FailureDetector.CommandedBy` — commands come from addresses that send no other beacons.
* `FailureDetector.listsSubmitted` — the lists that some of the iterations submit.
* `FailureDetector.Erased` — the relation between the two runs.
* `FailureDetector.NonInterference` — commands toggle the speaker and do nothing else.

## Main results

* `FailureDetector.Erased.control`, `FailureDetector.Erased.ordinary` — the step lemmas.
* `FailureDetector.Erased.run` — the run without the commands is simulated.
* `FailureDetector.controls_add_orchestrators` — commands add the addresses they come from.
* `FailureDetector.nonInterference_iff` — when commands and heartbeats do not interfere.
-/

namespace FailureDetector

open CString Wire Runs

/-- The inputs without the commands of the orchestrator. -/
def withoutControls (hostname : IpString) (inputs : List (DetectorEnv × Received)) :
    List (DetectorEnv × Received) :=
  inputs.filter fun p => !isControl hostname p.2

/-- Commands come from the addresses `orchestrators`, which send no other beacons. -/
structure CommandedBy (hostname : IpString) (orchestrators : List IpString)
    (inputs : List (DetectorEnv × Received)) : Prop where
  hostname_notMem : hostname ∉ orchestrators
  control_iff : ∀ p ∈ inputs, ∀ ip received, p.2 = .beacon ip received → ip ≠ hostname →
    (isControl hostname p.2 = true ↔ ip ∈ orchestrators)

/-- A membership list without the addresses `ips`. -/
def withoutAddresses (ips : List IpString) (list : List CStr) : List CStr :=
  list.filter fun s => s ∉ ips.map Subtype.val

/-- The lists that the receive loop submits, from a state on, in the iterations on the inputs that
`keep` accepts. -/
def listsSubmitted (keep : Received → Bool) :
    History → List (DetectorEnv × Received) → List (Option (List CStr))
  | _, [] => []
  | s, p :: inputs =>
    match History.step s (.receive p.1 p.2) with
    | none => []
    | some s' =>
      (if keep p.2 then submittedLists (s'.trace.drop s.trace.length) else []) ++
        listsSubmitted keep s' inputs

/-- `s'` is the state `s` without the nodes `orchestrators`. -/
structure Erased (hostname : IpString) (orchestrators : List IpString) (s s' : History) :
    Prop where
  ready : Ready hostname s
  ready' : Ready hostname s'
  running : s.detector.running = true → s'.detector.running = true
  keys : ∀ ip, ip ∈ ipKeys s'.detector.nodes ↔
    ip ∈ ipKeys s.detector.nodes ∧ ip ∉ orchestrators

/-! ### The simulation -/

variable {hostname : IpString} {orchestrators : List IpString}
  {inputs : List (DetectorEnv × Received)} {s s' t : History}

/-- All iterations together submit what the loop submits. -/
lemma submittedLists_eq_listsSubmitted (hready : Ready hostname s)
    (hrun : run History.step s (receiveLoop inputs) = some t) :
    submittedLists t.trace = submittedLists s.trace ++ listsSubmitted (fun _ => true) s inputs := by
  induction inputs generalizing s with
  | nil =>
    cases hrun
    exact (List.append_nil _).symm
  | cons p inputs ih =>
    obtain ⟨u, hstep, hrun⟩ := run_cons_eq_some.mp hrun
    obtain ⟨-, hready', events, -, -, htrace, -⟩ := hready.receive hstep
    rw [listsSubmitted, hstep, ih hready' hrun]
    simp only [htrace, if_true, List.drop_left, submittedLists, submissions_append, List.map_append,
      List.append_assoc]

namespace CommandedBy

/-- The condition on fewer inputs. -/
lemma mono (h : CommandedBy hostname orchestrators inputs) {inputs' : List (DetectorEnv × Received)}
    (hsub : ∀ p ∈ inputs', p ∈ inputs) : CommandedBy hostname orchestrators inputs' :=
  ⟨h.hostname_notMem, fun p hp => h.control_iff p (hsub p hp)⟩

/-- The sender of a beacon is among the orchestrators exactly when the beacon is a command. -/
lemma heardFrom (h : CommandedBy hostname orchestrators inputs) {p : DetectorEnv × Received}
    (hp : p ∈ inputs) {ip : IpString} (hip : ip ≠ hostname) (hheard : HeardFrom p ip) :
    isControl hostname p.2 = true ↔ ip ∈ orchestrators := by
  obtain ⟨received, hinput, -⟩ := hheard
  exact h.control_iff p hp ip received hinput hip

end CommandedBy

namespace Erased

/-- The keys of the two states, from the keys of other addresses than the node's own. -/
lemma keys_of_ne (hready : Ready hostname s) (hready' : Ready hostname s')
    (hhost : hostname ∉ orchestrators)
    (hkeys : ∀ ip, ip ≠ hostname → (ip ∈ ipKeys s'.detector.nodes ↔
      ip ∈ ipKeys s.detector.nodes ∧ ip ∉ orchestrators)) (ip : IpString) :
    ip ∈ ipKeys s'.detector.nodes ↔ ip ∈ ipKeys s.detector.nodes ∧ ip ∉ orchestrators := by
  by_cases hip : ip = hostname
  · subst hip
    refine iff_of_true ?_ ⟨?_, hhost⟩
    · exact hready'.hostname_eq ▸ hready'.wf.hostname_mem
    · exact hready.hostname_eq ▸ hready.wf.hostname_mem
  · exact hkeys ip hip

/-- **The step lemma for commands**: without the command nothing happens. -/
lemma control (h : Erased hostname orchestrators s s')
    (hsent : CommandedBy hostname orchestrators inputs) {p : DetectorEnv × Received}
    (hp : p ∈ inputs) (hcontrol : isControl hostname p.2 = true)
    (hstep : History.step s (.receive p.1 p.2) = some t) : Erased hostname orchestrators t s' := by
  obtain ⟨hrunning, hready, events, timers, timers', htrace, hdo⟩ := h.ready.receive hstep
  refine ⟨hready, h.ready', fun _ => h.running hrunning, ?_⟩
  refine keys_of_ne hready h.ready' hsent.hostname_notMem fun ip hip => ?_
  rw [h.keys, hdo.mem_keys (h.ready.hostname_eq ▸ hip)]
  refine ⟨fun ⟨hmem, hout⟩ => ⟨Or.inl hmem, hout⟩, fun ⟨hor, hout⟩ => ⟨hor.elim id ?_, hout⟩⟩
  exact fun hheard => absurd ((hsent.heardFrom hp hip hheard).mp hcontrol) hout

/-- **The step lemma for other inputs**: the iteration submits the same without the commands. -/
lemma ordinary (h : Erased hostname orchestrators s s')
    (hsent : CommandedBy hostname orchestrators inputs) {p : DetectorEnv × Received}
    (hp : p ∈ inputs) (hcontrol : isControl hostname p.2 = false)
    (hstep : History.step s (.receive p.1 p.2) = some t) :
    ∃ t', History.step s' (.receive p.1 p.2) = some t' ∧ Erased hostname orchestrators t t' ∧
      submittedLists t'.trace = submittedLists s'.trace ++
        (submittedLists (t.trace.drop s.trace.length)).map
          (Option.map (withoutAddresses orchestrators)) := by
  obtain ⟨hrunning, hready, events, timers, timers₁, htrace, hdo⟩ := h.ready.receive hstep
  obtain ⟨t', hstep'⟩ := h.ready'.exists_step (h.running hrunning) p.1 p.2
  obtain ⟨hrunning', hready', events', timers', timers₁', htrace', hdo'⟩ :=
    h.ready'.receive hstep'
  have hother : ∀ ip, ip ≠ hostname → HeardFrom p ip → ip ∉ orchestrators := by
    intro ip hip hheard hin
    exact Bool.false_ne_true (hcontrol.symm.trans ((hsent.heardFrom hp hip hheard).mpr hin))
  have hkeys := keys_of_ne hready hready' hsent.hostname_notMem fun ip hip => by
    rw [hdo'.mem_keys (h.ready'.hostname_eq ▸ hip), hdo.mem_keys (h.ready.hostname_eq ▸ hip),
      h.keys, or_and_right]
    exact or_congr_right (iff_self_and.mpr (hother ip hip))
  -- a node joins without the commands exactly when it joins with them
  have hjoins : Joins p.1 s'.detector p.2 ↔ Joins p.1 s.detector p.2 := by
    refine exists_congr fun ip => and_congr_right fun hheard => and_congr_left fun _ => not_congr ?_
    by_cases hip : ip = hostname
    · rw [hip]
      refine iff_of_true ?_ ?_
      · exact h.ready'.hostname_eq ▸ h.ready'.wf.hostname_mem
      · exact h.ready.hostname_eq ▸ h.ready.wf.hostname_mem
    · rw [h.keys, and_iff_left (hother ip hip hheard)]
  refine ⟨t', hstep', ⟨hready, hready', fun hrun => ?_, hkeys⟩, ?_⟩
  · rw [hdo.running, hrunning, Bool.true_and, h.ready.hostname_eq] at hrun
    rw [hdo'.running, hrunning', Bool.true_and, h.ready'.hostname_eq, hrun]
  · rw [htrace, List.drop_left, htrace', submittedLists, submissions_append, List.map_append,
      ← submittedLists, ← submittedLists]
    rcases hdo.lists h.ready.wf with ⟨hjoin, hlists⟩ | ⟨hjoin, hlists⟩
    · rcases hdo'.lists h.ready'.wf with ⟨-, hlists'⟩ | ⟨hjoin', -⟩
      · rw [hlists, hlists', membership_filter hready.wf.nodup hready'.wf.nodup _ hkeys]
        rfl
      · exact absurd (hjoins.mpr hjoin) hjoin'
    · rcases hdo'.lists h.ready'.wf with ⟨hjoin', -⟩ | ⟨-, hlists'⟩
      · exact absurd (hjoins.mp hjoin') hjoin
      · rw [hlists, hlists', List.map_nil]

/-- **The run without the commands is simulated**: from related states it is a run, its lists are
those of the iterations on other inputs, and it leads to related states. -/
lemma run (h : Erased hostname orchestrators s s')
    (hsent : CommandedBy hostname orchestrators inputs)
    (hrun : Runs.run History.step s (receiveLoop inputs) = some t) :
    ∃ t', Runs.run History.step s' (receiveLoop (withoutControls hostname inputs)) = some t' ∧
      Erased hostname orchestrators t t' ∧
      submittedLists t'.trace = submittedLists s'.trace ++
        (listsSubmitted (fun input => !isControl hostname input) s inputs).map
          (Option.map (withoutAddresses orchestrators)) := by
  induction inputs generalizing s s' with
  | nil =>
    cases hrun
    exact ⟨s', rfl, h, (List.append_nil _).symm⟩
  | cons p inputs ih =>
    obtain ⟨u, hstep, hrun⟩ := run_cons_eq_some.mp hrun
    have hrest : CommandedBy hostname orchestrators inputs :=
      hsent.mono fun q hq => List.mem_cons_of_mem p hq
    rw [listsSubmitted, hstep]
    cases hcontrol : isControl hostname p.2 with
    | true =>
      have hu := h.control hsent List.mem_cons_self hcontrol hstep
      have herase : withoutControls hostname (p :: inputs) = withoutControls hostname inputs := by
        rw [withoutControls, List.filter_cons, hcontrol, ← withoutControls]
        rfl
      rw [herase]
      exact ih hu hrest hrun
    | false =>
      obtain ⟨u', hstep', hu, hlists⟩ := h.ordinary hsent List.mem_cons_self hcontrol hstep
      obtain ⟨t', hrun', ht, hsubmitted⟩ := ih hu hrest hrun
      have herase : withoutControls hostname (p :: inputs) =
          p :: withoutControls hostname inputs := by
        rw [withoutControls, List.filter_cons, hcontrol, ← withoutControls]
        rfl
      refine ⟨t', ?_, ht, ?_⟩
      · rw [herase]
        exact run_cons_eq_some.mpr ⟨u', hstep', hrun'⟩
      · rw [hsubmitted, hlists, List.append_assoc, ← List.map_append]
        rfl

end Erased

/-! ### Runs with and without commands -/

/-- The state in which the receive loop starts is related to itself. -/
lemma start_erased (hhost : hostname ∉ orchestrators) (unset : NodeStruct)
    (currentNodeIp : IpBuffer) (lastLogged : ℚ) :
    Erased hostname orchestrators (History.start hostname unset currentNodeIp lastLogged)
      (History.start hostname unset currentNodeIp lastLogged) := by
  have hready := Ready.start hostname unset currentNodeIp lastLogged
  refine ⟨hready, hready, id, Erased.keys_of_ne hready hready hhost fun ip hip => ?_⟩
  have hnot : ip ∉ ipKeys (History.start hostname unset currentNodeIp lastLogged).detector.nodes :=
    fun hmem => hip (List.mem_singleton.mp hmem)
  exact iff_of_false hnot fun h => hnot h.1

/-- The run of the inputs from `start` to `s` and the run without the commands to `s'` are the same
but for the orchestrators. -/
structure SameButOrchestrators (hostname : IpString) (orchestrators : List IpString)
    (inputs : List (DetectorEnv × Received)) (start s s' : History) : Prop where
  /-- The orchestrators are missing from the keys. -/
  keys : ∀ ip, ip ∈ ipKeys s'.detector.nodes ↔
    ip ∈ ipKeys s.detector.nodes ∧ ip ∉ orchestrators
  /-- A command that has been processed has added the address it comes from. -/
  joined : ∀ ip ∈ orchestrators,
    (ip ∈ ipKeys s.detector.nodes ↔ ∃ p ∈ inputs, HeardFrom p ip)
  /-- The orchestrators are missing from the lists, and so are the lists submitted on commands. -/
  submitted : submittedLists s'.trace =
    (listsSubmitted (fun input => !isControl hostname input) start inputs).map
      (Option.map (withoutAddresses orchestrators))
  /-- Nothing is submitted on the commands of an orchestrator that has joined. -/
  once : Along History.step (fun t a => ∀ env ip received t',
      a = .receive env (.beacon ip received) → ip ∈ orchestrators →
      ip ∈ ipKeys t.detector.nodes → History.step t a = some t' →
      submittedLists t'.trace = submittedLists t.trace) start (receiveLoop inputs)
  /-- After an even number of commands the speaker is publishing. -/
  publishing_of_even : Even (controlsGranted hostname inputs) → publishing s.trace = true
  /-- After one command the speaker is silenced. -/
  silenced_of_one : controlsGranted hostname inputs = 1 → publishing s.trace = false

/-- **Commands add the addresses they come from to the peers**, and change nothing else in the keys
and the submitted lists, after every run of the receive loop in which these addresses send no other
beacons. After one command the speaker is silenced, and after any even number of commands it is
publishing.

**Proof sketch.** The run without the commands is simulated (`FailureDetector.Erased.run`): an
iteration on a command leaves the two states related, and another iteration submits on both sides
or on neither. By the invariant of the loop (`FailureDetector.LoopInv`) the speaker is publishing
unless exactly one command has been processed. -/
theorem controls_add_orchestrators (hostname : IpString) (unset : NodeStruct)
    (currentNodeIp : IpBuffer) (lastLogged : ℚ) (orchestrators : List IpString)
    (inputs : List (DetectorEnv × Received))
    (hsent : CommandedBy hostname orchestrators inputs) (s : History)
    (hrun : run History.step (History.start hostname unset currentNodeIp lastLogged)
      (receiveLoop inputs) = some s) :
    ∃ s', run History.step (History.start hostname unset currentNodeIp lastLogged)
        (receiveLoop (withoutControls hostname inputs)) = some s' ∧
      SameButOrchestrators hostname orchestrators inputs
        (History.start hostname unset currentNodeIp lastLogged) s s' := by
  have hinv := run_loopInv hrun
  have hstart := start_erased hsent.hostname_notMem unset currentNodeIp lastLogged
  obtain ⟨s', hrun', herased, hlists⟩ := hstart.run hsent hrun
  refine ⟨s', hrun', herased.keys, fun ip hip => ?_, hlists, ?_, fun heven => ?_, fun hone => ?_⟩
  · rw [hinv.keys, or_iff_right]
    rintro rfl
    exact hsent.hostname_notMem hip
  · rintro pre a post t heq hpre env ip received t' rfl hip hmem hstep
    obtain ⟨inputs₁, inputs₂, rfl, rfl, -⟩ := List.map_eq_append_iff.mp heq
    have hready := (run_loopInv hpre).toReady
    obtain ⟨-, -, events, timers, timers', htrace, hdo⟩ := hready.receive hstep
    rcases hdo.lists hready.wf with ⟨⟨ip', ⟨received', hinput, -⟩, hnew, -⟩, -⟩ | ⟨-, hnone⟩
    · cases hinput
      exact absurd hmem hnew
    · rw [htrace, submittedLists, submissions_append, List.map_append, ← submittedLists,
        ← submittedLists, hnone, List.append_nil]
  · refine hinv.publishing.mpr fun hone => ?_
    rw [hone] at heven
    exact absurd heven (by decide)
  · rw [Bool.eq_false_iff]
    exact fun hpublishing => hinv.publishing.mp hpublishing hone

/-- A command to the node `1` from the address `2`. -/
def commandToOne : DetectorEnv × Received :=
  (quietDetectorEnv, .beacon ipTwo (readString [49]))

/-- A beacon of the node `3`. -/
def beaconFromThree : DetectorEnv × Received :=
  (quietDetectorEnv, .beacon ipThree (readString [33]))

/-- The address `2` sends nothing but commands. -/
lemma commandedBy_two (inputs : List (DetectorEnv × Received))
    (hinputs : ∀ p ∈ inputs, p = beaconFromThree ∨ p = commandToOne) :
    CommandedBy ipOne [ipTwo] inputs := by
  refine ⟨by decide, fun p hp ip received hinput hip => ?_⟩
  rcases hinputs p hp with rfl | rfl
  · cases hinput
    decide
  · cases hinput
    decide

/-- The node `1` hears from the node `3`, and a command adds the address `2`. -/
theorem controls_add_orchestrators_two :
    ∃ s s', run History.step
        (History.start ipOne (nodeWithIp ⟨[], by decide⟩) (CharArray.zero _) 0)
        (receiveLoop [beaconFromThree, commandToOne]) = some s ∧
      run History.step (History.start ipOne (nodeWithIp ⟨[], by decide⟩) (CharArray.zero _) 0)
        (receiveLoop [beaconFromThree]) = some s' ∧
      SameButOrchestrators ipOne [ipTwo] [beaconFromThree, commandToOne]
        (History.start ipOne (nodeWithIp ⟨[], by decide⟩) (CharArray.zero _) 0) s s' := by
  obtain ⟨s, hs⟩ := exists_run ipOne (nodeWithIp ⟨[], by decide⟩)
    (CharArray.zero _) 0 [beaconFromThree, commandToOne] rfl
  have hsent := commandedBy_two [beaconFromThree, commandToOne] fun p => List.mem_pair.mp
  obtain ⟨s', hs', hsame⟩ := controls_add_orchestrators _ _ _ _ _ _ hsent s hs
  exact ⟨s, s', hs, hs', hsame⟩

/-! ### Interference -/

/-- Commands toggle the speaker and do nothing else: `s` and `s'` are the states after the inputs
with and without the commands. -/
structure NonInterference (hostname : IpString) (inputs : List (DetectorEnv × Received))
    (s s' : History) : Prop where
  keys : ∀ ip, ip ∈ ipKeys s.detector.nodes ↔ ip ∈ ipKeys s'.detector.nodes
  submitted : submittedLists s.trace = submittedLists s'.trace
  speaker : publishing s.trace = true ↔ Even (controls hostname inputs)

/-- When no command is granted the lock, at most one has been received. -/
lemma LoopInv.controls_le_one (hinv : LoopInv hostname inputs s)
    (hgranted : controlsGranted hostname inputs = 0) : controls hostname inputs ≤ 1 := by
  rw [controlsGranted, List.countP_eq_zero] at hgranted
  refine le_trans (List.countP_mono_left fun p hp hcontrol => ?_) hinv.refused_le
  have hlock : p.1.lock .hashmapLock = false := by
    have hnot := hgranted p hp
    rwa [hcontrol, Bool.true_and, Bool.not_eq_true] at hnot
  obtain ⟨ip, received, hinput, hip⟩ := isControl_eq_true hcontrol
  have hforeign : isForeign hostname p.2 = true := by
    rw [hinput]
    exact decide_eq_true hip
  rw [hforeign, hlock, Bool.not_false, Bool.and_self]

/-- **Commands and heartbeats do not interfere if and only if there is no command**, in every run
of the receive loop in which the addresses that send commands send no other beacons.

**Proof sketch.** A command that is granted the lock adds its sender, which is missing without the
commands. If no command is granted the lock, then the loop has been left at the only one, and the
speaker has not been silenced. -/
theorem nonInterference_iff (hsent : CommandedBy hostname orchestrators inputs)
    {unset : NodeStruct} {currentNodeIp : IpBuffer} {lastLogged : ℚ}
    (hrun : run History.step (History.start hostname unset currentNodeIp lastLogged)
      (receiveLoop inputs) = some s) :
    ∃ s', run History.step (History.start hostname unset currentNodeIp lastLogged)
        (receiveLoop (withoutControls hostname inputs)) = some s' ∧
      (NonInterference hostname inputs s s' ↔ controls hostname inputs = 0) := by
  have hinv := run_loopInv hrun
  have hstart := start_erased hsent.hostname_notMem unset currentNodeIp lastLogged
  obtain ⟨s', hrun', herased, -⟩ := hstart.run hsent hrun
  refine ⟨s', hrun', fun h => ?_, fun h => ?_⟩
  · by_contra hne
    have hgranted : controlsGranted hostname inputs = 0 := by
      refine List.countP_eq_zero.mpr fun p hp hcommand => ?_
      obtain ⟨hcontrol, hlock⟩ := Bool.and_eq_true_iff.mp hcommand
      obtain ⟨ip, received, hinput, hip⟩ := isControl_eq_true hcontrol
      have hheard : HeardFrom p ip := ⟨received, hinput, hlock⟩
      have hkey := (h.keys ip).mp ((hinv.keys ip).mpr (Or.inr ⟨p, hp, hheard⟩))
      exact ((herased.keys ip).mp hkey).2 ((hsent.heardFrom hp hip hheard).mp hcontrol)
    have hone : controls hostname inputs = 1 := by
      have hle := hinv.controls_le_one hgranted
      omega
    have hspeaker := h.speaker.mp (hinv.publishing.mpr (by omega))
    rw [hone] at hspeaker
    exact absurd hspeaker (by decide)
  · have hall : withoutControls hostname inputs = inputs := by
      refine List.filter_eq_self.mpr fun p hp => ?_
      have hcontrol := List.countP_eq_zero.mp h p hp
      rw [Bool.not_eq_true] at hcontrol
      rw [hcontrol, Bool.not_false]
    have hsame : s' = s := by
      rw [hall] at hrun'
      exact Option.some.inj (hrun'.symm.trans hrun)
    have hgranted : controlsGranted hostname inputs ≤ controls hostname inputs :=
      List.countP_mono_left fun p _ hcommand => (Bool.and_eq_true_iff.mp hcommand).1
    rw [hsame]
    refine ⟨fun _ => Iff.rfl, rfl, ?_⟩
    rw [hinv.publishing, h]
    exact iff_of_true (by omega) Even.zero

/-- **Three commands to a node** make their sender one of its peers, submit that, and leave the
speaker publishing. -/
theorem three_commands_interfere :
    ∃ s s', CommandedBy ipOne [ipTwo] [commandToOne, commandToOne, commandToOne] ∧
      run History.step (History.start ipOne (nodeWithIp ⟨[], by decide⟩) (CharArray.zero _) 0)
        (receiveLoop [commandToOne, commandToOne, commandToOne]) = some s ∧
      run History.step (History.start ipOne (nodeWithIp ⟨[], by decide⟩) (CharArray.zero _) 0)
        (receiveLoop (withoutControls ipOne [commandToOne, commandToOne, commandToOne])) =
          some s' ∧
      ¬ NonInterference ipOne [commandToOne, commandToOne, commandToOne] s s' ∧
      (ipTwo ∈ ipKeys s.detector.nodes ∧ ipTwo ∉ ipKeys s'.detector.nodes) ∧
      submittedLists s.trace ≠ submittedLists s'.trace ∧ publishing s.trace = true := by
  obtain ⟨s, hs⟩ := exists_run ipOne (nodeWithIp ⟨[], by decide⟩)
    (CharArray.zero _) 0 [commandToOne, commandToOne, commandToOne] rfl
  have hinv := run_loopInv hs
  have hready := Ready.start ipOne (nodeWithIp ⟨[], by decide⟩)
    (CharArray.zero _) 0
  have hjoined : ipTwo ∈ ipKeys s.detector.nodes :=
    (hinv.keys _).mpr (Or.inr ⟨commandToOne, List.mem_cons_self, readString [49], rfl, rfl⟩)
  have habsent : ipTwo ∉ ipKeys (History.start
      ipOne (nodeWithIp ⟨[], by decide⟩) (CharArray.zero _)
      0).detector.nodes := by
    intro hmem
    cases List.mem_singleton.mp hmem
  have hsubmitted : submittedLists s.trace ≠ [] := by
    obtain ⟨u, hstep, -⟩ := run_cons_eq_some.mp hs
    obtain ⟨-, -, events, timers, timers', htrace, hdo⟩ := hready.receive hstep
    rw [submittedLists_eq_listsSubmitted hready hs, listsSubmitted, hstep]
    have hjoins : Joins quietDetectorEnv _ commandToOne.2 :=
      ⟨ipTwo, ⟨readString [49], rfl, rfl⟩, habsent, rfl⟩
    rcases hdo.lists hready.wf with ⟨-, hlists⟩ | ⟨hjoins', -⟩
    · simp only [htrace, if_true, List.drop_left, hlists]
      exact List.append_ne_nil_of_right_ne_nil _ (List.cons_ne_nil _ _)
    · exact absurd hjoins hjoins'
  have hspeaker := hinv.publishing.mpr (show 3 ≠ 1 by omega)
  exact ⟨s, _, commandedBy_two _ fun p hp => Or.inr (by simpa using hp), hs, rfl,
    fun h => habsent ((h.keys _).mp hjoined), ⟨hjoined, habsent⟩, hsubmitted, hspeaker⟩

end FailureDetector
