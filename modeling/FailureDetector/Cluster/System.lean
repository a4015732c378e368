import FailureDetector.Cluster
import FailureDetector.Lib.OrderedLog

set_option relaxedAutoImplicit false
set_option autoImplicit false

/-!
# The cluster as a distributed system

Replicas run their detectors, Paxos decides values that they have submitted, and the replicas
deliver the decided values, all in any interleaving. Of Paxos nothing is assumed but that only
submitted values are decided and that all replicas deliver them in one order: a submitted value may
be lost, decided more than once, or overtaken by another one of the same replica.

Seen from the values this is a system of parties that read one log (`OrderedLog.Step`). What a
replica holds is the list of its view.

## Main definitions

* `FailureDetector.Cluster`, `FailureDetector.Cluster.step` — the replicas and the decided values.
* `FailureDetector.Cluster.toLog` — the cluster as parties that read one log.
* `FailureDetector.Cluster.Inv` — the invariant.

## Main results

* `FailureDetector.Cluster.step_sim` — every step is one of the parties that read the log.
* `FailureDetector.Cluster.run_inv` — the invariant holds after every run.
* `FailureDetector.Cluster.submitted_table` — a submitted value carries the table that its replica
  had at some time of the run.
-/

namespace FailureDetector

open CString Wire Runs

/-- The replicas `ι`, the values that have been decided with their replicas, and how many of them a
replica has delivered. -/
structure Cluster (ι : Type*) where
  nodes : ι → History
  decided : List (ι × Bytes)
  position : ι → ℕ

/-- The steps of the cluster. -/
inductive ClusterAction (ι : Type*)
  /-- The replica goes through one iteration of its receive loop. -/
  | receive (i : ι) (env : DetectorEnv) (input : Received)
  /-- A timer of the replica expires. -/
  | timeout (i : ι) (env : DetectorEnv) (timerId : ℕ) (ipAddress : IpString)
  /-- A value of the replica is decided. -/
  | decide (i : ι) (value : Bytes)
  /-- The replica delivers the next decided value. -/
  | deliver (i : ι) (env : PaxosEnv)

/-- The locks that the step uses are granted. -/
def ClusterAction.LocksSucceed {ι : Type*} : ClusterAction ι → Prop
  | .receive _ env _ => env.LocksSucceed
  | .timeout _ env _ _ => env.LocksSucceed
  | .decide _ _ => True
  | .deliver _ env => env.LocksSucceed

namespace History

variable {hostname : IpString} {s s' : History}

/-- What a submitted value carries, and what it writes at a node. -/
lemma Inv.written_submission (hinv : Inv hostname s) {value : Bytes}
    (hvalue : value ∈ submissions s.trace) :
    ∃ l, carries value = some (hostname.1, l) ∧ l ≠ [] ∧
      ∀ own : CStr, written own value = if hostname.1 = own then none else some l := by
  obtain ⟨views, hviews, -⟩ := hinv.views
  have hmem : carries value ∈ (submissions s.trace).map carries := List.mem_map_of_mem hvalue
  rw [hviews] at hmem
  obtain ⟨l, -, hl⟩ := List.mem_map.mp hmem
  obtain ⟨m, hm, heq⟩ := Option.map_eq_some_iff.mp hl.symm
  rw [Prod.mk.injEq] at heq
  obtain ⟨hsender, rfl⟩ := heq
  refine ⟨m.members, hl.symm, ?_, fun own => ?_⟩
  · exact List.ne_nil_of_mem (hinv.own value hvalue m hm).2
  · rw [written, hm, Option.bind_some, hsender]

/-- A delivery is always possible. It submits nothing and leaves the table alone. -/
lemma exists_step_deliver (s : History) (d : Delivery) :
    ∃ t, step s (.deliver d) = some t ∧ submissions t.trace = submissions s.trace ∧
      t.detector.nodes = s.detector.nodes := by
  obtain ⟨t, hrun, hsubmissions, hnodes⟩ := exists_delivered s [d]
  exact ⟨t, run_singleton.symm.trans hrun, hsubmissions, hnodes⟩

/-- A step submits nothing, or one value, which carries the table after the step. -/
lemma step_submissions (hinv : Inv hostname s) {a : Action} (hlocks : a.LocksSucceed)
    (hstep : step s a = some s') : ∃ values, submissions s'.trace = submissions s.trace ++ values ∧
      ∀ value ∈ values, carries value = some (hostname.1, membership s'.detector.nodes) := by
  obtain ⟨hinv', events, htrace, hmembership⟩ := step_spec hinv hlocks hstep
  refine ⟨submissions events, by rw [htrace, submissions_append], fun value hvalue => ?_⟩
  rcases hmembership.membership hinv.wf hinv'.wf with ⟨-, hnone, -⟩ | ⟨-, -, value', hone, uuid, hd⟩
  · rw [hnone] at hvalue
    cases hvalue
  · rw [hone, List.mem_singleton] at hvalue
    rw [hvalue, carries, hd, Option.map_some, hinv.currentNodeIp]

end History

namespace Cluster

variable {ι : Type*}

/-- The cluster when the receive loops start. -/
def start (hostname : ι → IpString) (unset : ι → NodeStruct) (currentNodeIp : ι → IpBuffer)
    (lastLogged : ι → ℚ) : Cluster ι where
  nodes i := History.start (hostname i) (unset i) (currentNodeIp i) (lastLogged i)
  decided := []
  position _ := 0

/-- The cluster as parties that read one log. -/
def toLog (s : Cluster ι) : OrderedLog.State ι Bytes where
  proposed i := submissions (s.nodes i).trace
  log := s.decided
  position := s.position

/-- The list that the replica `i` holds: its `paxos_state_array`. -/
def holds (s : Cluster ι) (i : ι) : List CStr :=
  (s.nodes i).detector.replica.paxosStateArray.items

/-- The invariant of the cluster. -/
structure Inv (hostname : ι → IpString) (s : Cluster ι) : Prop where
  nodes : ∀ i, History.Inv (hostname i) (s.nodes i)
  log : OrderedLog.Valid s.toLog
  /-- A replica holds the last list from another one that it has delivered. -/
  items : ∀ i, s.holds i =
    Register.value (fun e => written (hostname i).1 e.2) [] (s.toLog.hasRead i)

/-- The invariant holds when the receive loops start. -/
lemma start_inv (hostname : ι → IpString) (unset : ι → NodeStruct) (currentNodeIp : ι → IpBuffer)
    (lastLogged : ι → ℚ) : Inv hostname (start hostname unset currentNodeIp lastLogged) :=
  ⟨fun i => History.start_inv (hostname i) (unset i) (currentNodeIp i) (lastLogged i),
    ⟨fun _ => Nat.le_refl 0, fun _ he => absurd he List.not_mem_nil⟩, fun _ => rfl⟩

variable [DecidableEq ι]

/-- The replica `i` takes a step of its own. -/
def stepNode (s : Cluster ι) (i : ι) (a : Action) : Option (Cluster ι) :=
  (History.step (s.nodes i) a).map fun t => { s with nodes := Function.update s.nodes i t }

/-- One step. Paxos numbers the decided values from `1` on. -/
def step (s : Cluster ι) : ClusterAction ι → Option (Cluster ι)
  | .receive i env input => s.stepNode i (.receive env input)
  | .timeout i env timerId ipAddress => s.stepNode i (.timeout env timerId ipAddress)
  | .decide i value =>
    if value ∈ submissions (s.nodes i).trace then
      some { s with decided := s.decided ++ [(i, value)] }
    else none
  | .deliver i env =>
    match s.decided[s.position i]? with
    | none => none
    | some (_, value) =>
      (s.stepNode i (.deliver ⟨env, s.position i + 1, value⟩)).map fun t =>
        { t with position := Function.update s.position i (s.position i + 1) }

variable {hostname : ι → IpString} {s s' : Cluster ι} {a : ClusterAction ι}
  {actions : List (ClusterAction ι)} {unset : ι → NodeStruct} {currentNodeIp : ι → IpBuffer}
  {lastLogged : ι → ℚ}

/-! ### Steps -/

/-- What a step of one replica does. -/
lemma stepNode_eq_some {i : ι} {b : Action} (h : s.stepNode i b = some s') :
    ∃ t, History.step (s.nodes i) b = some t ∧
      s' = { s with nodes := Function.update s.nodes i t } := by
  obtain ⟨t, ht, heq⟩ := Option.map_eq_some_iff.mp h
  exact ⟨t, ht, heq.symm⟩

/-- A step that a replica can take, in the cluster. -/
lemma stepNode_of_step {i : ι} {b : Action} {t : History}
    (h : History.step (s.nodes i) b = some t) :
    s.stepNode i b = some { s with nodes := Function.update s.nodes i t } := by
  rw [stepNode, h, Option.map_some]

/-- The proposals after a replica has gone from one state to another. -/
lemma proposed_update (s : Cluster ι) (i : ι) {t : History} {values : List Bytes}
    (h : submissions t.trace = submissions (s.nodes i).trace ++ values) :
    (fun j => submissions (Function.update s.nodes i t j).trace) =
      Function.update s.toLog.proposed i (s.toLog.proposed i ++ values) := by
  funext j
  by_cases hj : j = i
  · subst hj
    simp only [Function.update_self, h, toLog]
  · simp only [Function.update_of_ne hj, toLog]

/-- A step of one replica, seen from the values. -/
lemma stepNode_sim (hinv : Inv hostname s) {i : ι} {b : Action} (hlocks : b.LocksSucceed)
    (hstep : s.stepNode i b = some s') : OrderedLog.Step s.toLog s'.toLog := by
  obtain ⟨t, ht, rfl⟩ := stepNode_eq_some hstep
  obtain ⟨values, hvalues, -⟩ := History.step_submissions (hinv.nodes i) hlocks ht
  have hpropose := OrderedLog.Step.propose (s := s.toLog) i values
  rwa [← proposed_update s i hvalues] at hpropose

/-- **Every step is one of the parties that read the log.** -/
lemma step_sim (hinv : Inv hostname s) (hlocks : a.LocksSucceed) (hstep : s.step a = some s') :
    OrderedLog.Step s.toLog s'.toLog := by
  cases a with
  | receive i env input =>
    exact stepNode_sim hinv (show Action.LocksSucceed (.receive env input) from hlocks) hstep
  | timeout i env timerId ip =>
    exact stepNode_sim hinv (show Action.LocksSucceed (.timeout env timerId ip) from hlocks) hstep
  | decide i value =>
    rw [step] at hstep
    split at hstep
    · next hvalue =>
      cases hstep
      exact .decide i value hvalue
    · cases hstep
  | deliver i env =>
    rw [step] at hstep
    split at hstep
    · cases hstep
    · next j value hvalue =>
      obtain ⟨t, ht, rfl⟩ := Option.map_eq_some_iff.mp hstep
      obtain ⟨u, hu, rfl⟩ := stepNode_eq_some ht
      obtain ⟨u', hu', hsame, -⟩ := History.exists_step_deliver (s.nodes i)
        ⟨env, s.position i + 1, value⟩
      obtain rfl := Option.some.inj (hu.symm.trans hu')
      have hproposed := proposed_update s i (hsame.trans (List.append_nil _).symm)
      rw [List.append_nil, Function.update_eq_self] at hproposed
      have hread := OrderedLog.Step.read (s := s.toLog) i (List.getElem?_eq_some_iff.mp hvalue).1
      rwa [← hproposed] at hread

/-- A step of one replica changes what this replica holds as its deliveries say, and leaves the
others alone. -/
lemma stepNode_spec (hinv : Inv hostname s) {i : ι} {b : Action} (hlocks : b.LocksSucceed)
    (hne : ∀ p ∈ delivered [b], written (hostname i).1 p.2 ≠ some [])
    (hstep : s.stepNode i b = some s') :
    (∀ j, History.Inv (hostname j) (s'.nodes j)) ∧
      s'.holds i =
        Register.value (fun p => written (hostname i).1 p.2) (s.holds i) (delivered [b]) ∧
      ∀ j, j ≠ i → s'.holds j = s.holds j := by
  obtain ⟨t, ht, rfl⟩ := stepNode_eq_some hstep
  have hitems := History.step_items (hinv.nodes i) hlocks hne ht
  refine ⟨fun j => ?_, ?_, fun j hj => ?_⟩
  · dsimp only
    by_cases hj : j = i
    · subst hj
      rw [Function.update_self]
      exact (History.step_spec (hinv.nodes j) hlocks ht).1
    · rw [Function.update_of_ne hj]
      exact hinv.nodes j
  · rw [holds]
    dsimp only
    rw [Function.update_self]
    exact hitems
  · rw [holds, holds]
    dsimp only
    rw [Function.update_of_ne hj]

/-- A step of one replica that delivers nothing keeps the invariant. -/
lemma stepNode_inv (hinv : Inv hostname s) {i : ι} {b : Action} (hlocks : b.LocksSucceed)
    (hb : delivered [b] = []) (hstep : s.stepNode i b = some s') : Inv hostname s' := by
  have hne : ∀ p ∈ delivered [b], written (hostname i).1 p.2 ≠ some [] := by
    rw [hb]
    exact fun _ h => absurd h List.not_mem_nil
  obtain ⟨hnodes, hself, hothers⟩ := stepNode_spec hinv hlocks hne hstep
  have hlog := (stepNode_sim hinv hlocks hstep).valid hinv.log
  refine ⟨hnodes, hlog, fun j => ?_⟩
  have hread : s'.toLog.hasRead j = s.toLog.hasRead j := by
    obtain ⟨t, -, rfl⟩ := stepNode_eq_some hstep
    rfl
  rw [hread, ← hinv.items j]
  by_cases hj : j = i
  · subst hj
    rw [hb] at hself
    exact hself
  · exact hothers j hj

/-- What a step does to a replica: one of its own steps, or nothing. -/
lemma step_node (hlocks : a.LocksSucceed) (hstep : s.step a = some s') (i : ι) :
    (∃ b, b.LocksSucceed ∧ History.step (s.nodes i) b = some (s'.nodes i)) ∨
      s'.nodes i = s.nodes i := by
  have hnode : ∀ (j : ι) (b : Action) (t : Cluster ι), b.LocksSucceed → s.stepNode j b = some t →
      (∃ b, b.LocksSucceed ∧ History.step (s.nodes i) b = some (t.nodes i)) ∨
        t.nodes i = s.nodes i := by
    intro j b t hb ht
    obtain ⟨u, hu, rfl⟩ := stepNode_eq_some ht
    dsimp only
    by_cases hi : i = j
    · subst hi
      rw [Function.update_self]
      exact Or.inl ⟨b, hb, hu⟩
    · rw [Function.update_of_ne hi]
      exact Or.inr rfl
  cases a with
  | receive j env input => exact hnode j (.receive env input) s' hlocks hstep
  | timeout j env timerId ip => exact hnode j (.timeout env timerId ip) s' hlocks hstep
  | decide j value =>
    rw [step] at hstep
    split at hstep
    · cases hstep
      exact Or.inr rfl
    · cases hstep
  | deliver j env =>
    rw [step] at hstep
    split at hstep
    · cases hstep
    · next value _ =>
      obtain ⟨t, ht, rfl⟩ := Option.map_eq_some_iff.mp hstep
      exact hnode j (.deliver ⟨env, s.position j + 1, value⟩) t hlocks ht

/-- **Every step keeps the invariant.** -/
lemma Inv.step (hinv : Inv hostname s) (hlocks : a.LocksSucceed) (hstep : s.step a = some s') :
    Inv hostname s' := by
  have hsim := step_sim hinv hlocks hstep
  cases a with
  | receive i env input =>
    exact stepNode_inv hinv (show Action.LocksSucceed (.receive env input) from hlocks) rfl hstep
  | timeout i env timerId ip =>
    exact stepNode_inv hinv (show Action.LocksSucceed (.timeout env timerId ip) from hlocks) rfl
      hstep
  | decide i value =>
    have hlog := hsim.valid hinv.log
    rw [Cluster.step] at hstep
    split at hstep
    · cases hstep
      refine ⟨hinv.nodes, hlog, fun j => ?_⟩
      rw [← hinv.log.hasRead_eq hsim.log_extends rfl]
      exact hinv.items j
    · cases hstep
  | deliver i env =>
    have hlog := hsim.valid hinv.log
    rw [Cluster.step] at hstep
    split at hstep
    · cases hstep
    · next k value hvalue =>
      obtain ⟨t, ht, rfl⟩ := Option.map_eq_some_iff.mp hstep
      obtain ⟨hlt, hget⟩ := List.getElem?_eq_some_iff.mp hvalue
      have hproposed : value ∈ submissions (s.nodes k).trace := by
        have hmem := hinv.log.proposed (k, value) (hget ▸ List.getElem_mem hlt)
        exact hmem
      obtain ⟨l, -, hl, hwritten⟩ := (hinv.nodes k).written_submission hproposed
      have hne : ∀ p ∈ delivered [.deliver ⟨env, s.position i + 1, value⟩],
          written (hostname i).1 p.2 ≠ some [] := by
        intro p hp
        rw [List.mem_singleton.mp hp, hwritten]
        split
        · rintro ⟨⟩
        · simpa using hl
      obtain ⟨hnodes, hself, hothers⟩ := stepNode_spec hinv
        (show Action.LocksSucceed (.deliver ⟨env, s.position i + 1, value⟩) from hlocks) hne ht
      refine ⟨hnodes, hlog, fun j => ?_⟩
      have hdecided : t.decided = s.decided := by
        obtain ⟨u, -, rfl⟩ := stepNode_eq_some ht
        rfl
      by_cases hj : j = i
      · subst hj
        have hread : OrderedLog.State.hasRead
            (toLog { t with position := Function.update s.position j (s.position j + 1) }) j =
              s.toLog.hasRead j ++ [(k, value)] := by
          show t.decided.take (Function.update s.position j (s.position j + 1) j) = _
          rw [Function.update_self, hdecided, ← List.take_concat_get' _ _ hlt, hget]
          rfl
        rw [hread, Register.value_append, ← hinv.items j]
        exact hself
      · have hread : OrderedLog.State.hasRead
            (toLog { t with position := Function.update s.position i (s.position i + 1) }) j =
              s.toLog.hasRead j := by
          show t.decided.take (Function.update s.position i (s.position i + 1) j) = _
          rw [Function.update_of_ne hj, hdecided]
          rfl
        rw [hread, ← hinv.items j]
        exact hothers j hj

/-- **The invariant holds after every run.** -/
lemma run_inv (hlocks : ∀ a ∈ actions, a.LocksSucceed)
    (hrun : run step (start hostname unset currentNodeIp lastLogged) actions = some s) :
    Inv hostname s :=
  run_invariant (Inv hostname) (fun _ _ _ hinv hok hstep => hinv.step hok hstep)
    (start_inv hostname unset currentNodeIp lastLogged) hlocks hrun

/-! ### What a replica holds -/

/-- An entry of the log, as its reader sees it. -/
lemma Inv.written_of_mem (hinv : Inv hostname s) (hinj : Function.Injective hostname)
    {e : ι × Bytes}
    (he : e ∈ s.decided) : ∃ l, carries e.2 = some ((hostname e.1).1, l) ∧
      ∀ i, written (hostname i).1 e.2 = if e.1 = i then none else some l := by
  have hproposed : e.2 ∈ submissions (s.nodes e.1).trace := hinv.log.proposed e he
  obtain ⟨l, hl, -, hwritten⟩ := (hinv.nodes e.1).written_submission hproposed
  refine ⟨l, hl, fun i => ?_⟩
  rw [hwritten]
  by_cases hi : e.1 = i
  · rw [if_pos hi, if_pos (congrArg (fun k => (hostname k).1) hi)]
  · rw [if_neg hi, if_neg fun heq => hi (hinj (Subtype.ext heq))]

/-- **A replica holds the list of its view**, and nothing if it has no view. -/
lemma Inv.holds_eq (hinv : Inv hostname s) (hinj : Function.Injective hostname) (i : ι) :
    (s.toLog.view i = none → s.holds i = []) ∧ ∀ e, s.toLog.view i = some e →
      carries e.2 = some ((hostname e.1).1, s.holds i) := by
  have hown : ∀ e ∈ s.toLog.hasRead i, decide (e.1 ≠ i) = false →
      written (hostname i).1 e.2 = none := by
    intro e he hi
    obtain ⟨l, -, hwritten⟩ := hinv.written_of_mem hinj (List.mem_of_mem_take he)
    rw [hwritten, if_pos (by simpa using hi)]
  refine ⟨fun hview => ?_, fun e hview => ?_⟩
  · have hfilter : (s.toLog.hasRead i).filter (·.1 ≠ i) = [] := List.getLast?_eq_none_iff.mp hview
    have hnone : (s.toLog.hasRead i).filterMap (fun e => written (hostname i).1 e.2) = [] := by
      rw [List.filterMap_eq_nil_iff]
      intro e he
      exact hown e he (by simpa using List.filter_eq_nil_iff.mp hfilter e he)
    rw [hinv.items, Register.value, hnone]
    rfl
  · obtain ⟨hmem, hne⟩ := OrderedLog.mem_of_lastOther hview
    obtain ⟨l, hl, hwritten⟩ := hinv.written_of_mem hinj (List.mem_of_mem_take hmem)
    have hvalue : Register.value (fun e => written (hostname i).1 e.2) [] (s.toLog.hasRead i) = l :=
      Register.value_eq_of_getLast_filter _ hview ((hwritten i).trans (if_neg hne)) hown
    rw [hinv.items, hvalue, hl]

/-- **A submitted value carries the table that its replica had at some time of the run.** -/
lemma submitted_table (hlocks : ∀ a ∈ actions, a.LocksSucceed)
    (hrun : run step (start hostname unset currentNodeIp lastLogged) actions = some s) {i : ι}
    {value : Bytes} (hvalue : value ∈ submissions (s.nodes i).trace) :
    ∃ pre post t, actions = pre ++ post ∧
      run step (start hostname unset currentNodeIp lastLogged) pre = some t ∧
      carries value = some ((hostname i).1, membership (t.nodes i).detector.nodes) := by
  induction actions using List.reverseRecOn generalizing s with
  | nil =>
    cases hrun
    cases hvalue
  | append_singleton actions a ih =>
    obtain ⟨t, ht, hstep⟩ := run_concat_eq_some.mp hrun
    have hactions : ∀ b ∈ actions, b.LocksSucceed :=
      fun b hb => hlocks b (List.mem_append_left _ hb)
    have ha : a.LocksSucceed := hlocks a (List.mem_append_right _ (List.mem_singleton.mpr rfl))
    have hold : value ∈ submissions (t.nodes i).trace → ∃ pre post u, actions ++ [a] = pre ++ post ∧
        run step (start hostname unset currentNodeIp lastLogged) pre = some u ∧
        carries value = some ((hostname i).1, membership (u.nodes i).detector.nodes) := by
      intro hmem
      obtain ⟨pre, post, u, rfl, hu, hcarries⟩ := ih hactions ht hmem
      exact ⟨pre, post ++ [a], u, List.append_assoc _ _ _, hu, hcarries⟩
    rcases step_node ha hstep i with ⟨b, hb, hnode⟩ | hsame
    · obtain ⟨values, hvalues, hcarries⟩ :=
        History.step_submissions ((run_inv hactions ht).nodes i) hb hnode
      rw [hvalues] at hvalue
      rcases List.mem_append.mp hvalue with hmem | hmem
      · exact hold hmem
      · exact ⟨actions ++ [a], [], s, (List.append_nil _).symm, hrun, hcarries value hmem⟩
    · exact hold (hsame ▸ hvalue)

end Cluster

end FailureDetector
