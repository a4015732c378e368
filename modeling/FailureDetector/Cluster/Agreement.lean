import FailureDetector.Cluster.System

set_option relaxedAutoImplicit false
set_option autoImplicit false

/-!
# Agreement in the cluster

What the replicas hold, in every state that the cluster reaches with all locks granted. A replica
holds nothing, or a table that another replica had at some time. Two replicas that have delivered
equally many values hold the same list, at whatever times they do, unless one of them has sent the
last value. And the cluster can always be brought to agree on a table that two replicas have: it is
enough that Paxos decides the last value of each, and that the values are delivered.

## Main results

* `FailureDetector.replica_holds_past_table` — validity.
* `FailureDetector.replicas_agree` — agreement.
* `FailureDetector.cluster_can_converge` — convergence is possible from every reachable state.
-/

namespace FailureDetector

open CString Wire Runs

namespace Cluster

variable {ι : Type*} {hostname : ι → IpString} {s t : Cluster ι}

/-! ### A state without detections -/

/-- Nothing has been detected, submitted or decided in between. -/
structure SameTables (s t : Cluster ι) : Prop where
  decided : t.decided = s.decided
  submissions : ∀ i, submissions (t.nodes i).trace = submissions (s.nodes i).trace
  nodes : ∀ i, (t.nodes i).detector.nodes = (s.nodes i).detector.nodes

/-- The same state. -/
lemma SameTables.refl (s : Cluster ι) : SameTables s s := ⟨rfl, fun _ => rfl, fun _ => rfl⟩

/-- One time after the other. -/
lemma SameTables.trans {u : Cluster ι} (h : SameTables s t) (h' : SameTables t u) :
    SameTables s u :=
  ⟨h'.decided.trans h.decided, fun i => (h'.submissions i).trans (h.submissions i),
    fun i => (h'.nodes i).trans (h.nodes i)⟩

variable [DecidableEq ι]

/-- A replica that has not delivered all decided values can deliver the next one. -/
lemma exists_step_deliver {i : ι} (hlt : s.position i < s.decided.length) (env : PaxosEnv) :
    ∃ t, s.step (.deliver i env) = some t ∧ SameTables s t ∧
      t.position = Function.update s.position i (s.position i + 1) := by
  have hget := List.getElem?_eq_getElem hlt
  obtain ⟨u, hu, hsubmissions, hnodes⟩ := History.exists_step_deliver (s.nodes i)
    ⟨env, s.position i + 1, (s.decided[s.position i]).2⟩
  refine ⟨⟨Function.update s.nodes i u, s.decided,
    Function.update s.position i (s.position i + 1)⟩, ?_, ⟨rfl, fun j => ?_, fun j => ?_⟩, rfl⟩
  · rw [step, hget]
    dsimp only
    rw [stepNode, hu]
    rfl
  · dsimp only
    by_cases hj : j = i
    · rw [hj, Function.update_self, hsubmissions]
    · rw [Function.update_of_ne hj]
  · dsimp only
    by_cases hj : j = i
    · rw [hj, Function.update_self, hnodes]
    · rw [Function.update_of_ne hj]

/-- The action delivers a value, and the locks are granted. -/
def Delivers (a : ClusterAction ι) : Prop := ∃ i, a = .deliver i quietEnv

/-- A replica can deliver all decided values. -/
lemma exists_caught_up (i : ι) (hle : s.position i ≤ s.decided.length) :
    ∃ later t, (∀ a ∈ later, Delivers a) ∧ run step s later = some t ∧ SameTables s t ∧
      t.position i = t.decided.length ∧ ∀ j, j ≠ i → t.position j = s.position j := by
  obtain ⟨n, hn⟩ := Nat.exists_eq_add_of_le hle
  induction n generalizing s with
  | zero =>
    exact ⟨[], s, fun _ h => absurd h List.not_mem_nil, rfl, .refl s, by omega, fun _ _ => rfl⟩
  | succ n ih =>
    have hlt : s.position i < s.decided.length := by omega
    obtain ⟨u, hu, hsame, hposition⟩ := exists_step_deliver hlt quietEnv
    have hnext : u.position i = s.position i + 1 := by rw [hposition, Function.update_self]
    have hlength := congrArg List.length hsame.decided
    obtain ⟨later, t, hlater, hrun, hsame', hdone, hothers⟩ := ih (s := u) (by omega) (by omega)
    refine ⟨.deliver i quietEnv :: later, t, fun a ha => ?_, run_cons_eq_some.mpr ⟨u, hu, hrun⟩,
      hsame.trans hsame', hdone, fun j hj => ?_⟩
    · rcases List.mem_cons.mp ha with rfl | ha
      · exact ⟨i, rfl⟩
      · exact hlater a ha
    · rw [hothers j hj, hposition, Function.update_of_ne hj]

/-- Any replicas can deliver all decided values. -/
lemma exists_all_caught_up (is : List ι) (hle : ∀ i, s.position i ≤ s.decided.length) :
    ∃ later t, (∀ a ∈ later, Delivers a) ∧ run step s later = some t ∧ SameTables s t ∧
      ∀ i, t.position i ≤ t.decided.length ∧ (i ∈ is → t.position i = t.decided.length) := by
  induction is with
  | nil =>
    exact ⟨[], s, fun _ h => absurd h List.not_mem_nil, rfl, .refl s,
      fun i => ⟨hle i, fun h => absurd h List.not_mem_nil⟩⟩
  | cons i is ih =>
    obtain ⟨later, u, hlater, hrun, hsame, hposition⟩ := ih
    obtain ⟨later', t, hlater', hrun', hsame', hdone, hothers⟩ :=
      exists_caught_up i (hposition i).1
    refine ⟨later ++ later', t, fun a ha => ?_, run_append_eq_some.mpr ⟨u, hrun, hrun'⟩,
      hsame.trans hsame', fun j => ?_⟩
    · rcases List.mem_append.mp ha with ha | ha
      · exact hlater a ha
      · exact hlater' a ha
    · by_cases hj : j = i
      · subst hj
        exact ⟨hdone.le, fun _ => hdone⟩
      · rw [hothers j hj, hsame'.decided]
        refine ⟨(hposition j).1, fun hmem => (hposition j).2 ?_⟩
        exact (List.mem_cons.mp hmem).resolve_left hj

/-- A replica whose view is the last submission of another one holds the table of that one. -/
lemma holds_of_last (hinv : Inv hostname s) (hinj : Function.Injective hostname) {i : ι}
    {e : ι × Bytes} (hview : s.toLog.view i = some e)
    (hlast : (submissions (s.nodes e.1).trace).getLast? = some e.2) :
    s.holds i = membership (s.nodes e.1).detector.nodes := by
  have hcarries := (hinv.holds_eq hinj i).2 e hview
  obtain ⟨m, hm, -, hmembers⟩ := History.last_submission (hinv.nodes e.1) hlast
  rw [carries, hm, Option.map_some, Option.some.injEq, Prod.mk.injEq] at hcarries
  rw [← hcarries.2, hmembers]

/-- If the last two values that a replica has delivered are the last submissions of two replicas, it
holds the table of one of these. -/
lemma holds_of_last_two (hinv : Inv hostname s) (hinj : Function.Injective hostname) {i j k : ι}
    {vj vk : Bytes} {log : List (ι × Bytes)} (hjk : j ≠ k)
    (hread : s.toLog.hasRead i = log ++ [(j, vj)] ++ [(k, vk)])
    (hj : (submissions (s.nodes j).trace).getLast? = some vj)
    (hk : (submissions (s.nodes k).trace).getLast? = some vk) :
    ∃ l, (l = j ∨ l = k) ∧ s.holds i = membership (s.nodes l).detector.nodes := by
  by_cases hki : k = i
  · have hview : s.toLog.view i = some (j, vj) := by
      rw [OrderedLog.State.view, hread, OrderedLog.lastOther_concat, if_pos hki,
        OrderedLog.lastOther_concat, if_neg (hki ▸ hjk)]
    exact ⟨j, Or.inl rfl, holds_of_last hinv hinj hview hj⟩
  · have hview : s.toLog.view i = some (k, vk) := by
      rw [OrderedLog.State.view, hread, OrderedLog.lastOther_concat, if_neg hki]
    exact ⟨k, Or.inr rfl, holds_of_last hinv hinj hview hk⟩

/-! ### Three replicas -/

/-- The addresses of three replicas. -/
def threeHosts : Fin 3 → IpString
  | 0 => ipOne
  | 1 => ipTwo
  | 2 => ipThree

/-- Three replicas that have not heard from each other. -/
def threeReplicas : Cluster (Fin 3) :=
  start threeHosts (fun _ => nodeWithIp ⟨[], by decide⟩) (fun _ => CharArray.zero _) fun _ => 0

/-- The first two replicas hear from each other. -/
def heardActions : List (ClusterAction (Fin 3)) :=
  [.receive 0 quietDetectorEnv (.beacon ipTwo []), .receive 1 quietDetectorEnv (.beacon ipOne [])]

/-- The first two replicas have heard from each other, and have submitted the table of both. -/
lemma exists_heard : ∃ s : Cluster (Fin 3), run step threeReplicas heardActions = some s ∧
    s.decided = [] ∧ s.position = (fun _ => 0) ∧ submissions (s.nodes 0).trace ≠ [] ∧
    submissions (s.nodes 1).trace ≠ [] ∧
    (∀ ip, ip ∈ ipKeys (s.nodes 0).detector.nodes ↔ ip ∈ ({ipOne, ipTwo} : Set IpString)) ∧
    ∀ ip, ip ∈ ipKeys (s.nodes 1).detector.nodes ↔ ip ∈ ({ipOne, ipTwo} : Set IpString) := by
  obtain ⟨t₀, v₀, hrun₀, hsubmissions₀, hkeys₀⟩ := History.exists_joined
    (show ipTwo ≠ threeHosts 0 by decide) (nodeWithIp ⟨[], by decide⟩) (CharArray.zero _) 0
  obtain ⟨t₁, v₁, hrun₁, hsubmissions₁, hkeys₁⟩ := History.exists_joined
    (show ipOne ≠ threeHosts 1 by decide) (nodeWithIp ⟨[], by decide⟩) (CharArray.zero _) 0
  rw [run_singleton] at hrun₀ hrun₁
  set s₀ : Cluster (Fin 3) :=
    { threeReplicas with nodes := Function.update threeReplicas.nodes 0 t₀ } with hs₀
  have hstep₀ : threeReplicas.step (.receive 0 quietDetectorEnv (.beacon ipTwo [])) = some s₀ :=
    stepNode_of_step hrun₀
  have hstep₁ : s₀.step (.receive 1 quietDetectorEnv (.beacon ipOne [])) =
      some { s₀ with nodes := Function.update s₀.nodes 1 t₁ } :=
    stepNode_of_step hrun₁
  refine ⟨_, run_cons_eq_some.mpr ⟨s₀, hstep₀, run_singleton.trans hstep₁⟩, rfl, rfl, ?_, ?_,
    fun ip => ?_, fun ip => ?_⟩
  · show submissions t₀.trace ≠ []
    rw [hsubmissions₀]
    exact List.cons_ne_nil _ _
  · show submissions t₁.trace ≠ []
    rw [hsubmissions₁]
    exact List.cons_ne_nil _ _
  · show ip ∈ ipKeys t₀.detector.nodes ↔ _
    rw [hkeys₀, or_comm]
    rfl
  · show ip ∈ ipKeys t₁.detector.nodes ↔ _
    rw [hkeys₁]
    rfl

/-- The locks of the two replicas are granted. -/
lemma locks_heardActions : ∀ a ∈ heardActions, a.LocksSucceed := by
  intro a ha
  simp only [heardActions, List.mem_cons, List.not_mem_nil, or_false] at ha
  rcases ha with rfl | rfl
  · exact quietEnv_locks
  · exact quietEnv_locks

/-- The others have delivered the value of the first replica. -/
lemma exists_first_delivered : ∃ (actions : List (ClusterAction (Fin 3))) (s : Cluster (Fin 3))
    (value : Bytes), (∀ a ∈ actions, a.LocksSucceed) ∧ run step threeReplicas actions = some s ∧
      s.decided = [(0, value)] ∧ s.position 1 = 1 ∧ s.position 2 = 1 := by
  obtain ⟨s, hrun, hdecided, hposition, hsubmitted, -⟩ := exists_heard
  obtain ⟨value, hvalue⟩ := List.exists_mem_of_ne_nil _ hsubmitted
  set u : Cluster (Fin 3) := { s with decided := s.decided ++ [(0, value)] } with hu
  have hdecide : s.step (.decide 0 value) = some u := if_pos hvalue
  obtain ⟨later, t, hlater, hrun', hsame, hdone⟩ := exists_all_caught_up (s := u) [1, 2] (by
    intro i
    simp [hu, hposition])
  have hlength : t.decided.length = 1 := by
    rw [hsame.decided]
    simp [hu, hdecided]
  refine ⟨heardActions ++ (.decide 0 value :: later), t, value, fun a ha => ?_, ?_, ?_, ?_, ?_⟩
  · rcases List.mem_append.mp ha with ha | ha
    · exact locks_heardActions a ha
    · rcases List.mem_cons.mp ha with rfl | ha
      · trivial
      · obtain ⟨i, rfl⟩ := hlater a ha
        exact quietEnv_locks
  · exact run_append_eq_some.mpr ⟨s, hrun, run_cons_eq_some.mpr ⟨u, hdecide, hrun'⟩⟩
  · rw [hsame.decided]
    simp [hu, hdecided]
  · rw [(hdone 1).2 (by simp), hlength]
  · rw [(hdone 2).2 (by simp), hlength]

end Cluster

variable {ι : Type*} [DecidableEq ι]

/-- **Validity.** In every state that the cluster reaches with all locks granted, a replica that has
delivered no value of another one holds the empty list. Any other replica holds, in strictly
descending order, the table that the sender of the last such value had at some time of the run. -/
theorem replica_holds_past_table (hostname : ι → IpString) (hinj : Function.Injective hostname)
    (unset : ι → NodeStruct) (currentNodeIp : ι → IpBuffer) (lastLogged : ι → ℚ)
    (actions : List (ClusterAction ι)) (hlocks : ∀ a ∈ actions, a.LocksSucceed) (s : Cluster ι)
    (hrun : run Cluster.step (Cluster.start hostname unset currentNodeIp lastLogged) actions =
      some s)
    (i : ι) :
    ((∀ e ∈ s.decided.take (s.position i), e.1 = i) ∧ s.holds i = []) ∨
      ∃ j value pre post t, j ≠ i ∧
        ((s.decided.take (s.position i)).filter (·.1 ≠ i)).getLast? = some (j, value) ∧
        actions = pre ++ post ∧
        run Cluster.step (Cluster.start hostname unset currentNodeIp lastLogged) pre = some t ∧
        Descending (s.holds i) ∧
        ∀ c, c ∈ s.holds i ↔ ∃ ip ∈ ipKeys (t.nodes j).detector.nodes, ip.1 = c := by
  have hinv := Cluster.run_inv hlocks hrun
  obtain ⟨hempty, hholds⟩ := hinv.holds_eq hinj i
  cases hview : s.toLog.view i with
  | none =>
    refine Or.inl ⟨fun e he => ?_, hempty hview⟩
    have hfilter := List.filter_eq_nil_iff.mp (List.getLast?_eq_none_iff.mp hview) e he
    simpa using hfilter
  | some e =>
    obtain ⟨hmem, hne⟩ := OrderedLog.mem_of_lastOther hview
    have hsubmitted : e.2 ∈ submissions (s.nodes e.1).trace :=
      hinv.log.proposed e (List.mem_of_mem_take hmem)
    obtain ⟨pre, post, t, hactions, ht, hcarries⟩ :=
      Cluster.submitted_table hlocks hrun hsubmitted
    have htable : s.holds i = membership (t.nodes e.1).detector.nodes := by
      have heq := (hholds e hview).symm.trans hcarries
      rw [Option.some.injEq, Prod.mk.injEq] at heq
      exact heq.2
    have hpre : ∀ a ∈ pre, a.LocksSucceed := fun a ha =>
      hlocks a (hactions ▸ List.mem_append_left _ ha)
    refine Or.inr ⟨e.1, e.2, pre, post, t, hne, hview, hactions, ht, ?_, fun c => ?_⟩
    · rw [htable]
      exact membership_descending ((Cluster.run_inv hpre ht).nodes e.1).wf.nodup
    · rw [htable, mem_membership]

/-- The last replica holds a table that the first one had. -/
theorem replica_holds_past_table_three :
    ∃ (s : Cluster (Fin 3)) (value : Bytes) (pre : List (ClusterAction (Fin 3)))
      (t : Cluster (Fin 3)),
      s.decided = [(0, value)] ∧ run Cluster.step Cluster.threeReplicas pre = some t ∧
      ∀ c, c ∈ s.holds 2 ↔ ∃ ip ∈ ipKeys (t.nodes 0).detector.nodes, ip.1 = c := by
  have hinj : Function.Injective Cluster.threeHosts := by decide
  obtain ⟨actions, s, value, hlocks, hrun, hdecided, -, hposition⟩ := Cluster.exists_first_delivered
  rcases replica_holds_past_table Cluster.threeHosts hinj _ _ _ actions hlocks s hrun 2 with
    ⟨hown, -⟩ | ⟨j, value', pre, post, t, -, hlast, -, ht, -, hmem⟩
  · have hzero := hown (0, value) (by rw [hdecided, hposition]; exact List.mem_singleton.mpr rfl)
    cases hzero
  · rw [hdecided, hposition] at hlast
    cases hlast
    exact ⟨s, value, pre, t, hdecided, ht, hmem⟩

/-- **Agreement.** At any two times of a run of the cluster in which all locks are granted, two
replicas that have delivered equally many values hold the same list, unless one of them has sent
the last of these values.

**Proof sketch.** The replicas have delivered the same values (`OrderedLog.Valid.hasRead_eq`), and
the last one is the view of both. -/
theorem replicas_agree (hostname : ι → IpString) (hinj : Function.Injective hostname)
    (unset : ι → NodeStruct) (currentNodeIp : ι → IpBuffer) (lastLogged : ι → ℚ)
    (actions later : List (ClusterAction ι)) (hlocks : ∀ a ∈ actions ++ later, a.LocksSucceed)
    (s t : Cluster ι)
    (hrun : run Cluster.step (Cluster.start hostname unset currentNodeIp lastLogged) actions =
      some s)
    (hlater : run Cluster.step s later = some t) (i j : ι) (hposition : s.position i = t.position j)
    (hlast : ∀ e, (s.decided.take (s.position i)).getLast? = some e → e.1 ≠ i ∧ e.1 ≠ j) :
    s.holds i = t.holds j := by
  have hactions : ∀ a ∈ actions, a.LocksSucceed := fun a ha => hlocks a (List.mem_append_left _ ha)
  have hinv := Cluster.run_inv hactions hrun
  have hinv' := Cluster.run_inv hlocks (run_append_eq_some.mpr ⟨s, hrun, hlater⟩)
  have hread : s.toLog.hasRead i = t.toLog.hasRead j := by
    refine hinv.log.hasRead_eq ?_ hposition
    have hlog := run_invariant (fun u => Cluster.Inv hostname u ∧ s.toLog.log <+: u.toLog.log)
      (fun u a u' ⟨hu, hextends⟩ ha hstep => ⟨hu.step ha hstep,
        hextends.trans (Cluster.step_sim hu ha hstep).log_extends⟩)
      ⟨hinv, List.prefix_refl _⟩ (fun a ha => hlocks a (List.mem_append_right _ ha)) hlater
    exact hlog.2
  have hview : s.toLog.view i = t.toLog.view j := by
    rw [OrderedLog.State.view, OrderedLog.State.view, ← hread]
    rcases List.eq_nil_or_concat (s.toLog.hasRead i) with hnil | ⟨log, e, hconcat⟩
    · rw [hnil]
      rfl
    · rw [List.concat_eq_append] at hconcat
      obtain ⟨hi, hj⟩ := hlast e (by rw [← List.getLast?_concat, ← hconcat]; rfl)
      rw [hconcat]
      exact OrderedLog.lastOther_eq_of_ne hi hj
  obtain ⟨hempty, hholds⟩ := hinv.holds_eq hinj i
  obtain ⟨hempty', hholds'⟩ := hinv'.holds_eq hinj j
  cases hcase : s.toLog.view i with
  | none => rw [hempty hcase, hempty' (hview ▸ hcase)]
  | some e =>
    have heq := (hholds e hcase).symm.trans (hholds' e (hview ▸ hcase))
    rw [Option.some.injEq, Prod.mk.injEq] at heq
    exact heq.2

/-- The two replicas that have delivered the value of the first one hold the same list. -/
theorem replicas_agree_three :
    ∃ (s : Cluster (Fin 3)) (value : Bytes), s.decided = [(0, value)] ∧ s.position 1 = 1 ∧
      s.position 2 = 1 ∧ s.holds 1 = s.holds 2 := by
  have hinj : Function.Injective Cluster.threeHosts := by decide
  obtain ⟨actions, s, value, hlocks, hrun, hdecided, h₁, h₂⟩ := Cluster.exists_first_delivered
  refine ⟨s, value, hdecided, h₁, h₂, replicas_agree Cluster.threeHosts hinj _ _ _ actions [] ?_ s s
    hrun rfl 1 2 (h₁.trans h₂.symm) fun e he => ?_⟩
  · rw [List.append_nil]
    exact hlocks
  · rw [hdecided, h₁] at he
    obtain rfl : (0, value) = e := Option.some.inj he
    show (0 : Fin 3) ≠ 1 ∧ (0 : Fin 3) ≠ 2
    decide

/-- **Convergence is possible from every reachable state**, if all locks are granted. If the tables
of two replicas that have submitted a value have the same keys `S`, then without another detection
the cluster can get to a state in which any given replicas hold the list of `S` in descending
order: Paxos decides the last submissions of the two, and the replicas deliver.

**Proof sketch.** The last submission of a replica is its table
(`FailureDetector.History.last_submission`), and the view of every replica is one of the last two
values. -/
theorem cluster_can_converge (hostname : ι → IpString) (hinj : Function.Injective hostname)
    (unset : ι → NodeStruct) (currentNodeIp : ι → IpBuffer) (lastLogged : ι → ℚ)
    (actions : List (ClusterAction ι)) (hlocks : ∀ a ∈ actions, a.LocksSucceed) (s : Cluster ι)
    (hrun : run Cluster.step (Cluster.start hostname unset currentNodeIp lastLogged) actions =
      some s)
    (j k : ι) (hjk : j ≠ k) (hj : submissions (s.nodes j).trace ≠ [])
    (hk : submissions (s.nodes k).trace ≠ []) (S : Set IpString)
    (hSj : ∀ ip, ip ∈ ipKeys (s.nodes j).detector.nodes ↔ ip ∈ S)
    (hSk : ∀ ip, ip ∈ ipKeys (s.nodes k).detector.nodes ↔ ip ∈ S) (is : List ι) :
    ∃ vj vk later t, (submissions (s.nodes j).trace).getLast? = some vj ∧
      (submissions (s.nodes k).trace).getLast? = some vk ∧ (∀ a ∈ later, Cluster.Delivers a) ∧
      run Cluster.step s (.decide j vj :: .decide k vk :: later) = some t ∧
      (∀ i, (t.nodes i).detector.nodes = (s.nodes i).detector.nodes) ∧
      ∀ i ∈ is, Descending (t.holds i) ∧ ∀ c, c ∈ t.holds i ↔ ∃ ip ∈ S, ip.1 = c := by
  have hinv := Cluster.run_inv hlocks hrun
  obtain ⟨vj, hvj⟩ := Option.ne_none_iff_exists'.mp fun h => hj (List.getLast?_eq_none_iff.mp h)
  obtain ⟨vk, hvk⟩ := Option.ne_none_iff_exists'.mp fun h => hk (List.getLast?_eq_none_iff.mp h)
  set u : Cluster ι := { s with decided := s.decided ++ [(j, vj)] ++ [(k, vk)] } with hu
  have hdecide : run Cluster.step s [.decide j vj, .decide k vk] = some u := by
    refine run_cons_eq_some.mpr ⟨{ s with decided := s.decided ++ [(j, vj)] }, ?_, ?_⟩
    · exact if_pos (List.mem_of_getLast? hvj)
    · exact run_singleton.trans (if_pos (List.mem_of_getLast? hvk))
  have hposition : ∀ i, u.position i ≤ u.decided.length := by
    intro i
    have hle := hinv.log.position_le i
    have hlog : s.toLog.log.length = s.decided.length := rfl
    have hpos : s.toLog.position i = s.position i := rfl
    simp only [hu, List.length_append, List.length_singleton]
    omega
  obtain ⟨later, t, hlater, hrun', hsame, hdone⟩ := Cluster.exists_all_caught_up is hposition
  have htotal : run Cluster.step s (.decide j vj :: .decide k vk :: later) = some t :=
    run_append_eq_some.mpr ⟨u, hdecide, hrun'⟩
  refine ⟨vj, vk, later, t, hvj, hvk, hlater, htotal, hsame.nodes, fun i hi => ?_⟩
  have hinv' : Cluster.Inv hostname t := by
    refine run_invariant (Cluster.Inv hostname) (fun _ _ _ h hok hstep => h.step hok hstep) hinv
      (fun a ha => ?_) htotal
    rcases List.mem_cons.mp ha with rfl | ha
    · trivial
    rcases List.mem_cons.mp ha with rfl | ha
    · trivial
    · obtain ⟨i, rfl⟩ := hlater a ha
      exact quietEnv_locks
  have hread : t.toLog.hasRead i = s.decided ++ [(j, vj)] ++ [(k, vk)] := by
    show t.decided.take (t.position i) = _
    rw [(hdone i).2 hi, List.take_length, hsame.decided]
  obtain ⟨l, hl, hholds⟩ := Cluster.holds_of_last_two hinv' hinj hjk hread
    ((congrArg List.getLast? (hsame.submissions j)).trans hvj)
    ((congrArg List.getLast? (hsame.submissions k)).trans hvk)
  have hkeys : ∀ ip, ip ∈ ipKeys (t.nodes l).detector.nodes ↔ ip ∈ S := by
    rw [hsame.nodes]
    rcases hl with rfl | rfl
    · exact hSj
    · exact hSk
  rw [hholds]
  refine ⟨membership_descending (hinv'.nodes l).wf.nodup, fun c => ?_⟩
  rw [mem_membership]
  simp only [hkeys]

/-- Three replicas can agree on the table of the first two. -/
theorem cluster_can_converge_three :
    ∃ (s t : Cluster (Fin 3)) (later : List (ClusterAction (Fin 3))),
      run Cluster.step Cluster.threeReplicas Cluster.heardActions = some s ∧
      run Cluster.step s later = some t ∧
      ∀ i, ∀ c, c ∈ t.holds i ↔ ∃ ip ∈ ({ipOne, ipTwo} : Set IpString), ip.1 = c := by
  have hinj : Function.Injective Cluster.threeHosts := by decide
  obtain ⟨s, hrun, -, -, h₀, h₁, hkeys₀, hkeys₁⟩ := Cluster.exists_heard
  obtain ⟨v₀, v₁, later, t, -, -, -, hlater, -, hholds⟩ :=
    cluster_can_converge Cluster.threeHosts hinj _ _ _
    Cluster.heardActions Cluster.locks_heardActions s hrun 0 1 (by decide) h₀ h₁ {ipOne, ipTwo}
    hkeys₀
    hkeys₁ [0, 1, 2]
  have hall : ∀ i : Fin 3, i ∈ [0, 1, 2] := by decide
  exact ⟨s, t, _, hrun, hlater, fun i => (hholds i (hall i)).2⟩

end FailureDetector
