import FailureDetector.Detector.Membership

set_option relaxedAutoImplicit false
set_option autoImplicit false

/-!
# Convergence of the cluster

Several replicas run a detector each and submit their tables to Paxos, which decides all submitted
values in one order that keeps the order of each replica's own values. Every replica is delivered
the decided values in this order, interleaved with the steps of its detector in any way.

A replica ignores its own values, so that in the end it holds the last decided list of the others.
That one is the last submission of its sender, and the last submission of a detector is its table.

## Main definitions

* `FailureDetector.written` — the list that a value writes at a node.
* `FailureDetector.delivered` — the values that a run delivers.

## Main results

* `FailureDetector.History.run_items` — what the learner holds after a run of its detector.
* `FailureDetector.History.last_submission` — the last submission is the table.
* `FailureDetector.detectors_converge` — convergence.
-/

namespace FailureDetector

open CString Wire Runs

/-- The list that a value writes at the node `own`: that of an accepted value from another node. -/
def written (own : CStr) (value : Bytes) : Option (List CStr) :=
  (decode value).bind fun m => if m.sender = own then none else some m.members

/-- The instance numbers and values that a sequence of actions delivers. -/
def delivered (actions : List Action) : List (ℕ × Bytes) :=
  actions.filterMap fun a => match a with
    | .deliver d => some (d.iid, d.value)
    | _ => none

/-- Actions deliver one after the other. -/
lemma delivered_append (as bs : List Action) :
    delivered (as ++ bs) = delivered as ++ delivered bs := List.filterMap_append

namespace History

variable {hostname : IpString} {s s' : History} {a : Action} {actions : List Action}

/-- What a delivery does to the learner: it writes the list of a value from another node. Nothing
else does anything to it. -/
lemma step_items (hinv : Inv hostname s) (hlocks : a.LocksSucceed)
    (hne : ∀ p ∈ delivered [a], written hostname.1 p.2 ≠ some []) (hstep : step s a = some s') :
    s'.detector.replica.paxosStateArray.items =
      Register.value (fun p => written hostname.1 p.2)
        s.detector.replica.paxosStateArray.items (delivered [a]) := by
  obtain ⟨timers, htimers⟩ := hinv.timers
  cases a with
  | receive env input =>
    obtain ⟨d', events, timers', hreceive, hdo⟩ := receive_step env hinv.wf htimers input
    rw [step, if_pos hinv.running, hreceive] at hstep
    cases hstep
    exact congrArg Zlist.items hdo.learner.2
  | timeout env timerId ip =>
    rw [step] at hstep
    split at hstep
    · next hstarted =>
      have hip : ip ≠ s.detector.hostname := hinv.hostname_eq ▸ hinv.starts timerId ip hstarted
      have hdo := handleTimeout_step env hinv.wf hip timerId
      cases hstep
      exact congrArg Zlist.items hdo.frame.paxosStateArray
    · cases hstep
  | deliver d =>
    cases hstep
    have hforeign : foreign s.detector.replica.currentNodeIp.cstr d =
        written hostname.1 d.value := by
      rw [hinv.currentNodeIp]
      rfl
    have hlearn := onDeliver_learnStep hlocks s.detector.replica
      (hforeign ▸ hne (d.iid, d.value) (List.mem_singleton.mpr rfl))
    rw [hforeign] at hlearn
    have hvalue := Register.value_concat (fun p : ℕ × Bytes => written hostname.1 p.2)
      s.detector.replica.paxosStateArray.items [] (d.iid, d.value)
    exact hlearn.items.trans hvalue.symm

/-- **What the learner holds after a run of its detector**: the last list that was delivered and
comes from another node. -/
lemma run_items {unset : NodeStruct} {currentNodeIp : IpBuffer} {lastLogged : ℚ}
    (hlocks : ∀ a ∈ actions, a.LocksSucceed)
    (hne : ∀ p ∈ delivered actions, written hostname.1 p.2 ≠ some [])
    (hrun : run step (start hostname unset currentNodeIp lastLogged) actions = some s) :
    s.detector.replica.paxosStateArray.items =
      Register.value (fun p => written hostname.1 p.2) [] (delivered actions) := by
  induction actions using List.reverseRecOn generalizing s with
  | nil =>
    cases hrun
    rfl
  | append_singleton as a ih =>
    obtain ⟨t, ht, hstep⟩ := run_concat_eq_some.mp hrun
    rw [delivered_append] at hne ⊢
    have has : ∀ b ∈ as, b.LocksSucceed := fun b hb => hlocks b (List.mem_append_left _ hb)
    have ha : a.LocksSucceed := hlocks a (List.mem_append_right _ (List.mem_singleton.mpr rfl))
    rw [step_items (run_inv has ht) ha (fun p hp => hne p (List.mem_append_right _ hp)) hstep,
      ih has (fun p hp => hne p (List.mem_append_left _ hp)) ht, Register.value_append]

/-- **The last submission of a detector is its table.** -/
lemma last_submission (hinv : Inv hostname s) {value : Bytes}
    (hlast : (submissions s.trace).getLast? = some value) :
    ∃ m, decode value = some m ∧ m.sender = hostname.1 ∧
      m.members = membership s.detector.nodes := by
  obtain ⟨views, hviews, -, hmembers⟩ := hinv.views
  have hcarries : (views.map fun l => some (hostname.1, l)).getLast? = some (carries value) := by
    rw [← hviews, List.getLast?_map, hlast, Option.map_some]
  rw [List.getLast?_map] at hcarries
  obtain ⟨l, hl, hcarries⟩ := Option.map_eq_some_iff.mp hcarries
  rw [List.getLast?_cons, hl, Option.getD_some, Option.some.injEq] at hmembers
  obtain ⟨m, hm, heq⟩ := Option.map_eq_some_iff.mp hcarries.symm
  rw [Prod.mk.injEq] at heq
  exact ⟨m, hm, heq.1, heq.2.trans hmembers⟩

end History

section Cluster

variable {ι : Type*} [DecidableEq ι] {hostname : ι → IpString} {s : ι → History}
  {decided : List (ι × ℕ × Bytes)}

/-- A decided value has been submitted by its replica. -/
lemma submitted_of_decided
    (horder : ∀ i, (decided.filter (·.1 = i)).map (·.2.2) = submissions (s i).trace)
    {e : ι × ℕ × Bytes} (he : e ∈ decided) : e.2.2 ∈ submissions (s e.1).trace := by
  rw [← horder]
  exact List.mem_map_of_mem (List.mem_filter.mpr ⟨he, decide_eq_true rfl⟩)

/-- No decided value writes an empty list. -/
lemma written_ne_nil (hinv : ∀ i, History.Inv (hostname i) (s i))
    (horder : ∀ i, (decided.filter (·.1 = i)).map (·.2.2) = submissions (s i).trace)
    {e : ι × ℕ × Bytes} (he : e ∈ decided) (own : CStr) : written own e.2.2 ≠ some [] := by
  intro hnil
  obtain ⟨m, hm, hif⟩ := Option.bind_eq_some_iff.mp hnil
  split at hif
  · cases hif
  · have hmem := ((hinv e.1).own _ (submitted_of_decided horder he) m hm).2
    rw [Option.some.inj hif] at hmem
    cases hmem

/-- A replica's own values write nothing. -/
lemma written_own (hinv : ∀ i, History.Inv (hostname i) (s i))
    (horder : ∀ i, (decided.filter (·.1 = i)).map (·.2.2) = submissions (s i).trace)
    {e : ι × ℕ × Bytes} (he : e ∈ decided) : written (hostname e.1).1 e.2.2 = none := by
  rw [written]
  cases hm : decode e.2.2 with
  | none => rfl
  | some m =>
    exact if_pos ((hinv e.1).own _ (submitted_of_decided horder he) m hm).1

/-- The last decided value of the other replicas is the last submission of its replica. -/
lemma exists_last_other [Nontrivial ι]
    (horder : ∀ i, (decided.filter (·.1 = i)).map (·.2.2) = submissions (s i).trace)
    (hsubmitted : ∀ i, submissions (s i).trace ≠ []) (i : ι) :
    ∃ e ∈ decided, e.1 ≠ i ∧ (decided.filter (·.1 ≠ i)).getLast? = some e ∧
      (submissions (s e.1).trace).getLast? = some e.2.2 := by
  obtain ⟨j, hj⟩ := exists_ne i
  have hother : decided.filter (·.1 ≠ i) ≠ [] := by
    intro hnil
    refine hsubmitted j ?_
    rw [← horder j, List.map_eq_nil_iff, List.filter_eq_nil_iff]
    intro e he heq
    refine List.filter_eq_nil_iff.mp hnil e he (decide_eq_true ?_)
    exact of_decide_eq_true heq ▸ hj
  obtain ⟨e, hlast⟩ := Option.ne_none_iff_exists'.mp
    (fun hnone => hother (List.getLast?_eq_none_iff.mp hnone))
  obtain ⟨hmem, hne⟩ := List.mem_filter.mp (List.mem_of_getLast? hlast)
  have hne' : e.1 ≠ i := of_decide_eq_true hne
  have hown := Register.getLast?_filter_of_imp (p := fun x : ι × ℕ × Bytes => decide (x.1 = e.1))
    (fun x hx => decide_eq_true (of_decide_eq_true hx ▸ hne')) hlast (decide_eq_true rfl)
  refine ⟨e, hmem, hne', hlast, ?_⟩
  rw [← horder e.1, List.getLast?_map, hown, Option.map_some]

end Cluster

/-- **Convergence.** Let at least two replicas with different addresses run their detectors, in any
interleaving with their deliveries. Let Paxos decide all the values they submit, each once and
those of one replica in the order of their submission, and deliver them in this order to every
replica. If every replica has submitted a value and all tables end with the same keys `S`, then
every replica ends with the list of `S` in descending order.

**Proof sketch.** A learner holds the last decided list of the other replicas
(`FailureDetector.History.run_items`). It is the last submission of its replica, because each
replica's values are decided in order, and so it is that replica's table
(`FailureDetector.History.last_submission`). -/
theorem detectors_converge {ι : Type*} [DecidableEq ι] [Nontrivial ι] (hostname : ι → IpString)
    (hinj : Function.Injective hostname) (unset : ι → NodeStruct) (currentNodeIp : ι → IpBuffer)
    (lastLogged : ι → ℚ) (actions : ι → List Action) (s : ι → History)
    (hlocks : ∀ i, ∀ a ∈ actions i, a.LocksSucceed)
    (hrun : ∀ i, run History.step
      (History.start (hostname i) (unset i) (currentNodeIp i) (lastLogged i)) (actions i) =
        some (s i))
    (decided : List (ι × ℕ × Bytes))
    (horder : ∀ i, (decided.filter (·.1 = i)).map (·.2.2) = submissions (s i).trace)
    (hdelivered : ∀ i, delivered (actions i) = decided.map Prod.snd)
    (hsubmitted : ∀ i, submissions (s i).trace ≠ []) (S : Set IpString)
    (hS : ∀ i ip, ip ∈ ipKeys (s i).detector.nodes ↔ ip ∈ S) (i : ι) :
    Descending (s i).detector.replica.paxosStateArray.items ∧
      ∀ t, t ∈ (s i).detector.replica.paxosStateArray.items ↔ ∃ ip ∈ S, ip.1 = t := by
  have hinv : ∀ j, History.Inv (hostname j) (s j) := fun j => History.run_inv (hlocks j) (hrun j)
  have hitems := History.run_items (hlocks i)
    (fun p hp => by
      rw [hdelivered] at hp
      obtain ⟨e, he, rfl⟩ := List.mem_map.mp hp
      exact written_ne_nil hinv horder he _) (hrun i)
  obtain ⟨e, he, hne, hlast, hsubmission⟩ := exists_last_other horder hsubmitted i
  obtain ⟨m, hm, hsender, hmembers⟩ := History.last_submission (hinv e.1) hsubmission
  have hwritten : written (hostname i).1 e.2.2 = some (membership (s e.1).detector.nodes) := by
    rw [written, hm, Option.bind_some, if_neg, hmembers]
    rw [hsender]
    exact fun heq => hne (hinj (Subtype.ext heq))
  have hvalue : Register.value (fun x : ι × ℕ × Bytes => written (hostname i).1 x.2.2) [] decided =
      membership (s e.1).detector.nodes := by
    refine Register.value_eq_of_getLast_filter _ hlast hwritten fun x hx hq => ?_
    have hxi : x.1 = i := by simpa using hq
    exact hxi ▸ written_own hinv horder hx
  have hfinal : (s i).detector.replica.paxosStateArray.items =
      membership (s e.1).detector.nodes := by
    rw [hitems, hdelivered, ← hvalue, Register.value, Register.value, List.filterMap_map]
    rfl
  rw [hfinal]
  refine ⟨membership_descending (hinv e.1).wf.nodup, fun t => ?_⟩
  rw [mem_membership]
  simp only [hS]

namespace History

/-- A detector that hears from one other node submits the table of both. -/
lemma exists_joined {hostname peer : IpString} (hne : peer ≠ hostname) (unset : NodeStruct)
    (currentNodeIp : IpBuffer) (lastLogged : ℚ) :
    ∃ s value, run step (start hostname unset currentNodeIp lastLogged)
        [.receive quietDetectorEnv (.beacon peer [])] = some s ∧
      submissions s.trace = [value] ∧
      ∀ ip, ip ∈ ipKeys s.detector.nodes ↔ ip = peer ∨ ip = hostname := by
  have hinv := start_inv hostname unset currentNodeIp lastLogged
  have hlocks : quietDetectorEnv.LocksSucceed := quietEnv_locks
  obtain ⟨timers, htimers⟩ := hinv.timers
  have hnew : peer ∉ ipKeys (start hostname unset currentNodeIp lastLogged).detector.nodes :=
    fun hmem => hne (List.mem_singleton.mp hmem)
  obtain ⟨d', events, timers', hreceive, hdo⟩ :=
    receive_step quietDetectorEnv hinv.wf htimers (.beacon peer [])
  have hstep : step (start hostname unset currentNodeIp lastLogged)
      (.receive quietDetectorEnv (.beacon peer [])) =
      some ⟨d', (start hostname unset currentNodeIp lastLogged).trace ++ events⟩ := by
    rw [step, if_pos hinv.running, hreceive, Option.map_some]
  cases hdo with
  | own => exact absurd rfl hne
  | refused _ _ _ hlock => cases hlock
  | heartbeat _ _ d₁ events timerId _ _ hlock h =>
    obtain ⟨hkeys, hjoined, -⟩ := h.joined hnew
    obtain ⟨value, uuid, -, rfl⟩ := hjoined (hlocks _)
    have hquiet := submissions_eq_nil (orchestrate_quiet d₁ [])
    refine ⟨_, value, run_singleton.trans hstep, ?_, fun ip => ?_⟩
    · rw [submissions_append, submissions_append, hquiet]
      rfl
    · obtain ⟨silenced, heq⟩ := orchestrate_eq d₁ []
      rw [heq]
      show ip ∈ ipKeys d₁.nodes ↔ _
      rw [hkeys.mem_iff, List.mem_cons]
      exact or_congr_right List.mem_singleton

/-- Values can always be delivered. Deliveries do not change the table and submit nothing. -/
lemma exists_delivered (s : History) (ds : List Delivery) :
    ∃ s', run step s (ds.map .deliver) = some s' ∧ submissions s'.trace = submissions s.trace ∧
      s'.detector.nodes = s.detector.nodes := by
  induction ds generalizing s with
  | nil => exact ⟨s, rfl, rfl, rfl⟩
  | cons d ds ih =>
    have hquiet := submissions_eq_nil (onDeliver_quiet d.env s.detector.replica d.iid d.value)
    obtain ⟨s', hrun, hsubmissions, hnodes⟩ := ih ⟨{ s.detector with
      replica := (onDeliver d.env s.detector.replica d.iid d.value).1 },
      s.trace ++ (onDeliver d.env s.detector.replica d.iid d.value).2⟩
    refine ⟨s', run_cons_eq_some.mpr ⟨_, rfl, hrun⟩, hsubmissions.trans ?_, hnodes⟩
    rw [submissions_append, hquiet, List.append_nil]

end History

/-- The addresses `1` and `2` of two replicas. -/
def twoHosts (i : Bool) : IpString :=
  bif i then ipOne else ipTwo

/-- Two replicas that hear from each other end with the list of both. -/
theorem detectors_converge_two :
    ∃ (actions : Bool → List Action) (s : Bool → History),
      (∀ i, run History.step (History.start (twoHosts i) (nodeWithIp ⟨[], by decide⟩)
        (CharArray.zero _) 0) (actions i) = some (s i)) ∧
      ∀ i, Descending (s i).detector.replica.paxosStateArray.items ∧
        ∀ t, t ∈ (s i).detector.replica.paxosStateArray.items ↔
          ∃ ip ∈ Set.range twoHosts, ip.1 = t := by
  have hinj : Function.Injective twoHosts := by decide
  have hne : ∀ i, twoHosts (!i) ≠ twoHosts i := by decide
  choose s₁ value hjoin hvalue hkeys using fun i => History.exists_joined (hne i)
    (nodeWithIp ⟨[], by decide⟩) (CharArray.zero _) 0
  have hdeliver := fun i => History.exists_delivered (s₁ i)
    [⟨quietEnv, 1, value true⟩, ⟨quietEnv, 2, value false⟩]
  choose s hrun hsubmissions hnodes using hdeliver
  have htotal : ∀ i, run History.step (History.start (twoHosts i) (nodeWithIp ⟨[], by decide⟩)
      (CharArray.zero _) 0) ([.receive quietDetectorEnv (.beacon (twoHosts (!i)) [])] ++
        [⟨quietEnv, 1, value true⟩, ⟨quietEnv, 2, value false⟩].map .deliver) = some (s i) :=
    fun i => run_append_eq_some.mpr ⟨s₁ i, hjoin i, hrun i⟩
  refine ⟨_, s, htotal, fun i => detectors_converge twoHosts hinj _ _ _ _ s ?_ htotal
    [(true, 1, value true), (false, 2, value false)] ?_ (fun _ => rfl) ?_ _ ?_ i⟩
  · intro i a ha
    simp only [List.map_cons, List.map_nil, List.cons_append, List.nil_append, List.mem_cons,
      List.not_mem_nil, or_false] at ha
    rcases ha with rfl | rfl | rfl
    · exact quietEnv_locks
    · exact quietEnv_locks
    · exact quietEnv_locks
  · intro i
    rw [hsubmissions, hvalue]
    cases i with
    | false => rfl
    | true => rfl
  · intro i
    rw [hsubmissions, hvalue]
    exact List.cons_ne_nil _ _
  · intro i ip
    rw [hnodes, hkeys, Set.mem_range]
    cases i with
    | false => simp [eq_comm, or_comm]
    | true => simp [eq_comm]

end FailureDetector
