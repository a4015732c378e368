import FailureDetector.Lib.Register
import FailureDetector.PaxosReplica.Deliver

set_option relaxedAutoImplicit false
set_option autoImplicit false

/-!
# What a learner holds

A learner is a register: a value from another node writes its membership list, and values that do
not decode or come from the node itself write nothing. `on_deliver` logs a state and takes over
the instance number exactly when the register changes.

## Main definitions

* `FailureDetector.Delivery`, `FailureDetector.deliverAll` — sequences of `on_deliver` calls.
* `FailureDetector.foreign` — what a delivery writes.
* `FailureDetector.LearnStep` — what one call does to the learner.

## Main results

* `FailureDetector.deliverAll_view` — a sequence of calls, seen from outside.
* `FailureDetector.onDeliver_learnStep` — the step lemma.
* `FailureDetector.deliverAll_learned` — the learner refines the register.
* `FailureDetector.learner_holds_last_foreign` — what a learner holds after any sequence of calls.
* `FailureDetector.agreement_iff_last_foreign` — when two learners agree.
-/

namespace FailureDetector

open CString Wire

/-- A call of `on_deliver`. -/
structure Delivery where
  env : PaxosEnv
  iid : ℕ
  value : Bytes

/-- The replica after a sequence of `on_deliver` calls, and their visible actions. -/
def deliverAll {L : Type} [ZlistImpl L CStr] (replica : FdReplicaOf L) :
    List Delivery → FdReplicaOf L × List Event
  | [] => (replica, [])
  | d :: ds =>
    let (replica, events) := onDeliver d.env replica d.iid d.value
    let (replica, events') := deliverAll replica ds
    (replica, events ++ events')

/-- **A sequence of calls, seen from outside**: whatever implements the lists of a replica, what can
be seen of it learns and logs the same. -/
lemma deliverAll_view {L : Type} [ZlistImpl L CStr] (replica : FdReplicaOf L)
    (ds : List Delivery) :
    deliverAll replica.view ds = (deliverAll replica ds).map FdReplicaOf.view id := by
  induction ds generalizing replica with
  | nil => rfl
  | cons d ds ih =>
    have hdeliver := onDeliver_view d.env replica d.iid d.value
    simp only [deliverAll]
    generalize onDeliver d.env replica d.iid d.value = result at hdeliver
    rw [hdeliver]
    obtain ⟨replica', events⟩ := result
    dsimp only [Prod.map, id]
    rw [ih replica']
    rfl

/-- The list that a delivery at the node `own` writes: that of an accepted value from another
node. -/
def foreign (own : CStr) (d : Delivery) : Option (List CStr) :=
  (decode d.value).bind fun m => if m.sender = own then none else some m.members

/-- A delivery at which every lock succeeds, of a value that is packed by `serialize_hash` or
rejected by `deserialize_hash`. -/
structure Delivery.Regular (d : Delivery) : Prop where
  locks : d.env.LocksSucceed
  value : Serialized d.value ∨ (deserializeHash d.value Zlist.new).1 = none

/-- What a call of `on_deliver` that writes `written` does to the learner. -/
structure LearnStep (written : Option (List CStr)) (iid : ℕ) (timeMs : ℚ) (replica : FdReplica)
    (result : FdReplica × List Event) : Prop where
  currentNodeIp : result.1.currentNodeIp = replica.currentNodeIp
  items : result.1.paxosStateArray.items = written.getD replica.paxosStateArray.items
  ignored : written = none → result.1.paxosStateArray = replica.paxosStateArray
  unchanged : result.1.paxosStateArray.items = replica.paxosStateArray.items →
    result.1.instanceId = replica.instanceId ∧
      result.1.lastLoggedStateTimeMs = replica.lastLoggedStateTimeMs ∧
      loggedStates result.2 = []
  changed : result.1.paxosStateArray.items ≠ replica.paxosStateArray.items →
    result.1.instanceId = iid ∧ result.1.lastLoggedStateTimeMs = timeMs ∧
      loggedStates result.2 = [result.1.paxosStateArray.items]

/-- A call that leaves the learner as it is and logs nothing. -/
lemma LearnStep.of_eq {iid : ℕ} {timeMs : ℚ} {replica : FdReplica}
    {result : FdReplica × List Event} (hip : result.1.currentNodeIp = replica.currentNodeIp)
    (harray : result.1.paxosStateArray = replica.paxosStateArray)
    (hiid : result.1.instanceId = replica.instanceId)
    (htime : result.1.lastLoggedStateTimeMs = replica.lastLoggedStateTimeMs)
    (hlog : loggedStates result.2 = []) : LearnStep none iid timeMs replica result where
  currentNodeIp := hip
  items := by rw [harray, Option.getD_none]
  ignored := fun _ => harray
  unchanged := fun _ => ⟨hiid, htime, hlog⟩
  changed := fun hne => absurd (by rw [harray]) hne

/-- A packed value has a list that is not empty. -/
lemma Serialized.members_ne_nil {value : Bytes} (h : Serialized value) {m : Message}
    (hm : decode value = some m) : m.members ≠ [] := by
  obtain ⟨nodes, currentNodeIp, uuid, ipaddress, hvalue⟩ := h
  obtain ⟨ns, -, hne, hdecode⟩ := serializeHash_decode hvalue
  rw [hdecode] at hm
  cases hm
  exact membership_ne_nil hne

/-- A regular delivery does not write an empty list. -/
lemma Delivery.Regular.foreign_ne {d : Delivery} (h : d.Regular) (own : CStr) :
    foreign own d ≠ some [] := by
  intro hnil
  obtain ⟨m, hm, hif⟩ := Option.bind_eq_some_iff.mp hnil
  split at hif
  · cases hif
  · rcases h.value with hvalue | hvalue
    · exact hvalue.members_ne_nil hm (Option.some.inj hif)
    · rw [decode, hvalue] at hm
      cases hm

/-- A delivery of an accepted value writes its list unless the node itself has sent it. -/
lemma foreign_eq {own : CStr} {d : Delivery} {m : Message} (hdecode : decode d.value = some m) :
    foreign own d = if m.sender = own then none else some m.members := by
  rw [foreign, hdecode, Option.bind_some]

/-- A delivery of a rejected value or of the node's own writes nothing. -/
lemma foreign_eq_none {own : CStr} {d : Delivery}
    (h : (deserializeHash d.value Zlist.new).1 = none ∨
      ∃ m, decode d.value = some m ∧ m.sender = own) : foreign own d = none := by
  rcases h with h | ⟨m, hm, hown⟩
  · rw [foreign, decode, h]
    rfl
  · rw [foreign_eq hm, if_pos hown]

/-- **One call of `on_deliver`** writes what its delivery writes.

**Proof sketch.** By its exits: a value that does not decode or is the node's own leaves the learner
alone, and one from another node is compared with what the learner holds. -/
lemma onDeliver_learnStep {d : Delivery} (hlocks : d.env.LocksSucceed) (replica : FdReplica)
    (hne : foreign replica.currentNodeIp.cstr d ≠ some []) :
    LearnStep (foreign replica.currentNodeIp.cstr d) d.iid d.env.timeMs replica
      (onDeliver d.env replica d.iid d.value) := by
  have hstep := onDeliver_step d.env replica d.iid d.value
  generalize onDeliver d.env replica d.iid d.value = result at hstep ⊢
  cases hstep with
  | refused hlistener => exact absurd (hlistener.symm.trans (hlocks _)) Bool.false_ne_true
  | rejected received _ hdecode =>
    rw [foreign, hdecode, Option.bind_none]
    exact LearnStep.of_eq rfl rfl rfl rfl rfl
  | ownRefused m received _ hdecode hown =>
    rw [foreign_eq hdecode, if_pos hown]
    exact LearnStep.of_eq rfl rfl rfl rfl rfl
  | ownUnknown m received _ hdecode hown =>
    rw [foreign_eq hdecode, if_pos hown]
    exact LearnStep.of_eq rfl rfl rfl rfl rfl
  | ownKnown m received state _ hdecode hown =>
    rw [foreign_eq hdecode, if_pos hown]
    exact LearnStep.of_eq rfl rfl rfl rfl rfl
  | same m received current _ hdecode hown hequal hcurrent =>
    rw [foreign_eq hdecode, if_neg hown]
    exact ⟨rfl, hcurrent.trans hequal.symm, nofun, fun _ => ⟨rfl, rfl, rfl⟩,
      fun hchanged => absurd hcurrent hchanged⟩
  | changed m received current _ hdecode hown hdiffer hcurrent =>
    rw [foreign_eq hdecode, if_neg hown] at hne ⊢
    have hmembers : m.members ≠ [] := fun hnil => hne (congrArg some hnil)
    exact ⟨rfl, hcurrent, nofun,
      fun hsame => absurd (hcurrent.symm.trans hsame) (hdiffer hmembers), fun _ => ⟨rfl, rfl, rfl⟩⟩

/-- No call of `on_deliver` changes the address of the node. -/
lemma onDeliver_currentNodeIp (env : PaxosEnv) (replica : FdReplica) (iid : ℕ) (value : Bytes) :
    (onDeliver env replica iid value).1.currentNodeIp = replica.currentNodeIp := by
  have hstep := onDeliver_step env replica iid value
  generalize onDeliver env replica iid value = result at hstep ⊢
  cases hstep <;> rfl

/-! ### Runs of deliveries -/

/-- One more delivery after a sequence of them. -/
lemma deliverAll_concat (replica : FdReplica) (ds : List Delivery) (d : Delivery) :
    deliverAll replica (ds ++ [d]) =
      ((onDeliver d.env (deliverAll replica ds).1 d.iid d.value).1,
        (deliverAll replica ds).2 ++
          (onDeliver d.env (deliverAll replica ds).1 d.iid d.value).2) := by
  induction ds generalizing replica with
  | nil => simp [deliverAll]
  | cons e ds ih =>
    simp only [List.cons_append, deliverAll, ih, List.append_assoc]

/-- The deliveries that changed the list of a learner at the node `own`. -/
def changes (own : CStr) (init : List CStr) (ds : List Delivery) : List Delivery :=
  Register.changes (foreign own) init ds

/-- What a learner that started as `replica` holds and has logged after the deliveries `ds`. -/
structure Learned (replica : FdReplica) (ds : List Delivery) (result : FdReplica × List Event) :
    Prop where
  currentNodeIp : result.1.currentNodeIp = replica.currentNodeIp
  items : result.1.paxosStateArray.items =
    Register.value (foreign replica.currentNodeIp.cstr) replica.paxosStateArray.items ds
  instanceId : result.1.instanceId =
    ((changes replica.currentNodeIp.cstr replica.paxosStateArray.items ds).getLast?.map
      Delivery.iid).getD replica.instanceId
  logged : loggedStates result.2 =
    (changes replica.currentNodeIp.cstr replica.paxosStateArray.items ds).filterMap
      (foreign replica.currentNodeIp.cstr)

/-- **A learner refines a register** that is written by the values of the other nodes.

**Proof sketch.** Induction on the deliveries, with the step lemma for the last one: it is among
the changes exactly if it changes the list. -/
lemma deliverAll_learned (replica : FdReplica) {ds : List Delivery} (hds : ∀ d ∈ ds, d.Regular) :
    Learned replica ds (deliverAll replica ds) := by
  induction ds using List.reverseRecOn with
  | nil => exact ⟨rfl, rfl, rfl, rfl⟩
  | append_singleton ds d ih =>
    have h := ih fun e he => hds e (List.mem_append_left _ he)
    have hd := hds d (by simp)
    rw [deliverAll_concat]
    set before := (deliverAll replica ds).1
    have hstep := onDeliver_learnStep hd.locks before (hd.foreign_ne _)
    rw [h.currentNodeIp] at hstep
    have hitems : (onDeliver d.env before d.iid d.value).1.paxosStateArray.items =
        Register.value (foreign replica.currentNodeIp.cstr) replica.paxosStateArray.items
          (ds ++ [d]) := by
      rw [hstep.items, Register.value_concat, h.items]
    have hchanges := Register.changes_concat (foreign replica.currentNodeIp.cstr)
      replica.paxosStateArray.items ds d
    rw [← hitems, ← h.items] at hchanges
    refine ⟨hstep.currentNodeIp.trans h.currentNodeIp, hitems, ?_, ?_⟩
    · rw [changes, hchanges]
      split
      · next heq => rw [(hstep.unchanged heq).1, List.append_nil, h.instanceId, changes]
      · next hne =>
        rw [(hstep.changed hne).1, List.getLast?_concat, Option.map_some, Option.getD_some]
    · rw [changes, hchanges]
      rw [loggedStates, List.filterMap_append]
      rw [← loggedStates, ← loggedStates, h.logged]
      split
      · next heq => rw [(hstep.unchanged heq).2.2, List.append_nil, List.append_nil, changes]
      · next hne =>
        rw [(hstep.changed hne).2.2, List.filterMap_append, changes]
        have hwritten : foreign replica.currentNodeIp.cstr d =
            some (onDeliver d.env before d.iid d.value).1.paxosStateArray.items := by
          rw [hstep.items] at hne ⊢
          cases hw : foreign replica.currentNodeIp.cstr d with
          | none => exact absurd (by rw [hw, Option.getD_none]) hne
          | some l => rw [Option.getD_some]
        rw [List.filterMap_cons_some hwritten, List.filterMap_nil]

/-- Whether a value is rejected does not depend on the lists. -/
lemma deserializeHash_rejects {L : Type} [ZlistImpl L CStr] {value : Bytes}
    (h : (deserializeHash value (zlistNew : L)).1 = none) :
    (deserializeHash value Zlist.new).1 = none := by
  have hview := deserializeHash_view value (zlistNew : L)
  rw [ZlistImpl.view_new] at hview
  refine (congrArg Prod.fst hview).trans ?_
  rw [Prod.map_fst, h, Option.map_none]

/-- A learner with any lists, from `init_state` on. -/
lemma deliverAll_learned_view {L : Type} [ZlistImpl L CStr] (ip : IpBuffer) (lastLogged : ℚ)
    {ds : List Delivery} (hds : ∀ d ∈ ds, d.Regular) :
    Learned (initReplica ip lastLogged) ds
      ((deliverAll (initState ip lastLogged : FdReplicaOf L) ds).map FdReplicaOf.view id) := by
  rw [← deliverAll_view, view_initState]
  exact deliverAll_learned _ hds

/-- **What a learner holds.** After any sequence `ds` of deliveries from `init_state`, the list is
that of the most recent accepted value from another node, the instance number is that of the
last delivery that changed the list, and consecutive logged states differ. The next delivery `d`
logs a state exactly if it changes the list. If it does not it leaves the instance number and the
time alone, and a rejected value or one of the node's own leaves the list alone as well.

**Proof sketch.** The run lemma `FailureDetector.deliverAll_learned` and the step lemma
`FailureDetector.onDeliver_learnStep`, for the lists that can be seen. -/
theorem learner_holds_last_foreign {L : Type} [ZlistImpl L CStr] (ip : IpBuffer) (lastLogged : ℚ)
    (ds : List Delivery) (d : Delivery) (hds : ∀ e ∈ ds, e.Regular) (hd : d.Regular) :
    let run := deliverAll (initState ip lastLogged : FdReplicaOf L) ds
    let result := onDeliver d.env run.1 d.iid d.value
    let list := ZlistImpl.items run.1.paxosStateArray
    let list' := ZlistImpl.items result.1.paxosStateArray
    list = ((ds.filterMap (foreign ip.cstr)).getLast?).getD [] ∧
    run.1.instanceId = ((changes ip.cstr [] ds).getLast?.map Delivery.iid).getD 0 ∧
    (loggedStates run.2).IsChain (· ≠ ·) ∧
    list' = (((ds ++ [d]).filterMap (foreign ip.cstr)).getLast?).getD [] ∧
    (list' ≠ list → loggedStates result.2 = [list'] ∧
      result.1.instanceId = d.iid ∧ result.1.lastLoggedStateTimeMs = d.env.timeMs) ∧
    (list' = list → loggedStates result.2 = [] ∧ result.1.instanceId = run.1.instanceId ∧
      result.1.lastLoggedStateTimeMs = run.1.lastLoggedStateTimeMs) ∧
    ((deserializeHash d.value (zlistNew : L)).1 = none ∨
        (∃ m, decode d.value = some m ∧ m.sender = ip.cstr) →
      ZlistImpl.view result.1.paxosStateArray = ZlistImpl.view run.1.paxosStateArray ∧
      result.1.instanceId = run.1.instanceId ∧
      result.1.lastLoggedStateTimeMs = run.1.lastLoggedStateTimeMs) := by
  intro run result list list'
  have hrun : Learned (initReplica ip lastLogged) ds (run.map FdReplicaOf.view id) :=
    deliverAll_learned_view ip lastLogged hds
  have hip : run.1.view.currentNodeIp = ip := hrun.currentNodeIp
  have hstep := onDeliver_learnStep hd.locks run.1.view (hd.foreign_ne _)
  rw [hip, onDeliver_view] at hstep
  have hlist : list = Register.value (foreign ip.cstr) [] ds := hrun.items
  have hlist' : list' = (foreign ip.cstr d).getD list := hstep.items
  have hlogged : loggedStates run.2 =
      (changes ip.cstr [] ds).filterMap (foreign ip.cstr) := hrun.logged
  refine ⟨hlist, hrun.instanceId, ?_, ?_, fun hne => ?_, fun heq => ?_, fun hnone => ?_⟩
  · rw [hlogged]
    exact (Register.isChain_changes (foreign ip.cstr) [] ds).tail
  · have hitems := Register.value_concat (foreign ip.cstr) [] ds d
    rw [hlist', hlist]
    exact hitems.symm
  · obtain ⟨hiid, htime, hlog⟩ := hstep.changed hne
    exact ⟨hlog, hiid, htime⟩
  · obtain ⟨hiid, htime, hlog⟩ := hstep.unchanged heq
    exact ⟨hlog, hiid, htime⟩
  · have harray := hstep.ignored (foreign_eq_none (hnone.imp_left deserializeHash_rejects))
    obtain ⟨hiid, htime, -⟩ := hstep.unchanged (congrArg Zlist.items harray)
    exact ⟨harray, hiid, htime⟩

/-- The learner at `1` holds the list that `2` has sent. -/
theorem learner_holds_last_foreign_one :
    ∃ value, (deliverAll (initReplica (IpBuffer.set (CharArray.zero _) ipOne) 0)
        [⟨quietEnv, 7, value⟩]).1.paxosStateArray.items = [ipTwo.1] := by
  obtain ⟨value, hsubmitted, hdecode⟩ := exists_submitted_singleton ipTwo (CharArray.zero _)
  have hregular : Delivery.Regular ⟨quietEnv, 7, value⟩ :=
    ⟨fun _ => rfl, Or.inl hsubmitted.serialized⟩
  have hne : ipTwo.1 ≠ ipOne.1 := by decide
  have hforeign : foreign ipOne.1 ⟨quietEnv, 7, value⟩ = some [ipTwo.1] := by
    rw [foreign_eq hdecode, if_neg hne]
  refine ⟨value, (learner_holds_last_foreign (L := Zlist CStr)
    (IpBuffer.set (CharArray.zero _) ipOne) 0 [⟨quietEnv, 7, value⟩] ⟨quietEnv, 8, []⟩
    (by simpa using hregular) ⟨fun _ => rfl, Or.inr rfl⟩).1.trans ?_⟩
  rw [IpBuffer.cstr_set, List.filterMap_cons_some hforeign]
  rfl

/-! ### Agreement -/

/-- What a node is to learn from some deliveries: the list of the most recent value that was not
sent by itself. -/
def lastForeign (own : CStr) (ds : List Delivery) : Option (List CStr) :=
  (ds.filterMap (foreign own)).getLast?

/-- What a delivery writes depends on its value only. -/
lemma lastForeign_congr {own : CStr} {ds ds' : List Delivery}
    (h : ds.map Delivery.value = ds'.map Delivery.value) :
    lastForeign own ds = lastForeign own ds' := by
  have hfactor : foreign own = (fun value => (decode value).bind fun m =>
      if m.sender = own then none else some m.members) ∘ Delivery.value := rfl
  rw [lastForeign, lastForeign, hfactor, ← List.filterMap_map, ← List.filterMap_map, h]

/-- A learner's list is the most recent one from another node, and empty only without one. -/
lemma lastForeign_of_items {own : CStr} {ds : List Delivery} (hds : ∀ d ∈ ds, d.Regular)
    {l : List CStr} (h : (lastForeign own ds).getD [] = l) :
    lastForeign own ds = if l = [] then none else some l := by
  cases hlast : lastForeign own ds with
  | none =>
    rw [hlast, Option.getD_none] at h
    rw [if_pos h.symm]
  | some l' =>
    rw [hlast, Option.getD_some] at h
    obtain ⟨d, hd, hforeign⟩ := List.mem_filterMap.mp (List.mem_of_getLast? hlast)
    subst h
    rw [if_neg fun hnil => (hds d hd).foreign_ne own (hforeign.trans (congrArg some hnil))]

/-- **When two learners agree.** Let the nodes `a` and `b` be delivered the same values in the same
order, all submitted by replicas. Then their lists are equal exactly when the most recent value
that `a` has not sent and the most recent value that `b` has not sent carry the same list, or
neither exists. In particular they agree whenever the last value was sent by neither: then both
hold the list it carries.

**Proof sketch.** Each learner holds the most recent list from another node, by
`FailureDetector.deliverAll_learned`, and no submitted list is empty. -/
theorem agreement_iff_last_foreign {L : Type} [ZlistImpl L CStr] (a b : IpBuffer)
    (lastLoggedA lastLoggedB : ℚ) (dsA dsB : List Delivery)
    (hsame : dsA.map (fun d => (d.iid, d.value)) = dsB.map (fun d => (d.iid, d.value)))
    (hlocksA : ∀ d ∈ dsA, d.env.LocksSucceed) (hlocksB : ∀ d ∈ dsB, d.env.LocksSucceed)
    (hsubmitted : ∀ d ∈ dsA, Submitted d.value) :
    let learnerA := (deliverAll (initState a lastLoggedA : FdReplicaOf L) dsA).1
    let learnerB := (deliverAll (initState b lastLoggedB : FdReplicaOf L) dsB).1
    let listA := ZlistImpl.items learnerA.paxosStateArray
    let listB := ZlistImpl.items learnerB.paxosStateArray
    (listA = listB ↔ lastForeign a.cstr dsA = lastForeign b.cstr dsA) ∧
    ∀ d m, dsA.getLast? = some d → decode d.value = some m →
      m.sender ≠ a.cstr → m.sender ≠ b.cstr → listA = m.members ∧ listB = m.members := by
  intro learnerA learnerB listA listB
  have hvalues : dsA.map Delivery.value = dsB.map Delivery.value := by
    have hsnd := congrArg (List.map Prod.snd) hsame
    rw [List.map_map, List.map_map] at hsnd
    exact hsnd
  have hregularA : ∀ d ∈ dsA, d.Regular :=
    fun d hd => ⟨hlocksA d hd, Or.inl (hsubmitted d hd).serialized⟩
  have hregularB : ∀ d ∈ dsB, d.Regular := by
    intro d hd
    have hmem : d.value ∈ dsA.map Delivery.value := hvalues ▸ List.mem_map_of_mem hd
    obtain ⟨e, he, heq⟩ := List.mem_map.mp hmem
    exact ⟨hlocksB d hd, Or.inl (heq ▸ (hsubmitted e he).serialized)⟩
  have hA : (lastForeign a.cstr dsA).getD [] = listA :=
    (deliverAll_learned_view (L := L) a lastLoggedA hregularA).items.symm
  have hB : (lastForeign b.cstr dsA).getD [] = listB := by
    rw [lastForeign_congr hvalues]
    exact (deliverAll_learned_view (L := L) b lastLoggedB hregularB).items.symm
  refine ⟨⟨fun heq => ?_, fun heq => ?_⟩, fun d m hlast hm hma hmb => ?_⟩
  · rw [lastForeign_of_items hregularA hA, lastForeign_of_items hregularA hB, heq]
  · rw [← hA, ← hB, heq]
  · have hwrites : ∀ own, m.sender ≠ own → (lastForeign own dsA).getD [] = m.members := by
      intro own hown
      refine Register.value_eq_of_getLast (foreign own) hlast ?_
      rw [foreign_eq hm, if_neg hown]
    exact ⟨hA.symm.trans (hwrites _ hma), hB.symm.trans (hwrites _ hmb)⟩

/-- Two nodes that are delivered one value sent by a third agree on its list. -/
theorem agreement_iff_last_foreign_three :
    ∃ value, (deliverAll (initReplica (IpBuffer.set (CharArray.zero _) ipOne) 0)
        [⟨quietEnv, 1, value⟩]).1.paxosStateArray.items = [ipThree.1] ∧
      (deliverAll (initReplica (IpBuffer.set (CharArray.zero _) ipTwo) 0)
        [⟨quietEnv, 1, value⟩]).1.paxosStateArray.items = [ipThree.1] := by
  obtain ⟨value, hsubmitted, hdecode⟩ := exists_submitted_singleton ipThree (CharArray.zero _)
  have hlocks : ∀ d ∈ [Delivery.mk quietEnv 1 value], d.env.LocksSucceed := by simp [quietEnv_locks]
  have hne₁ : ipThree.1 ≠ ipOne.1 := by decide
  have hne₂ : ipThree.1 ≠ ipTwo.1 := by decide
  exact ⟨value, (agreement_iff_last_foreign (L := Zlist CStr)
    (IpBuffer.set (CharArray.zero _) ipOne) (IpBuffer.set (CharArray.zero _) ipTwo) 0 0
    [⟨quietEnv, 1, value⟩] [⟨quietEnv, 1, value⟩] rfl hlocks hlocks (by simpa using hsubmitted)).2
    _ _ rfl hdecode (by rwa [IpBuffer.cstr_set]) (by rwa [IpBuffer.cstr_set])⟩

/-- **Learners do not agree after every delivery**: a value that the node `1` has submitted is
ignored by its own learner, whose list stays empty, while the learner at `2` takes it over. -/
theorem learners_disagree_on_own_value :
    ¬ ∀ (a b : IpBuffer) (lastLoggedA lastLoggedB : ℚ) (dsA dsB : List Delivery),
      a.cstr ≠ b.cstr →
      dsA.map (fun d => (d.iid, d.value)) = dsB.map (fun d => (d.iid, d.value)) →
      (∀ d ∈ dsA, d.env.LocksSucceed) → (∀ d ∈ dsB, d.env.LocksSucceed) →
      (∀ d ∈ dsA, Submitted d.value) →
      (deliverAll (initReplica a lastLoggedA) dsA).1.paxosStateArray.items =
        (deliverAll (initReplica b lastLoggedB) dsB).1.paxosStateArray.items := by
  intro h
  obtain ⟨value, hsubmitted, hdecode⟩ := exists_submitted_singleton ipOne (CharArray.zero _)
  set a : IpBuffer := IpBuffer.set (CharArray.zero _) ipOne with ha
  set b : IpBuffer := IpBuffer.set (CharArray.zero _) ipTwo with hb
  set ds : List Delivery := [⟨quietEnv, 1, value⟩] with hds
  have hlocks : ∀ d ∈ ds, d.env.LocksSucceed := by simp [hds, quietEnv_locks]
  have hregular : ∀ d ∈ ds, d.Regular := by
    simpa [hds] using ⟨quietEnv_locks, Or.inl hsubmitted.serialized⟩
  have hA : (deliverAll (initReplica a 0) ds).1.paxosStateArray.items = [] := by
    rw [(deliverAll_learned _ hregular).items]
    simp [hds, ha, Register.value, foreign, hdecode, initReplica]
    rfl
  have hB : (deliverAll (initReplica b 0) ds).1.paxosStateArray.items = [ipOne.1] := by
    rw [(deliverAll_learned _ hregular).items]
    simp [hds, hb, Register.value, foreign, hdecode, initReplica]
    decide
  have heq := h a b 0 0 ds ds (by rw [ha, hb, IpBuffer.cstr_set, IpBuffer.cstr_set]; decide) rfl
    hlocks hlocks (by simpa [hds] using hsubmitted)
  rw [hA, hB] at heq
  cases heq

end FailureDetector
