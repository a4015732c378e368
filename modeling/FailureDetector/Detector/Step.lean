import FailureDetector.Detector.Model
import FailureDetector.PaxosReplica.Submit
import FailureDetector.Timer.List

set_option relaxedAutoImplicit false
set_option autoImplicit false

/-!
# What a step of the detector does

The nodes table is seen as the map from addresses to timer ids. A heartbeat replaces the timer of
its sender by a new one, and joins the sender first if necessary; `handle_timeout` removes a node.
Both submit the table exactly when its keys change. Every invariant of the detector follows from
the step lemmas of this module.

## Main definitions

* `FailureDetector.Detector.Wf` — tables with distinct keys that contain the node itself.
* `FailureDetector.Detector.timerOf` — the timer of an address.
* `FailureDetector.Detector.TimersOwned` — every peer's timer is in the timer list.
* `FailureDetector.Restarted`, `FailureDetector.HeartbeatStep`, `FailureDetector.TimeoutStep` —
  what starting a timer, a heartbeat and `handle_timeout` do.

## Main results

* `FailureDetector.heartbeat_step` — a heartbeat is a `FailureDetector.HeartbeatStep`.
* `FailureDetector.handleTimeout_step` — `handle_timeout` is a `FailureDetector.TimeoutStep`.
* `FailureDetector.receive_step` — an iteration of the receive loop is a
  `FailureDetector.ReceiveStep`.
-/

namespace FailureDetector

open CString Wire

namespace Detector

/-- The table has distinct keys and contains the node itself. -/
structure Wf (d : Detector) : Prop where
  nodup : (ipKeys d.nodes).Nodup
  hostname_mem : d.hostname ∈ ipKeys d.nodes

/-- The timer id stored for an address. -/
def timerOf (d : Detector) (ip : IpString) : Option ℕ :=
  (HashTable.find NodeStruct.ipaddress d.nodes ip).map NodeStruct.timerId

/-- The timer list, in which every peer that has a timer finds its own. -/
structure TimersOwned (d : Detector) (timers : List (ℕ × Timer)) : Prop where
  lists : d.timers.Lists timers
  owned : ∀ ip id, ip ≠ d.hostname → d.timerOf ip = some id →
    id = 0 ∨ ∃ timer, (id, timer) ∈ timers ∧ timer.userData = ip

/-- The timer that a heartbeat stops is in the list, if there is one. -/
lemma TimersOwned.stopped {d : Detector} {timers : List (ℕ × Timer)} (h : d.TimersOwned timers)
    {ip : IpString} (hip : ip ≠ d.hostname) :
    (d.timerOf ip).getD 0 = 0 ∨ (d.timerOf ip).getD 0 ∈ timers.map Prod.fst := by
  cases hid : d.timerOf ip with
  | none => exact Or.inl rfl
  | some id =>
    rcases h.owned ip id hip hid with h0 | ⟨timer, hmem, -⟩
    · exact Or.inl h0
    · exact Or.inr (List.mem_map_of_mem hmem)

/-- What a step leaves alone: the node's own address, and the learner. -/
structure Frame (d d' : Detector) : Prop where
  hostname : d'.hostname = d.hostname
  running : d'.running = d.running
  silenced : d'.silenced = d.silenced
  currentNodeIp : d'.replica.currentNodeIp = d.replica.currentNodeIp
  paxosStateArray : d'.replica.paxosStateArray = d.replica.paxosStateArray

/-- Doing nothing leaves everything alone. -/
lemma Frame.refl (d : Detector) : d.Frame d := ⟨rfl, rfl, rfl, rfl, rfl⟩

/-- An address without a node has no timer. -/
lemma timerOf_eq_none {d : Detector} {ip : IpString} :
    d.timerOf ip = none ↔ ip ∉ ipKeys d.nodes := by
  rw [timerOf, Option.map_eq_none_iff, HashTable.find_eq_none]

end Detector

/-- The value submitted by a step that ends in the state `d'`. -/
def Submits (d d' : Detector) (value : Bytes) : Prop :=
  ∃ uuid, decode value = some ⟨d.replica.currentNodeIp.cstr, uuid, membership d'.nodes⟩

/-- The ids of the timers that a sequence of actions starts for an address. -/
def timersStarted (events : List Event) (ip : IpString) : List ℕ :=
  events.filterMap fun event => match event with
    | .startTimer timerId ip' => if ip' = ip then some timerId else none
    | _ => none

/-- The estimate that a heartbeat makes. -/
def heartbeatMetadata (env : DetectorEnv) (d : Detector) (ip : IpString) : AdaptiveTimeoutStruct :=
  match HashTable.find NodeStruct.ipaddress d.nodes ip with
  | none => estimateNextDelay (initAdaptiveTimeoutStruct env.unset env.currentTimeMs)
      env.currentTimeMs
  | some node => estimateNextDelay node.timeoutMetadata env.currentTimeMs

/-- The timeout that a heartbeat sets. -/
def heartbeatTimeout (env : DetectorEnv) (d : Detector) (ip : IpString) : ℕ :=
  unsignedOfDouble env.outOfRange (heartbeatMetadata env d ip).nextTimeout

/-- The timers after an attempt to start one for `ip`, where `rest` are the timers before it: the
id of the new timer, or `0`, and the timers. -/
inductive Restarted (env : TimerEnv) (t t' : TimerManager) (rest : List (ℕ × Timer))
    (ip : IpString) (intervalMs : ℕ) : ℕ → List (ℕ × Timer) → Prop
  /-- No timer could be started. -/
  | failed (refused : ¬ TimerManager.Allocates env t) (lists : t'.Lists rest)
      (started : t'.started = t.started) (frame : ∀ p ∈ rest, t'.fds p.2.fd = t.fds p.2.fd) :
      Restarted env t t' rest ip intervalMs 0 rest
  /-- There is a new single-shot timer with a new id. -/
  | started (timer : Timer) (lists : t'.Lists ((t.started + 1, timer) :: rest))
      (userData : timer.userData = ip)
      (fds : t'.fds timer.fd = some (timerSpec intervalMs .timerSingleShot))
      (started : t'.started = t.started + 1)
      (frame : ∀ p ∈ rest, t'.fds p.2.fd = t.fds p.2.fd) :
      Restarted env t t' rest ip intervalMs (t.started + 1) ((t.started + 1, timer) :: rest)

/-- What a heartbeat from `ip` does: `timerId` and `timers'` are the new timer of `ip` and the
timers after it, and `timers` are the timers before it. What is submitted depends on the locks. -/
structure HeartbeatStep (env : DetectorEnv) (d d' : Detector) (timers : List (ℕ × Timer))
    (ip : IpString) (events : List Event) (timerId : ℕ) (timers' : List (ℕ × Timer)) : Prop where
  frame : d.Frame d'
  nodup : (ipKeys d'.nodes).Nodup
  timerOf : d'.timerOf = Function.update d.timerOf ip (some timerId)
  restarted : Restarted env.toTimerEnv d.timers d'.timers
    (timers.filter fun p => p.1 ≠ (d.timerOf ip).getD 0) ip (heartbeatTimeout env d ip) timerId
    timers'
  acts : ∃ rest, events = .startTimer timerId ip :: rest ∧ ∀ e ∈ rest, e.OfSubmit
  refreshed : ip ∈ ipKeys d.nodes →
    ipKeys d'.nodes = ipKeys d.nodes ∧ events = [.startTimer timerId ip]
  joined : ip ∉ ipKeys d.nodes → (ipKeys d'.nodes).Perm (ip :: ipKeys d.nodes) ∧
    (env.lock .detectedStatesHashmapLock = true → ∃ value uuid, Submits d d' value ∧
      events = [.startTimer timerId ip, .lock .detectedStatesHashmapLock, .detectedChange uuid,
        .unlock .detectedStatesHashmapLock, .submit value]) ∧
    (env.lock .detectedStatesHashmapLock = false → submissions events = [])

/-- What `handle_timeout` does for the address `ip`. -/
inductive TimeoutStep (env : DetectorEnv) (d : Detector) (ip : IpString) :
    Detector → List Event → Prop
  /-- The lock is not granted. -/
  | refused (hlock : env.lock .hashmapLock = false) :
      TimeoutStep env d ip d [.printf "ERROR: can't get mutex \n"]
  /-- There is no such node. -/
  | absent (hip : ip ∉ ipKeys d.nodes) :
      TimeoutStep env d ip d [.lock .hashmapLock, .unlock .hashmapLock]
  /-- The node is removed. -/
  | removed (d' : Detector) (events : List Event) (hlock : env.lock .hashmapLock = true)
      (hip : ip ∈ ipKeys d.nodes) (frame : d.Frame d') (timers : d'.timers = d.timers)
      (nodup : (ipKeys d'.nodes).Nodup)
      (keys : (ipKeys d'.nodes).Perm ((ipKeys d.nodes).filter (· ≠ ip)))
      (timerOf : d'.timerOf = Function.update d.timerOf ip none)
      (starts : ∀ ip', timersStarted events ip' = [])
      (submits : env.lock .detectedStatesHashmapLock = true → ∃ nextTimeout value uuid,
        Submits d d' value ∧ events = [.lock .hashmapLock, .timerExpired ip nextTimeout,
          .lock .detectedStatesHashmapLock, .detectedChange uuid,
          .unlock .detectedStatesHashmapLock, .submit value, .unlock .hashmapLock]) :
      TimeoutStep env d ip d' events

/-- Starting a timer adds it to the list, or fails. -/
lemma startTimer_restarted {t : TimerManager} {rest : List (ℕ × Timer)} (h : t.Lists rest)
    (env : TimerEnv) (intervalMs : ℕ) (ip : IpString) :
    ∃ timers', Restarted env t (startTimer env t intervalMs .timerSingleShot ip).1 rest ip
      intervalMs (startTimer env t intervalMs .timerSingleShot ip).2 timers' := by
  rcases h.startTimer env intervalMs .timerSingleShot ip with
    ⟨hrefused, heq⟩ | ⟨t', timer, heq, hlists, huser, hstarted, hfds, hframe⟩
  · rw [heq]
    exact ⟨_, .failed hrefused h rfl fun _ _ => rfl⟩
  · rw [heq]
    exact ⟨_, .started timer hlists huser hfds hstarted hframe⟩

namespace Restarted

variable {env : TimerEnv} {t t' : TimerManager} {rest timers' : List (ℕ × Timer)} {ip : IpString}
  {intervalMs timerId : ℕ}

/-- Restarting a timer after another one has been stopped, in terms of the state before both. -/
lemma of_stopped {t₁ : TimerManager}
    (h : Restarted env t₁ t' rest ip intervalMs timerId timers') (hstarted : t₁.started = t.started)
    (hframe : ∀ p ∈ rest, t₁.fds p.2.fd = t.fds p.2.fd)
    (hclosed : ∀ fd, t.fds fd = none → t₁.fds fd = none) :
    Restarted env t t' rest ip intervalMs timerId timers' := by
  cases h with
  | failed refused lists started frame =>
    refine .failed (fun ⟨hmalloc, fd, hfd, hnone⟩ => refused ⟨hmalloc, fd, hfd, hclosed fd hnone⟩)
      lists (started.trans hstarted) fun p hp => (frame p hp).trans (hframe p hp)
  | started timer lists userData fds started frame =>
    rw [hstarted] at lists started ⊢
    exact .started timer lists userData fds started
      fun p hp => (frame p hp).trans (hframe p hp)

/-- Starting a timer keeps what is true of the address and the setting of every timer, if it is true
of those of the new timer. -/
lemma forall_timers (h : Restarted env t t' rest ip intervalMs timerId timers')
    (P : IpString → Option Itimerspec → Prop) (hrest : ∀ p ∈ rest, P p.2.userData (t.fds p.2.fd))
    (hnew : P ip (some (timerSpec intervalMs .timerSingleShot))) :
    ∀ p ∈ timers', P p.2.userData (t'.fds p.2.fd) := by
  cases h with
  | failed refused lists started frame =>
    intro p hp
    rw [frame p hp]
    exact hrest p hp
  | started timer lists userData fds started frame =>
    intro p hp
    rcases List.mem_cons.mp hp with rfl | hp
    · rw [userData, fds]
      exact hnew
    · rw [frame p hp]
      exact hrest p hp

/-- The number of timers that have been started does not decrease. -/
lemma started_le (h : Restarted env t t' rest ip intervalMs timerId timers') :
    t.started ≤ t'.started := by
  cases h with
  | failed refused lists started frame => exact started.ge
  | started timer lists userData fds started frame => omega

end Restarted

/-- Submitting starts no timer. -/
lemma timersStarted_of_ofSubmit {events : List Event} (h : ∀ e ∈ events, e.OfSubmit)
    (ip : IpString) : timersStarted events ip = [] := by
  refine List.filterMap_eq_nil_iff.mpr fun e he => ?_
  cases e with
  | startTimer timerId ip' => exact (h _ he).elim
  | _ => rfl

variable {env : DetectorEnv} {d : Detector} {timers : List (ℕ × Timer)} {ip : IpString}

/-- The first heartbeat of a node joins it. -/
lemma heartbeat_join (hwf : d.Wf) (htimers : d.TimersOwned timers) (hnew : ip ∉ ipKeys d.nodes) :
    ∃ d' events timerId timers', heartbeat env d ip = some (d', events) ∧
      HeartbeatStep env d d' timers ip events timerId timers' := by
  have hfind := (HashTable.find_eq_none NodeStruct.ipaddress).mpr hnew
  set metadata := estimateNextDelay (initAdaptiveTimeoutStruct env.unset env.currentTimeMs)
    env.currentTimeMs with hmetadata
  set started := startTimer env.toTimerEnv d.timers
    (unsignedOfDouble env.outOfRange metadata.nextTimeout) .timerSingleShot ip with hstarted
  set node : NodeStruct := ⟨ip, env.currentTimeMs, started.2, metadata⟩ with hnode
  obtain ⟨replica', table, events, hsubmit, hdo⟩ := paxosSerializeAndSubmit_step env.toPaxosEnv
    d.replica (HashTable.add d.nodes node)
    (List.append_ne_nil_of_right_ne_nil _ (List.cons_ne_nil _ _))
  have hkeys : (ipKeys (HashTable.add d.nodes node)).Perm (ip :: ipKeys d.nodes) := by
    rw [ipKeys, HashTable.keys_add]
    exact List.perm_append_singleton _ _
  have hnodup : (ipKeys (HashTable.add d.nodes node)).Nodup :=
    hkeys.nodup_iff.mpr (List.nodup_cons.mpr ⟨hnew, hwf.nodup⟩)
  have hkeys' : (ipKeys table).Perm (ipKeys (HashTable.add d.nodes node)) := hdo.perm.map _
  have hestimate : heartbeatMetadata env d ip = metadata := by rw [heartbeatMetadata, hfind]
  obtain ⟨timers', hrestarted⟩ := startTimer_restarted htimers.lists env.toTimerEnv
    (unsignedOfDouble env.outOfRange metadata.nextTimeout) ip
  rw [← hstarted] at hrestarted
  refine ⟨{ d with nodes := table, timers := started.1, replica := replica' },
    .startTimer started.2 ip :: events, started.2, timers', ?_, ?_⟩
  · simp only [heartbeat, hfind, ← hmetadata, ← hstarted, ← hnode, hsubmit, Option.getD_some]
  · refine ⟨⟨rfl, rfl, rfl, hdo.currentNodeIp, hdo.paxosStateArray⟩, hkeys'.nodup_iff.mpr hnodup,
      ?_, ?_, ⟨events, rfl, hdo.acts⟩, fun hmem => absurd hmem hnew,
      fun _ => ⟨hkeys'.trans hkeys, fun hlock => ?_, hdo.refused⟩⟩
    · funext ip'
      rw [Detector.timerOf, HashTable.find_perm _ hnodup hdo.perm, HashTable.find_add _ hnew]
      by_cases heq : ip' = ip
      · rw [heq, if_pos rfl, Function.update_self, Option.map_some]
      · rw [if_neg heq, Function.update_of_ne heq, Detector.timerOf]
    · have hnone : d.timerOf ip = none := Detector.timerOf_eq_none.mpr hnew
      have hrest : (timers.filter fun p => p.1 ≠ (d.timerOf ip).getD 0) = timers := by
        rw [hnone]
        exact List.filter_eq_self.mpr fun p hp => decide_eq_true (htimers.lists.id_ne_zero hp)
      rw [hrest, heartbeatTimeout, hestimate]
      exact hrestarted
    · obtain ⟨value, hdecode, rfl⟩ := hdo.submits hlock
      exact ⟨value, zuuidStr env.uuid, ⟨env.uuid, hdecode⟩, rfl⟩

/-- Any other heartbeat of a node restarts its timer. -/
lemma heartbeat_refresh (hwf : d.Wf) (htimers : d.TimersOwned timers) (hip : ip ≠ d.hostname)
    (hmem : ip ∈ ipKeys d.nodes) :
    ∃ d' events timerId timers', heartbeat env d ip = some (d', events) ∧
      HeartbeatStep env d d' timers ip events timerId timers' := by
  obtain ⟨node, hfind⟩ : ∃ node, HashTable.find NodeStruct.ipaddress d.nodes ip = some node := by
    refine Option.ne_none_iff_exists'.mp fun hnone => ?_
    exact (HashTable.find_eq_none NodeStruct.ipaddress).mp hnone hmem
  have htimer : d.timerOf ip = some node.timerId := by rw [Detector.timerOf, hfind, Option.map_some]
  have hid := htimers.stopped hip
  rw [htimer, Option.getD_some] at hid
  obtain ⟨t₁, hstop, hlists, hstarted₁, hframe₁, hclosed₁⟩ := htimers.lists.stopTimer hid
  set metadata := estimateNextDelay node.timeoutMetadata env.currentTimeMs with hmetadata
  set started := startTimer env.toTimerEnv t₁
    (unsignedOfDouble env.outOfRange metadata.nextTimeout) .timerSingleShot ip with hstarted
  set nodes := HashTable.update NodeStruct.ipaddress d.nodes ip fun n =>
    ⟨n.ipaddress, env.currentTimeMs, started.2, metadata⟩ with hnodes
  have hkeys : ipKeys nodes = ipKeys d.nodes := HashTable.keys_update _ fun _ => rfl
  obtain ⟨timers', hrestarted⟩ := startTimer_restarted hlists env.toTimerEnv
    (unsignedOfDouble env.outOfRange metadata.nextTimeout) ip
  refine ⟨{ d with nodes := nodes, timers := started.1 }, [.startTimer started.2 ip], started.2,
    timers', ?_, ⟨⟨rfl, rfl, rfl, rfl, rfl⟩, hkeys ▸ hwf.nodup, ?_, ?_,
      ⟨[], rfl, fun e he => absurd he List.not_mem_nil⟩, fun _ => ⟨hkeys, rfl⟩,
      fun hnew => absurd hmem hnew⟩⟩
  · simp only [heartbeat, hfind, hstop, Option.bind_eq_bind, Option.bind_some, ← hmetadata,
      ← hstarted, ← hnodes]
  · funext ip'
    rw [Detector.timerOf, hnodes, HashTable.find_update]
    · by_cases heq : ip' = ip
      · rw [heq, if_pos rfl, hfind, Function.update_self]
        rfl
      · rw [if_neg heq, Function.update_of_ne heq, Detector.timerOf]
    · exact fun _ => rfl
  · rw [htimer, Option.getD_some, heartbeatTimeout, heartbeatMetadata, hfind]
    exact hrestarted.of_stopped hstarted₁ hframe₁ hclosed₁

/-- **What a heartbeat does.** -/
lemma heartbeat_step (hwf : d.Wf) (htimers : d.TimersOwned timers) (hip : ip ≠ d.hostname) :
    ∃ d' events timerId timers', heartbeat env d ip = some (d', events) ∧
      HeartbeatStep env d d' timers ip events timerId timers' := by
  by_cases hmem : ip ∈ ipKeys d.nodes
  · exact heartbeat_refresh hwf htimers hip hmem
  · exact heartbeat_join hwf htimers hmem

/-- **What `handle_timeout` does.** -/
lemma handleTimeout_step (env : DetectorEnv) (hwf : d.Wf) (hip : ip ≠ d.hostname) (timerId : ℕ) :
    TimeoutStep env d ip (handleTimeout env d timerId ip).1
      (handleTimeout env d timerId ip).2 := by
  cases hlock : env.lock .hashmapLock with
  | false =>
    simp only [handleTimeout, hlock, if_true]
    exact .refused hlock
  | true =>
    cases hfind : HashTable.find NodeStruct.ipaddress d.nodes ip with
    | none =>
      simp only [handleTimeout, hlock, Bool.true_eq_false, if_false, hfind]
      exact .absent ((HashTable.find_eq_none _).mp hfind)
    | some node =>
      have hmem := HashTable.mem_keys_of_find _ hfind
      have hdelete := HashTable.delete_eq_filter _ hwf.nodup hmem
      simp only [handleTimeout, hlock, Bool.true_eq_false, if_false, hfind]
      set nodes := HashTable.delete NodeStruct.ipaddress d.nodes ip
      have hkeys : ipKeys nodes = (ipKeys d.nodes).filter (· ≠ ip) :=
        HashTable.keys_delete _ hwf.nodup hmem
      have hnodup : (ipKeys nodes).Nodup := hkeys ▸ hwf.nodup.filter _
      have hne : nodes ≠ [] := by
        intro hnil
        have hhost : d.hostname ∈ ipKeys nodes := by
          rw [hkeys, List.mem_filter]
          exact ⟨hwf.hostname_mem, decide_eq_true hip.symm⟩
        rw [hnil] at hhost
        cases hhost
      obtain ⟨replica', table, events, hsubmit, hdo⟩ :=
        paxosSerializeAndSubmit_step env.toPaxosEnv d.replica nodes hne
      have hkeys' : (ipKeys table).Perm (ipKeys nodes) := hdo.perm.map _
      rw [hsubmit]
      refine .removed _ _ hlock hmem ⟨rfl, rfl, rfl, hdo.currentNodeIp, hdo.paxosStateArray⟩ rfl
        (hkeys'.nodup_iff.mpr hnodup) (hkeys ▸ hkeys') ?_ (fun ip' => ?_) fun hlock' => ?_
      · funext ip'
        rw [Detector.timerOf, Option.getD_some, HashTable.find_perm _ hnodup hdo.perm, hdelete,
          HashTable.find_filter]
        by_cases heq : ip' = ip
        · rw [heq, if_pos rfl, Function.update_self, Option.map_none]
        · rw [if_neg heq, Function.update_of_ne heq, Detector.timerOf]
      · rw [timersStarted, List.filterMap_append, List.filterMap_append, ← timersStarted,
          ← timersStarted, ← timersStarted, timersStarted_of_ofSubmit hdo.acts]
        rfl
      · obtain ⟨value, hdecode, rfl⟩ := hdo.submits hlock'
        exact ⟨node.timeoutMetadata.nextTimeout, value, zuuidStr env.uuid, ⟨env.uuid, hdecode⟩, rfl⟩

/-- A heartbeat adds its sender to the keys. -/
lemma HeartbeatStep.mem_keys {d' : Detector} {events : List Event} {timerId : ℕ}
    {timers' : List (ℕ × Timer)} (h : HeartbeatStep env d d' timers ip events timerId timers')
    (ip' : IpString) : ip' ∈ ipKeys d'.nodes ↔ ip' ∈ ipKeys d.nodes ∨ ip' = ip := by
  by_cases hmem : ip ∈ ipKeys d.nodes
  · rw [(h.refreshed hmem).1]
    refine ⟨Or.inl, fun hor => hor.elim id ?_⟩
    rintro rfl
    exact hmem
  · rw [(h.joined hmem).1.mem_iff, List.mem_cons, or_comm]

/-- A heartbeat keeps the table well formed. -/
lemma HeartbeatStep.wf {d' : Detector} {events : List Event} {timerId : ℕ}
    {timers' : List (ℕ × Timer)} (h : HeartbeatStep env d d' timers ip events timerId timers')
    (hwf : d.Wf) : d'.Wf := by
  refine ⟨h.nodup, ?_⟩
  rw [h.frame.hostname]
  exact (h.mem_keys _).mpr (Or.inl hwf.hostname_mem)

/-- A heartbeat takes no timer from a peer other than its sender. -/
lemma HeartbeatStep.mem_rest (htimers : d.TimersOwned timers) (hip : ip ≠ d.hostname)
    {ip' : IpString} {id : ℕ} {timer : Timer} (hmem : (id, timer) ∈ timers)
    (huser : timer.userData = ip') (hne : ip' ≠ ip) :
    (id, timer) ∈ timers.filter fun p => p.1 ≠ (d.timerOf ip).getD 0 := by
  rw [List.mem_filter, decide_eq_true_iff]
  refine ⟨hmem, fun heq => ?_⟩
  have h0 : id ≠ 0 := htimers.lists.id_ne_zero hmem
  cases hold : d.timerOf ip with
  | none =>
    rw [hold] at heq
    exact h0 heq
  | some old =>
    rw [hold, Option.getD_some] at heq
    rcases htimers.owned ip old hip hold with hzero | ⟨timer', hmem', huser'⟩
    · exact h0 (heq.trans hzero)
    · have hsame := htimers.lists.eq_of_id hmem hmem' heq
      cases hsame
      exact hne (huser.symm.trans huser')

/-- A heartbeat keeps every peer's timer in the list. -/
lemma HeartbeatStep.timersOwned {d' : Detector} {events : List Event} {timerId : ℕ}
    {timers' : List (ℕ × Timer)} (h : HeartbeatStep env d d' timers ip events timerId timers')
    (htimers : d.TimersOwned timers) (hip : ip ≠ d.hostname) : d'.TimersOwned timers' := by
  have hothers : ∀ ip' id, ip' ≠ d.hostname → ip' ≠ ip → d.timerOf ip' = some id →
      id = 0 ∨ ∃ timer, (id, timer) ∈ timers.filter (fun p => p.1 ≠ (d.timerOf ip).getD 0) ∧
        timer.userData = ip' := by
    intro ip' id hhost hne hid
    rcases htimers.owned ip' id hhost hid with h0 | ⟨timer, hmem, huser⟩
    · exact Or.inl h0
    · exact Or.inr ⟨timer, mem_rest htimers hip hmem huser hne, huser⟩
  have hrestarted := h.restarted
  have htimerOf := h.timerOf
  cases hrestarted with
  | failed refused lists started frame =>
    refine ⟨lists, fun ip' id hhost hid => ?_⟩
    rw [h.frame.hostname] at hhost
    rw [htimerOf] at hid
    by_cases heq : ip' = ip
    · rw [heq, Function.update_self, Option.some.injEq] at hid
      exact Or.inl hid.symm
    · rw [Function.update_of_ne heq] at hid
      exact hothers ip' id hhost heq hid
  | started timer lists userData fds started frame =>
    refine ⟨lists, fun ip' id hhost hid => ?_⟩
    rw [h.frame.hostname] at hhost
    rw [htimerOf] at hid
    by_cases heq : ip' = ip
    · rw [heq, Function.update_self, Option.some.injEq] at hid
      subst hid
      exact Or.inr ⟨timer, List.mem_cons_self, userData.trans heq.symm⟩
    · rw [Function.update_of_ne heq] at hid
      rcases hothers ip' id hhost heq hid with h0 | ⟨timer', hmem, huser⟩
      · exact Or.inl h0
      · exact Or.inr ⟨timer', List.mem_cons_of_mem _ hmem, huser⟩

/-- `handle_timeout` leaves everything but the table and the submissions alone. -/
lemma TimeoutStep.frame {d' : Detector} {events : List Event} (h : TimeoutStep env d ip d' events) :
    d.Frame d' := by
  cases h with
  | refused => exact Detector.Frame.refl d
  | absent => exact Detector.Frame.refl d
  | removed _ _ _ _ frame => exact frame

/-- `handle_timeout` keeps the table well formed. -/
lemma TimeoutStep.wf {d' : Detector} {events : List Event} (h : TimeoutStep env d ip d' events)
    (hwf : d.Wf) (hip : ip ≠ d.hostname) : d'.Wf := by
  cases h with
  | refused => exact hwf
  | absent => exact hwf
  | removed _ _ _ hmem frame _ nodup keys =>
    refine ⟨nodup, ?_⟩
    rw [frame.hostname, keys.mem_iff, List.mem_filter]
    exact ⟨hwf.hostname_mem, decide_eq_true hip.symm⟩

/-- `handle_timeout` leaves the timers alone. -/
lemma TimeoutStep.timersOwned {d' : Detector} {events : List Event}
    (h : TimeoutStep env d ip d' events) (htimers : d.TimersOwned timers) :
    d'.TimersOwned timers := by
  cases h with
  | refused => exact htimers
  | absent => exact htimers
  | removed _ _ _ hmem frame same nodup keys timerOf =>
    refine ⟨same ▸ htimers.lists, fun ip' id hhost hid => ?_⟩
    rw [frame.hostname] at hhost
    rw [timerOf] at hid
    by_cases heq : ip' = ip
    · rw [heq, Function.update_self] at hid
      cases hid
    · rw [Function.update_of_ne heq] at hid
      exact htimers.owned ip' id hhost hid

/-! ### Iterations of the receive loop -/

/-- The orchestrator's switch touches the flag only. -/
lemma orchestrate_eq (d : Detector) (received : CStr) :
    ∃ silenced, (orchestrate d received).1 = { d with silenced := silenced } := by
  unfold orchestrate
  split
  · exact ⟨true, rfl⟩
  · split
    · exact ⟨d.silenced, rfl⟩
    · exact ⟨d.silenced, rfl⟩

/-- The orchestrator's switch prints and sends a command to the speaker, or does nothing. -/
lemma orchestrate_events (d : Detector) (received : CStr) :
    (orchestrate d received).2 = [] ∨
      (orchestrate d received).2 = [.printf "Silencing.....\n", .silence] ∨
      (orchestrate d received).2 = [.printf "Restarting....\n", .publish] := by
  unfold orchestrate
  split
  · exact Or.inr (Or.inl rfl)
  · split
    · exact Or.inr (Or.inr rfl)
    · exact Or.inl rfl

/-- What an iteration of the receive loop does. -/
inductive ReceiveStep (env : DetectorEnv) (d : Detector) (timers : List (ℕ × Timer)) :
    Received → Detector → List Event → List (ℕ × Timer) → Prop
  /-- No message could be read. -/
  | failure :
      ReceiveStep env d timers .failure d [.printf "ERROR: message could not be read \n"] timers
  /-- The node's own beacon. -/
  | own (received : CStr) : ReceiveStep env d timers (.beacon d.hostname received) d [] timers
  /-- The lock is not granted, and the loop is left. -/
  | refused (ip : IpString) (received : CStr) (hip : ip ≠ d.hostname)
      (hlock : env.lock .hashmapLock = false) :
      ReceiveStep env d timers (.beacon ip received) { d with running := false }
        [.printf "ERROR: can't get mutex \n"] timers
  /-- A beacon from another node. -/
  | heartbeat (ip : IpString) (received : CStr) (d₁ : Detector) (events : List Event)
      (timerId : ℕ) (timers' : List (ℕ × Timer)) (hip : ip ≠ d.hostname)
      (hlock : env.lock .hashmapLock = true)
      (step : HeartbeatStep env d d₁ timers ip events timerId timers') :
      ReceiveStep env d timers (.beacon ip received) (orchestrate d₁ received).1
        (.lock .hashmapLock :: events ++ [.unlock .hashmapLock] ++ (orchestrate d₁ received).2)
        timers'

/-- **What an iteration of the receive loop does.** -/
lemma receive_step (env : DetectorEnv) (hwf : d.Wf) (htimers : d.TimersOwned timers)
    (input : Received) :
    ∃ d' events timers', receive env d input = some (d', events) ∧
      ReceiveStep env d timers input d' events timers' := by
  cases input with
  | failure => exact ⟨_, _, _, rfl, .failure⟩
  | beacon ip received =>
    by_cases hip : d.hostname = ip
    · subst hip
      exact ⟨d, [], timers, if_pos rfl, .own received⟩
    · cases hlock : env.lock .hashmapLock with
      | false =>
        refine ⟨_, _, timers, ?_, .refused ip received (Ne.symm hip) hlock⟩
        rw [receive, if_neg hip, if_pos hlock]
      | true =>
        obtain ⟨d₁, events, timerId, timers', heq, hstep⟩ :=
          heartbeat_step hwf htimers (Ne.symm hip)
        refine ⟨_, _, timers', ?_, .heartbeat ip received d₁ events timerId timers' (Ne.symm hip)
          hlock hstep⟩
        simp only [receive, if_neg hip, hlock, Bool.true_eq_false, if_false, heq,
          Option.bind_eq_bind, Option.bind_some]

namespace ReceiveStep

variable {d' : Detector} {timers' : List (ℕ × Timer)} {input : Received} {events : List Event}

/-- An iteration keeps the node's own address. -/
lemma hostname (h : ReceiveStep env d timers input d' events timers') :
    d'.hostname = d.hostname := by
  cases h with
  | failure => rfl
  | own => rfl
  | refused => rfl
  | heartbeat ip received d₁ _ _ _ hip hlock step =>
    obtain ⟨silenced, heq⟩ := orchestrate_eq d₁ received
    rw [heq]
    exact step.frame.hostname

/-- An iteration leaves the learner alone. -/
lemma learner (h : ReceiveStep env d timers input d' events timers') :
    d'.replica.currentNodeIp = d.replica.currentNodeIp ∧
      d'.replica.paxosStateArray = d.replica.paxosStateArray := by
  cases h with
  | failure => exact ⟨rfl, rfl⟩
  | own => exact ⟨rfl, rfl⟩
  | refused => exact ⟨rfl, rfl⟩
  | heartbeat ip received d₁ _ _ _ hip hlock step =>
    obtain ⟨silenced, heq⟩ := orchestrate_eq d₁ received
    rw [heq]
    exact ⟨step.frame.currentNodeIp, step.frame.paxosStateArray⟩

/-- An iteration keeps the table well formed. -/
lemma wf (h : ReceiveStep env d timers input d' events timers') (hwf : d.Wf) : d'.Wf := by
  cases h with
  | failure => exact hwf
  | own => exact hwf
  | refused => exact ⟨hwf.nodup, hwf.hostname_mem⟩
  | heartbeat ip received d₁ _ _ _ hip hlock step =>
    obtain ⟨silenced, heq⟩ := orchestrate_eq d₁ received
    rw [heq]
    exact ⟨(step.wf hwf).nodup, (step.wf hwf).hostname_mem⟩

/-- An iteration keeps every peer's timer in the list. -/
lemma timersOwned (h : ReceiveStep env d timers input d' events timers')
    (htimers : d.TimersOwned timers) : d'.TimersOwned timers' := by
  cases h with
  | failure => exact htimers
  | own => exact htimers
  | refused => exact ⟨htimers.lists, htimers.owned⟩
  | heartbeat ip received d₁ _ _ _ hip hlock step =>
    have howned := step.timersOwned htimers hip
    obtain ⟨silenced, heq⟩ := orchestrate_eq d₁ received
    rw [heq]
    exact ⟨howned.lists, howned.owned⟩

end ReceiveStep

end FailureDetector
