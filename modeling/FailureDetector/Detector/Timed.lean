import Mathlib.Algebra.Order.Monoid.WithTop
import FailureDetector.Detector.ArmedTimeout
import FailureDetector.Detector.TimerList
import FailureDetector.Lib.Deadline

set_option relaxedAutoImplicit false
set_option autoImplicit false

/-!
# The threads and the clock

Every step of the threads happens at a time. The receive loop reads the clock, and a descriptor can
be read only after the time that it has been set to has passed. A step takes no time itself, so a
timer is set at the time of the heartbeat that starts it.

Seen from the nodes and their timers the program is a system of watchdog timers with deadlines
(`Watchdog.TimedStep`): a heartbeat sets the deadline of its sender to the time that the estimator
predicts, and there is no deadline if the predicted timeout is below a millisecond, which leaves the
timer disarmed.

## Main definitions

* `FailureDetector.TimedThreads`, `FailureDetector.TimedThreads.step` — the threads with the clock.
* `FailureDetector.Estimated` — what is stored for a node, in terms of its heartbeats.
* `FailureDetector.TimedThreads.Inv` — the invariant.

## Main results

* `FailureDetector.Threads.find_step` — what a step does to the nodes.
* `FailureDetector.TimedThreads.step_sim` — every step is a step of the watchdog timers with
  deadlines.
* `FailureDetector.TimedThreads.run_inv` — the invariant holds after every run.
-/

namespace FailureDetector

open CString Runs Watchdog

/-! ### What a step does to the nodes -/

/-- The nodes that a lookup finds are those of the table. -/
lemma isSome_find {nodes : List NodeStruct} {ip : IpString} :
    (HashTable.find NodeStruct.ipaddress nodes ip).isSome = true ↔ ip ∈ ipKeys nodes := by
  rw [← not_iff_not, ← HashTable.find_eq_none NodeStruct.ipaddress]
  simp

/-- A heartbeat writes the node of its sender, and leaves the other nodes alone. -/
lemma heartbeat_find {env : DetectorEnv} {d d' : Detector} {ip : IpString} {events : List Event}
    (hwf : d.Wf) (h : heartbeat env d ip = some (d', events)) :
    (∃ timerId, HashTable.find NodeStruct.ipaddress d'.nodes ip =
        some ⟨ip, env.currentTimeMs, timerId, heartbeatMetadata env d ip⟩) ∧
      ∀ ip', ip' ≠ ip → HashTable.find NodeStruct.ipaddress d'.nodes ip' =
        HashTable.find NodeStruct.ipaddress d.nodes ip' := by
  rw [heartbeat] at h
  rw [heartbeatMetadata]
  cases hfind : HashTable.find NodeStruct.ipaddress d.nodes ip with
  | none =>
    have hnew : ip ∉ ipKeys d.nodes := (HashTable.find_eq_none _).mp hfind
    rw [hfind] at h
    dsimp only at h ⊢
    set node : NodeStruct := ⟨ip, env.currentTimeMs, (startTimer env.toTimerEnv d.timers
      (unsignedOfDouble env.outOfRange (estimateNextDelay
        (initAdaptiveTimeoutStruct env.unset env.currentTimeMs) env.currentTimeMs).nextTimeout)
      .timerSingleShot ip).2, estimateNextDelay
        (initAdaptiveTimeoutStruct env.unset env.currentTimeMs) env.currentTimeMs⟩ with hnode
    have hnodup : (ipKeys (HashTable.add d.nodes node)).Nodup := by
      rw [ipKeys, HashTable.keys_add, List.nodup_append]
      refine ⟨hwf.nodup, List.nodup_singleton _, fun x hx y hy => ?_⟩
      rw [List.mem_singleton.mp hy]
      rintro rfl
      exact hnew hx
    have hne : HashTable.add d.nodes node ≠ [] := by simp [HashTable.add]
    obtain ⟨replica', table, events', hsubmit, hdo⟩ :=
      paxosSerializeAndSubmit_step env.toPaxosEnv d.replica _ hne
    rw [hsubmit, Option.some.injEq, Prod.mk.injEq] at h
    have hnodes : ∀ ip', HashTable.find NodeStruct.ipaddress d'.nodes ip' =
        if ip' = ip then some node else HashTable.find NodeStruct.ipaddress d.nodes ip' := by
      intro ip'
      rw [← h.1]
      show HashTable.find NodeStruct.ipaddress table ip' = _
      rw [HashTable.find_perm _ hnodup hdo.perm, HashTable.find_add _ hnew]
    refine ⟨⟨node.timerId, ?_⟩, fun ip' hip' => ?_⟩
    · rw [hnodes, if_pos rfl]
    · rw [hnodes, if_neg hip']
  | some node =>
    have hkey : node.ipaddress = ip := (HashTable.find_eq_some _ hfind).2
    rw [hfind] at h
    obtain ⟨timers, -, h⟩ := Option.bind_eq_some_iff.mp h
    rw [Option.some.injEq, Prod.mk.injEq] at h
    rw [← h.1]
    dsimp only
    refine ⟨⟨(startTimer env.toTimerEnv timers
      (unsignedOfDouble env.outOfRange
        (estimateNextDelay node.timeoutMetadata env.currentTimeMs).nextTimeout)
      .timerSingleShot ip).2, ?_⟩, fun ip' hip' => ?_⟩
    · rw [HashTable.find_update]
      · rw [if_pos rfl, hfind, Option.map_some, hkey]
      · exact fun _ => rfl
    · rw [HashTable.find_update]
      · rw [if_neg hip']
      · exact fun _ => rfl

/-- `handle_timeout` leaves the nodes that it does not remove alone. -/
lemma handleTimeout_find (env : DetectorEnv) {d : Detector} (hwf : d.Wf) {ip ip' : IpString}
    (hip : ip ≠ d.hostname) (timerId : ℕ) {node : NodeStruct}
    (h : HashTable.find NodeStruct.ipaddress (handleTimeout env d timerId ip).1.nodes ip' =
      some node) :
    HashTable.find NodeStruct.ipaddress d.nodes ip' = some node := by
  rw [handleTimeout] at h
  split at h
  · exact h
  · cases hfind : HashTable.find NodeStruct.ipaddress d.nodes ip with
    | none =>
      rw [hfind] at h
      exact h
    | some n =>
      have hmem := HashTable.mem_keys_of_find _ hfind
      have hdelete := HashTable.delete_eq_filter _ hwf.nodup hmem
      have hnodup : (ipKeys (HashTable.delete NodeStruct.ipaddress d.nodes ip)).Nodup := by
        rw [ipKeys, HashTable.keys_delete _ hwf.nodup hmem]
        exact hwf.nodup.filter _
      have hne : HashTable.delete NodeStruct.ipaddress d.nodes ip ≠ [] := by
        intro hnil
        have hhost : d.hostname ∈ ipKeys (HashTable.delete NodeStruct.ipaddress d.nodes ip) := by
          rw [ipKeys, HashTable.keys_delete _ hwf.nodup hmem, List.mem_filter]
          exact ⟨hwf.hostname_mem, decide_eq_true hip.symm⟩
        rw [hnil] at hhost
        cases hhost
      obtain ⟨replica', table, events, hsubmit, hdo⟩ :=
        paxosSerializeAndSubmit_step env.toPaxosEnv d.replica _ hne
      rw [hfind] at h
      dsimp only at h
      rw [hsubmit] at h
      dsimp only at h
      rw [Option.getD_some, HashTable.find_perm _ hnodup hdo.perm, hdelete,
        HashTable.find_filter] at h
      split at h
      · cases h
      · exact h

/-! ### The clock -/

/-- The time until a descriptor with these settings expires, in milliseconds. -/
def Itimerspec.valueMs (spec : Itimerspec) : ℚ := spec.valueSec * 1000 + spec.valueNsec / 1000000

/-- The settings that `start_timer` makes expire after the interval. -/
lemma valueMs_timerSpec (intervalMs : ℕ) (type : TTimer) :
    (timerSpec intervalMs type).valueMs = intervalMs := by
  have hsplit : ((1000 * (intervalMs / 1000) + intervalMs % 1000 : ℕ) : ℚ) = intervalMs := by
    rw [Nat.div_add_mod]
  push_cast at hsplit
  cases type <;>
  · rw [Itimerspec.valueMs, timerSpec]
    push_cast
    linarith

/-- The descriptor of the timer that has been started last, if one has been started. -/
def startedFd (t t' : TimerManager) : Option ℕ :=
  if t'.started = t.started then none else (t'.heap t'.started).map fun node => node.data.fd

/-- The deadline that a heartbeat at `time` sets, where `interval` is the interval of the timer. A
timer with the interval `0` is not armed. -/
def deadlineAfter (time : ℚ) (interval : ℕ) : WithTop ℚ :=
  if interval = 0 then ⊤ else ((time + interval : ℚ) : WithTop ℚ)

namespace Threads

/-- The sender of the heartbeat that the step processes. -/
def heard (s : Threads) : ThreadAction → Option (DetectorEnv × IpString)
  | .receive env (.beacon ip _) =>
    if ip ≠ s.detector.hostname ∧ env.lock .hashmapLock = true then some (env, ip) else none
  | _ => none

/-- What `heard` means. -/
lemma heard_eq_some {s : Threads} {a : ThreadAction} {env : DetectorEnv} {ip : IpString} :
    s.heard a = some (env, ip) ↔ ∃ received, a = .receive env (.beacon ip received) ∧
      ip ≠ s.detector.hostname ∧ env.lock .hashmapLock = true := by
  constructor
  · intro h
    unfold heard at h
    split at h
    · next received =>
      split at h
      · next hcond =>
        cases h
        exact ⟨received, rfl, hcond⟩
      · cases h
    · cases h
  · rintro ⟨received, rfl, hcond⟩
    exact if_pos hcond

/-- The step processes a heartbeat of a node if it hears from it. -/
lemma hears_iff {s : Threads} {a : ThreadAction} {ip : IpString} :
    s.Hears a ip ↔ ∃ env, s.heard a = some (env, ip) := by
  simp only [heard_eq_some, Hears]

variable {hostname : IpString} {s s' : Threads} {timers : List (ℕ × Timer)} {a : ThreadAction}

/-- **What a step does to the nodes**: a heartbeat writes the node of its sender, and no other node
that is in the table afterwards has been touched. -/
lemma find_step (hinv : Inv hostname s timers) (hstep : s.step a = some s') :
    (∀ env ip, s.heard a = some (env, ip) → ∃ timerId,
      HashTable.find NodeStruct.ipaddress s'.detector.nodes ip =
        some ⟨ip, env.currentTimeMs, timerId, heartbeatMetadata env s.detector ip⟩) ∧
    ∀ ip node, (∀ env, s.heard a ≠ some (env, ip)) →
      HashTable.find NodeStruct.ipaddress s'.detector.nodes ip = some node →
      HashTable.find NodeStruct.ipaddress s.detector.nodes ip = some node := by
  cases a with
  | receive env input =>
    obtain ⟨history, hhistory, rfl⟩ := Option.map_eq_some_iff.mp hstep
    rw [History.step] at hhistory
    split at hhistory
    · obtain ⟨⟨d', events⟩, hreceive, rfl⟩ := Option.map_eq_some_iff.mp hhistory
      dsimp only
      cases input with
      | failure =>
        cases hreceive
        exact ⟨fun _ _ h => absurd h.symm (Option.some_ne_none _), fun _ _ _ h => h⟩
      | beacon ip received =>
        rw [receive] at hreceive
        split at hreceive
        · next hown =>
          cases hreceive
          refine ⟨fun env' ip' h => ?_, fun _ _ _ h => h⟩
          obtain ⟨_, heq, hip, -⟩ := heard_eq_some.mp h
          cases heq
          exact absurd hown.symm hip
        · next hown =>
          split at hreceive
          · next hlock =>
            cases hreceive
            refine ⟨fun env' ip' h => ?_, fun _ _ _ h => h⟩
            obtain ⟨_, heq, -, hgranted⟩ := heard_eq_some.mp h
            cases heq
            exact absurd (hlock.symm.trans hgranted) Bool.false_ne_true
          · next hlock =>
            obtain ⟨⟨d₁, events₁⟩, hheartbeat, h⟩ := Option.bind_eq_some_iff.mp hreceive
            obtain ⟨hsender, hothers⟩ := heartbeat_find hinv.wf hheartbeat
            obtain ⟨silenced, heq⟩ := orchestrate_eq d₁ received
            simp only [Option.some.injEq, Prod.mk.injEq] at h
            rw [← h.1, heq]
            refine ⟨fun env' ip' hheard => ?_, fun ip' node hheard hnode => ?_⟩
            · obtain ⟨_, heq', -⟩ := heard_eq_some.mp hheard
              cases heq'
              exact hsender
            · rw [← hothers ip' ?_]
              · exact hnode
              · rintro rfl
                refine hheard env (heard_eq_some.mpr ⟨received, rfl, Ne.symm hown, ?_⟩)
                simpa using hlock
    · cases hhistory
  | pickUp fd =>
    rw [step] at hstep
    split at hstep
    · cases hstep
    · obtain ⟨⟨t', found⟩, -, rfl⟩ := Option.map_eq_some_iff.mp hstep
      exact ⟨fun _ _ h => absurd h.symm (Option.some_ne_none _), fun _ _ _ h => h⟩
  | callback env =>
    obtain ⟨⟨timerId, ip⟩, hpending, rfl⟩ := Option.map_eq_some_iff.mp hstep
    have hip : ip ≠ s.detector.hostname :=
      hinv.hostname_eq ▸ (hinv.pending timerId ip hpending).1
    refine ⟨fun _ _ h => absurd h.symm (Option.some_ne_none _), fun ip' node _ hnode => ?_⟩
    exact handleTimeout_find env hinv.wf hip timerId hnode

/-- **A step that hears from no node** starts no timer. It leaves the settings of the timers alone,
except those of a timer that it picks up, which cannot expire any more. -/
lemma fds_of_not_hears (hinv : Inv hostname s timers) (hstep : s.step a = some s')
    (hears : ∀ ip, ¬ s.Hears a ip) :
    s'.detector.timers.started = s.detector.timers.started ∧ ∀ p ∈ timers,
      s'.detector.timers.fds p.2.fd = s.detector.timers.fds p.2.fd ∨
        (s'.pending = some (p.1, p.2.userData) ∧ ¬ s'.detector.timers.Armed p.2) := by
  cases a with
  | receive env input =>
    obtain ⟨history, hhistory, rfl⟩ := Option.map_eq_some_iff.mp hstep
    obtain ⟨d', events, timers', hreceive, hdo⟩ := receive_step env hinv.wf hinv.timersOwned input
    rw [History.step] at hhistory
    split at hhistory
    · rw [hreceive, Option.map_some, Option.some.injEq] at hhistory
      subst hhistory
      cases hdo with
      | failure => exact ⟨rfl, fun _ _ => Or.inl rfl⟩
      | own => exact ⟨rfl, fun _ _ => Or.inl rfl⟩
      | refused => exact ⟨rfl, fun _ _ => Or.inl rfl⟩
      | heartbeat ip received _ _ _ _ hip hlock =>
        exact absurd ⟨env, received, rfl, hip, hlock⟩ (hears ip)
    · cases hhistory
  | pickUp fd =>
    rw [step] at hstep
    split at hstep
    · cases hstep
    · obtain ⟨⟨t', found⟩, hread, rfl⟩ := Option.map_eq_some_iff.mp hstep
      obtain ⟨-, hstarted, hfound⟩ := hinv.timersOwned.lists.timerThreadRead hread
      refine ⟨hstarted, fun q hq => ?_⟩
      rcases hfound with ⟨-, hfds⟩ | ⟨p, hp, spec, rfl, hspec, -, hrearm, hfds⟩
      · exact Or.inl (hfds q hq)
      · by_cases hqp : q = p
        · subst hqp
          refine Or.inr ⟨rfl, ?_⟩
          rintro ⟨spec', hspec', harmed'⟩
          rw [show t'.fds q.2.fd = some spec.rearm from hrearm, Option.some.injEq] at hspec'
          rw [← hspec', hinv.singleShot q hq spec hspec] at harmed'
          cases harmed'
        · exact Or.inl (hfds q hq hqp)
  | callback env =>
    obtain ⟨⟨timerId, ip⟩, hpending, rfl⟩ := Option.map_eq_some_iff.mp hstep
    have hdo := handleTimeout_step env hinv.wf
      (hinv.hostname_eq ▸ (hinv.pending timerId ip hpending).1) timerId
    have htimers : (handleTimeout env s.detector timerId ip).1.timers = s.detector.timers := by
      generalize (handleTimeout env s.detector timerId ip).1 = d',
        (handleTimeout env s.detector timerId ip).2 = events at hdo
      cases hdo with
      | refused => rfl
      | absent => rfl
      | removed _ _ _ _ _ same => exact same
    refine ⟨congrArg TimerManager.started htimers, fun p _ => Or.inl ?_⟩
    exact congrFun (congrArg TimerManager.fds htimers) p.2.fd

end Threads

/-- The state of the program with its two threads and the clock. No step depends on the last two
fields, which record what has happened. -/
structure TimedThreads extends Threads where
  /-- The time of the last step. -/
  now : ℚ
  /-- When the settings of a descriptor were made. -/
  setAt : ℕ → ℚ
  /-- When the heartbeats of a node were processed since it has joined. -/
  beats : IpString → List ℚ
  /-- The deadline that the last heartbeat of a node has set. -/
  deadline : IpString → WithTop ℚ

/-- A step of one of the threads, at a time. -/
structure TimedAction where
  time : ℚ
  act : ThreadAction

namespace TimedThreads

/-- The state in which the receive loop starts, at the time `now`. -/
def start (hostname : IpString) (unset : NodeStruct) (currentNodeIp : IpBuffer)
    (lastLogged now : ℚ) :
    TimedThreads where
  toThreads := Threads.start hostname unset currentNodeIp lastLogged
  now := now
  setAt := fun _ => now
  beats := fun _ => []
  deadline := fun _ => ⊤

/-- The clock allows the step: what the receive loop reads is the time, and a descriptor that is
read has expired. -/
def allows (s : TimedThreads) (a : TimedAction) : Bool :=
  match a.act with
  | .receive env _ => env.currentTimeMs = a.time
  | .pickUp fd => (s.detector.timers.fds fd).all fun spec => s.setAt fd + spec.valueMs ≤ a.time
  | .callback _ => true

/-- One step. -/
def step (s : TimedThreads) (a : TimedAction) : Option TimedThreads :=
  if s.now ≤ a.time ∧ s.allows a = true then
    (s.toThreads.step a.act).map fun threads =>
      { toThreads := threads
        now := a.time
        setAt :=
          match startedFd s.detector.timers threads.detector.timers with
          | none => s.setAt
          | some fd => Function.update s.setAt fd a.time
        beats := fun ip =>
          if (HashTable.find NodeStruct.ipaddress threads.detector.nodes ip).isSome then
            match s.heard a.act with
            | none => s.beats ip
            | some (_, ip') => if ip' = ip then s.beats ip ++ [a.time] else s.beats ip
          else []
        deadline :=
          match s.heard a.act with
          | none => s.deadline
          | some (env, ip) => Function.update s.deadline ip
            (deadlineAfter a.time (heartbeatTimeout env s.detector ip)) }
  else none

/-- The watchdog timers of the nodes with their deadlines, where `timers` is the timer list. -/
def watch (s : TimedThreads) (timers : List (ℕ × Timer)) : TimedWatch IpString (WithTop ℚ) where
  watch := s.toThreads.watch timers
  due id :=
    match (timers.find? fun p => p.1 = id).bind fun p =>
      (s.detector.timers.fds p.2.fd).map fun spec => s.setAt p.2.fd + spec.valueMs with
    | none => ⊤
    | some time => (time : WithTop ℚ)
  deadline := s.deadline

variable {hostname : IpString} {s s' : TimedThreads} {timers timers' : List (ℕ × Timer)}
  {a : TimedAction}

/-- What a step does. -/
lemma step_eq_some (hstep : s.step a = some s') :
    s.now ≤ a.time ∧ s.allows a = true ∧ s.toThreads.step a.act = some s'.toThreads ∧
      s'.now = a.time ∧
      (s'.setAt = match startedFd s.detector.timers s'.detector.timers with
        | none => s.setAt
        | some fd => Function.update s.setAt fd a.time) ∧
      (s'.beats = fun ip =>
        if (HashTable.find NodeStruct.ipaddress s'.detector.nodes ip).isSome then
          match s.heard a.act with
          | none => s.beats ip
          | some (_, ip') => if ip' = ip then s.beats ip ++ [a.time] else s.beats ip
        else []) ∧
      s'.deadline = match s.heard a.act with
        | none => s.deadline
        | some (env, ip) => Function.update s.deadline ip
          (deadlineAfter a.time (heartbeatTimeout env s.detector ip)) := by
  rw [step] at hstep
  split at hstep
  · next hcond =>
    obtain ⟨threads, hthreads, rfl⟩ := Option.map_eq_some_iff.mp hstep
    exact ⟨hcond.1, hcond.2, hthreads, rfl, rfl, rfl, rfl⟩
  · cases hstep

/-- When a timer of the list is due. -/
lemma due_of_mem (hlists : s.detector.timers.Lists timers) {p : ℕ × Timer} (hp : p ∈ timers)
    {spec : Itimerspec} (hspec : s.detector.timers.fds p.2.fd = some spec) :
    (s.watch timers).due p.1 = ((s.setAt p.2.fd + spec.valueMs : ℚ) : WithTop ℚ) := by
  have hfind : (timers.find? fun q => q.1 = p.1) = some p := by
    cases h : timers.find? fun q => decide (q.1 = p.1) with
    | none => exact absurd (by simp) (List.find?_eq_none.mp h p hp)
    | some q =>
      have hq : q.1 = p.1 := by simpa using List.find?_some h
      rw [hlists.eq_of_id (List.mem_of_find?_eq_some h) hp hq]
  rw [watch]
  dsimp only
  rw [hfind, Option.bind_some, hspec, Option.map_some]

/-- A timer whose settings have been left alone is due when it was. -/
lemma due_eq (hlists : s.detector.timers.Lists timers) (hlists' : s'.detector.timers.Lists timers')
    {p : ℕ × Timer} (hp : p ∈ timers) (hp' : p ∈ timers') (harmed : s'.detector.timers.Armed p.2)
    (hfds : s'.detector.timers.fds p.2.fd = s.detector.timers.fds p.2.fd)
    (hset : s'.setAt p.2.fd = s.setAt p.2.fd) :
    (s'.watch timers').due p.1 = (s.watch timers).due p.1 := by
  obtain ⟨spec, hspec, -⟩ := harmed
  rw [due_of_mem hlists' hp' hspec, due_of_mem hlists hp (hfds ▸ hspec), hset]

/-- The descriptor of a timer that has just been started. -/
lemma startedFd_of_started {t t' : TimerManager} {timer : Timer} {rest : List (ℕ × Timer)}
    (hlists : t'.Lists ((t.started + 1, timer) :: rest)) (hstarted : t'.started = t.started + 1) :
    startedFd t t' = some timer.fd := by
  obtain ⟨-, n, hn, hdata, -⟩ := hlists.chain.node_of_cons
  rw [startedFd, if_neg (by omega), hstarted, hn, Option.map_some, hdata]

/-- If no timer has been started, no settings have been made. -/
lemma setAt_of_not_started (hstep : s.step a = some s')
    (hstarted : s'.detector.timers.started = s.detector.timers.started) : s'.setAt = s.setAt := by
  obtain ⟨-, -, -, -, hset, -⟩ := step_eq_some hstep
  rw [hset, startedFd, if_pos hstarted]

/-- The settings of other timers are made when they were. -/
lemma setAt_of_started (hstep : s.step a = some s') {timer : Timer} {rest : List (ℕ × Timer)}
    (hlists : s'.detector.timers.Lists ((s.detector.timers.started + 1, timer) :: rest))
    (hstarted : s'.detector.timers.started = s.detector.timers.started + 1) :
    s'.setAt timer.fd = a.time ∧ ∀ p ∈ rest, s'.setAt p.2.fd = s.setAt p.2.fd := by
  obtain ⟨-, -, -, -, hset, -⟩ := step_eq_some hstep
  rw [startedFd_of_started hlists hstarted] at hset
  dsimp only at hset
  have hnodup := hlists.fd_nodup
  rw [List.map_cons, List.nodup_cons] at hnodup
  rw [hset]
  refine ⟨Function.update_self _ _ _, fun p hp => Function.update_of_ne ?_ _ _⟩
  intro heq
  exact hnodup.1 (List.mem_map.mpr ⟨p, hp, heq⟩)

/-- The time at which the descriptor that is read has been set to expire has passed. -/
lemma due_le_of_pickUp (hinv : Threads.Inv hostname s.toThreads timers) (hstep : s.step a = some s')
    (hpending : s.pending = none) {id : ℕ} {ip : IpString}
    (hpending' : s'.pending = some (id, ip)) :
    (s.watch timers).due id ≤ (a.time : WithTop ℚ) := by
  obtain ⟨-, hallows, hthreads, -⟩ := step_eq_some hstep
  obtain ⟨time, act⟩ := a
  cases act with
  | receive env input =>
    obtain ⟨history, -, heq⟩ := Option.map_eq_some_iff.mp hthreads
    rw [← heq, hpending] at hpending'
    cases hpending'
  | pickUp fd =>
    rw [Threads.step, hpending] at hthreads
    obtain ⟨⟨t', found⟩, hread, heq⟩ := Option.map_eq_some_iff.mp hthreads
    rw [← heq] at hpending'
    obtain ⟨-, -, hfound⟩ := hinv.timersOwned.lists.timerThreadRead hread
    rcases hfound with ⟨hnone, -⟩ | ⟨p, hp, spec, hsome, hspec, harmed, hrearm, -⟩
    · exact absurd (hpending'.symm.trans hnone) (Option.some_ne_none _)
    · have hid : p.1 = id := by
        have heq' := hsome.symm.trans hpending'
        cases heq'
        rfl
      have hfd : p.2.fd = fd := by
        by_contra hne
        have hkept := fds_timerThreadRead hread hne
        rw [hrearm, hspec, Option.some.injEq] at hkept
        have hrest := hinv.singleShot p hp spec hspec
        rw [hkept, harmed] at hrest
        cases hrest
      rw [← hid, due_of_mem hinv.timersOwned.lists hp hspec, WithTop.coe_le_coe]
      rw [allows] at hallows
      dsimp only at hallows
      rw [← hfd, hspec, Option.all_some, decide_eq_true_iff] at hallows
      exact hallows
  | callback env =>
    rw [Threads.step, hpending] at hthreads
    cases hthreads

/-- The deadline of a node is set by its heartbeats only. -/
lemma deadline_of_not_heard (hstep : s.step a = some s') {ip : IpString}
    (hip : ¬ s.Hears a.act ip) :
    s'.deadline ip = s.deadline ip := by
  obtain ⟨-, -, -, -, -, -, hdeadline⟩ := step_eq_some hstep
  rw [hdeadline]
  cases hheard : s.heard a.act with
  | none => rfl
  | some p =>
    obtain ⟨env, ip'⟩ := p
    dsimp only
    rw [Function.update_of_ne]
    rintro rfl
    exact hip (Threads.hears_iff.mpr ⟨env, hheard⟩)

/-- The deadline that a heartbeat sets. -/
lemma deadline_of_heard (hstep : s.step a = some s') {env : DetectorEnv} {ip : IpString}
    (hheard : s.heard a.act = some (env, ip)) :
    s'.deadline ip = deadlineAfter a.time (heartbeatTimeout env s.detector ip) := by
  obtain ⟨-, -, -, -, -, -, hdeadline⟩ := step_eq_some hstep
  rw [hdeadline, hheard]
  exact Function.update_self _ _ _

/-- **Every step is a step of the watchdog timers with deadlines.** -/
lemma step_sim (hinv : Threads.Inv hostname s.toThreads timers) (hstep : s.step a = some s') :
    ∃ timers' l, Threads.Inv hostname s'.toThreads timers' ∧
      TimedStep (s.watch timers) l (a.time : WithTop ℚ) (s'.watch timers') ∧
      ∀ ip, l = .heard ip ↔ s.Hears a.act ip := by
  obtain ⟨time, act⟩ := a
  obtain ⟨-, -, hthreads, -⟩ := step_eq_some hstep
  dsimp only at hthreads ⊢
  obtain ⟨-, timers', l, hinv', hsim, hears, -⟩ := Threads.step_sim hinv hthreads
  obtain ⟨timers₁, hinv₁, hdo⟩ := Threads.step_timers hinv hthreads
  obtain rfl := hinv₁.timersOwned.lists.chain.unique hinv'.timersOwned.lists.chain
  have hlists := hinv.timersOwned.lists
  have hlists' := hinv'.timersOwned.lists
  have hlive : ∀ {t : TimedThreads} {ts : List (ℕ × Timer)} {q : ℕ × IpString},
      t.detector.timers.Lists ts → q ∈ (t.watch ts).watch.live → q.1 ∈ (t.watch ts).watch.armed →
      ∃ p ∈ ts, p.1 = q.1 ∧ p.2.userData = q.2 ∧ t.detector.timers.Armed p.2 := by
    intro t ts q hts hmem ⟨p', hp', hid, harmed⟩
    obtain ⟨p, hp, rfl⟩ := List.mem_map.mp hmem
    obtain rfl := hts.eq_of_id hp' hp hid
    exact ⟨p', hp', rfl, rfl, harmed⟩
  refine ⟨timers₁, l, hinv', ⟨hsim, fun q hmem hq hl => ?_, fun ip hip => ?_,
    fun id ip hl hmem hid htimer => ?_, fun id ip hl hpending => ?_⟩, hears⟩
  · obtain ⟨p, hp, hpid, huser, harmed⟩ := hlive hlists' hmem hq
    rw [← hpid]
    cases hdo with
    | kept _ hkept =>
      obtain ⟨hstarted, hfds⟩ := Threads.fds_of_not_hears hinv hthreads hkept
      have hset := setAt_of_not_started hstep hstarted
      have hsame := (hfds p hp).resolve_right fun h => h.2 harmed
      exact due_eq hlists hlists' hp hp harmed hsame (congrFun hset _)
    | heartbeat env ip received timerId _ hhears _ restarted =>
      have hfilter : ∀ p' ∈ timers.filter (fun p => p.1 ≠ (s.detector.timerOf ip).getD 0),
          p' ∈ timers := fun p' hp' => (List.mem_filter.mp hp').1
      cases restarted with
      | failed _ _ started frame =>
        have hset := setAt_of_not_started hstep started
        exact due_eq hlists hlists' (hfilter p hp) hp harmed (frame p hp) (congrFun hset _)
      | started timer lists userData fds started frame =>
        rcases List.mem_cons.mp hp with rfl | hrest
        · refine absurd ((hears ip).mpr hhears) ?_
          rw [← userData, huser]
          exact hl
        · have hset := (setAt_of_started hstep lists started).2
          exact due_eq hlists hlists' (hfilter p hrest) hp harmed (frame p hrest) (hset p hrest)
  · exact deadline_of_not_heard hstep fun h => hip ((hears ip).mpr h)
  · obtain ⟨p, hp, rfl, huser, harmed⟩ := hlive hlists' hmem hid
    have hip := (hears ip).mp hl
    cases hdo with
    | kept _ hkept => exact absurd hip (hkept ip)
    | heartbeat env ip' received timerId _ hhears timerOf restarted =>
      obtain rfl : ip' = ip := by
        have heq := (hears ip').mpr hhears
        rw [hl] at heq
        cases heq
        rfl
      obtain ⟨env', received', heq, hne, hlock⟩ := hhears
      cases heq
      have hhost : ip' ≠ hostname := hinv.hostname_eq ▸ hne
      have hrec : timerId = p.1 := by
        have hwatch : (s'.toThreads.watch timers₁).timer ip' = some p.1 := htimer
        rw [Threads.watch_timer hinv' hhost, timerOf, Option.some.injEq] at hwatch
        exact hwatch
      cases restarted with
      | failed => exact absurd hrec.symm (hlists'.id_ne_zero hp)
      | started timer lists userData fds started frame =>
        obtain rfl := hlists'.eq_of_id hp List.mem_cons_self hrec.symm
        have hset := (setAt_of_started hstep lists started).1
        have hinterval : heartbeatTimeout env s.detector ip' ≠ 0 := by
          obtain ⟨spec, hspec, hspecArmed⟩ := harmed
          rw [fds, Option.some.injEq] at hspec
          rw [← hspec] at hspecArmed
          exact timerSpec_armed.mp hspecArmed
        rw [due_of_mem hlists' List.mem_cons_self fds, valueMs_timerSpec, hset]
        show _ = s'.deadline ip'
        rw [deadline_of_heard hstep (Threads.heard_eq_some.mpr ⟨received, rfl, hne, hlock⟩),
          deadlineAfter, if_neg hinterval]
  · subst hl
    exact due_le_of_pickUp hinv hstep hsim.pending_of_expire hpending

end TimedThreads

/-! ### What is stored for a node -/

/-- What is stored for a node is the estimate from its heartbeats since it has joined, the last of
which has set the deadline. -/
structure Estimated (beats : List ℚ) (deadline : WithTop ℚ) (node : NodeStruct) : Prop where
  last : beats.getLast? = some node.lastHeartbeatMs
  metadata : ∃ mem, node.timeoutMetadata = feed mem (fun i => beats.getD i 0) beats.length
  deadline_eq : ∃ outOfRange, deadline = deadlineAfter node.lastHeartbeatMs
    (unsignedOfDouble outOfRange node.timeoutMetadata.nextTimeout)

/-- The estimate depends on the heartbeats so far. -/
lemma feed_congr (mem : UnsetTimeoutMemory) {a b : ℕ → ℚ} {k : ℕ} (h0 : a 0 = b 0)
    (h : ∀ i < k, a i = b i) : feed mem a k = feed mem b k := by
  induction k with
  | zero => rw [feed, feed, h0]
  | succ k ih =>
    have hk := h k (Nat.lt_succ_self k)
    rw [feed, feed, ih fun i hi => h i (by omega), hk]

/-- One more heartbeat. -/
lemma feed_concat (mem : UnsetTimeoutMemory) {beats : List ℚ} (hne : beats ≠ []) (t : ℚ) :
    feed mem (fun i => (beats ++ [t]).getD i 0) (beats ++ [t]).length =
      estimateNextDelay (feed mem (fun i => beats.getD i 0) beats.length) t := by
  have hpos : 0 < beats.length := List.length_pos_of_ne_nil hne
  have hold : ∀ i < beats.length, (beats ++ [t]).getD i 0 = beats.getD i 0 := by
    intro i hi
    simp [List.getD_eq_getElem?_getD, List.getElem?_append_left hi]
  rw [List.length_append, List.length_singleton, feed, feed_congr mem (hold 0 hpos) hold]
  simp [List.getD_eq_getElem?_getD]

/-- The first heartbeat of a node. -/
lemma Estimated.join {env : DetectorEnv} {d : Detector} {ip : IpString} (hnew : ip ∉ ipKeys d.nodes)
    (timerId : ℕ) : Estimated [env.currentTimeMs]
      (deadlineAfter env.currentTimeMs (heartbeatTimeout env d ip))
      ⟨ip, env.currentTimeMs, timerId, heartbeatMetadata env d ip⟩ := by
  refine ⟨rfl, ⟨env.unset, ?_⟩, ⟨env.outOfRange, rfl⟩⟩
  rw [heartbeatMetadata, (HashTable.find_eq_none _).mpr hnew]
  rfl

/-- A later heartbeat of a node. -/
lemma Estimated.refresh {env : DetectorEnv} {d : Detector} {ip : IpString} {beats : List ℚ}
    {deadline : WithTop ℚ} {node : NodeStruct}
    (hfind : HashTable.find NodeStruct.ipaddress d.nodes ip = some node)
    (h : Estimated beats deadline node) (timerId : ℕ) : Estimated (beats ++ [env.currentTimeMs])
      (deadlineAfter env.currentTimeMs (heartbeatTimeout env d ip))
      ⟨ip, env.currentTimeMs, timerId, heartbeatMetadata env d ip⟩ := by
  have hne : beats ≠ [] := by
    rintro rfl
    exact absurd h.last.symm (Option.some_ne_none _)
  obtain ⟨mem, hmem⟩ := h.metadata
  refine ⟨List.getLast?_concat, ⟨mem, ?_⟩, ⟨env.outOfRange, rfl⟩⟩
  rw [feed_concat mem hne, ← hmem, heartbeatMetadata, hfind]

namespace TimedThreads

variable {hostname : IpString} {s s' : TimedThreads} {timers : List (ℕ × Timer)} {a : TimedAction}
  {actions : List TimedAction} {unset : NodeStruct} {currentNodeIp : IpBuffer} {lastLogged now : ℚ}

/-- The invariant of the node `hostname`, where `timers` is the timer list. -/
structure Inv (hostname : IpString) (s : TimedThreads) (timers : List (ℕ × Timer)) : Prop where
  threads : Threads.Inv hostname s.toThreads timers
  estimated : ∀ ip node, ip ≠ hostname →
    HashTable.find NodeStruct.ipaddress s.detector.nodes ip = some node →
    Estimated (s.beats ip) (s.deadline ip) node
  absent : ∀ ip, ip ∉ ipKeys s.detector.nodes → s.beats ip = []

/-- The time that a heartbeat reads is the time of the step. -/
lemma currentTimeMs_of_heard (hstep : s.step a = some s') {env : DetectorEnv} {ip : IpString}
    (hheard : s.heard a.act = some (env, ip)) : env.currentTimeMs = a.time := by
  obtain ⟨-, hallows, -⟩ := step_eq_some hstep
  obtain ⟨time, act⟩ := a
  obtain ⟨received, rfl, -⟩ := Threads.heard_eq_some.mp hheard
  rw [allows] at hallows
  exact of_decide_eq_true hallows

/-- The heartbeats of a node after a step. -/
lemma beats_step (hstep : s.step a = some s') {ip : IpString}
    (hmem : ip ∈ ipKeys s'.detector.nodes) :
    (s.Hears a.act ip → s'.beats ip = s.beats ip ++ [a.time]) ∧
      (¬ s.Hears a.act ip → s'.beats ip = s.beats ip) := by
  obtain ⟨-, -, -, -, -, hbeats, -⟩ := step_eq_some hstep
  rw [hbeats, Threads.hears_iff]
  dsimp only
  rw [if_pos (isSome_find.mpr hmem)]
  refine ⟨?_, fun hnot => ?_⟩
  · rintro ⟨env, hheard⟩
    rw [hheard]
    exact if_pos rfl
  · cases hheard : s.heard a.act with
    | none => rfl
    | some p =>
      apply if_neg
      rintro rfl
      exact hnot ⟨p.1, hheard⟩

/-- **A step keeps the invariant.** -/
lemma Inv.step (hinv : Inv hostname s timers) (hstep : s.step a = some s') :
    ∃ timers', Inv hostname s' timers' := by
  obtain ⟨-, -, hthreads, -, -, hbeats, -⟩ := step_eq_some hstep
  obtain ⟨timers', -, hinv', -⟩ := step_sim hinv.threads hstep
  obtain ⟨hsender, hothers⟩ := Threads.find_step hinv.threads hthreads
  refine ⟨timers', hinv', fun ip node hip hnode => ?_, fun ip hip => ?_⟩
  · have hmem := HashTable.mem_keys_of_find _ hnode
    obtain ⟨hheard, hnot⟩ := beats_step hstep hmem
    by_cases hears : s.Hears a.act ip
    · obtain ⟨env, heq⟩ := Threads.hears_iff.mp hears
      obtain ⟨timerId, hfind⟩ := hsender env ip heq
      have htime := currentTimeMs_of_heard hstep heq
      rw [hfind, Option.some.injEq] at hnode
      rw [hheard hears, deadline_of_heard hstep heq, ← hnode, ← htime]
      cases hold : HashTable.find NodeStruct.ipaddress s.detector.nodes ip with
      | none =>
        have hnew := (HashTable.find_eq_none _).mp hold
        rw [hinv.absent ip hnew]
        exact .join hnew timerId
      | some node₀ => exact (hinv.estimated ip node₀ hip hold).refresh hold timerId
    · rw [hnot hears, deadline_of_not_heard hstep hears]
      refine hinv.estimated ip node hip (hothers ip node (fun env heq => ?_) hnode)
      exact hears (Threads.hears_iff.mpr ⟨env, heq⟩)
  · rw [hbeats]
    exact if_neg fun h => hip (isSome_find.mp h)

/-- The invariant holds when the receive loop starts. -/
lemma start_inv (hostname : IpString) (unset : NodeStruct) (currentNodeIp : IpBuffer)
    (lastLogged now : ℚ) : Inv hostname (start hostname unset currentNodeIp lastLogged now) [] := by
  refine ⟨Threads.start_inv hostname unset currentNodeIp lastLogged, fun ip node hip hnode => ?_,
    fun _ _ => rfl⟩
  have hmem := HashTable.mem_keys_of_find _ hnode
  exact absurd (List.mem_singleton.mp hmem) hip

/-- **The invariant holds after every run.** -/
lemma run_inv
    (hrun : run step (start hostname unset currentNodeIp lastLogged now) actions = some s) :
    ∃ timers, Inv hostname s timers := by
  refine run_invariant (fun s => ∃ timers, Inv hostname s timers) ?_
    ⟨[], start_inv hostname unset currentNodeIp lastLogged now⟩ (fun _ _ => trivial) hrun
  rintro s a s' ⟨timers, hinv⟩ - hstep
  exact hinv.step hstep

end TimedThreads

end FailureDetector
