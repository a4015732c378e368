import FailureDetector.AdaptiveDelay.WindowedEstimate
import FailureDetector.Detector.Membership
import FailureDetector.Lib.Watchdog

set_option relaxedAutoImplicit false
set_option autoImplicit false

/-!
# The two threads

The receive loop and the timer thread run concurrently. A heartbeat is one step under
`hashmap_lock`. An expiry is two: the timer thread reads the descriptor and picks up the timer with
a copy of its arguments, which needs no lock, and later runs `handle_timeout`, which looks the node
up by the address it has been given and ignores the timer.

Seen from the nodes and their timers the program is a system of watchdog timers
(`Watchdog.Step`), by the simulation below.

## Main definitions

* `FailureDetector.Threads`, `FailureDetector.ThreadAction`, `FailureDetector.Threads.step` — the
  two threads.
* `FailureDetector.Threads.watch` — the watchdog timers that a state represents.
* `FailureDetector.Threads.Inv` — the invariant.
* `FailureDetector.Threads.Hears`, `FailureDetector.Threads.Removes` — the steps that process a
  heartbeat of a node, and the steps that remove it.

## Main results

* `FailureDetector.Threads.step_sim` — every step is a step of the watchdog timers.
* `FailureDetector.Threads.run_inv` — the invariant holds after every run.
-/

namespace FailureDetector

open CString Runs Watchdog

/-- The state of the program with its two threads. -/
structure Threads extends History where
  /-- The id and the arguments of the timer that the timer thread has picked up, until it has run
  the callback. -/
  pending : Option (ℕ × IpString)

/-- A step of one of the threads. -/
inductive ThreadAction
  /-- An iteration of the receive loop. -/
  | receive (env : DetectorEnv) (input : Received)
  /-- The timer thread reads a descriptor that has expired and picks up its timer. -/
  | pickUp (fd : ℕ)
  /-- The timer thread runs the callback. -/
  | callback (env : DetectorEnv)

namespace Threads

/-- The state in which the receive loop starts. -/
def start (hostname : IpString) (unset : NodeStruct) (currentNodeIp : IpBuffer)
    (lastLogged : ℚ) : Threads :=
  ⟨History.start hostname unset currentNodeIp lastLogged, none⟩

/-- One step. -/
def step (s : Threads) : ThreadAction → Option Threads
  | .receive env input =>
    (s.toHistory.step (.receive env input)).map fun history => ⟨history, s.pending⟩
  | .pickUp fd =>
    match s.pending with
    | some _ => none
    | none => (timerThreadRead s.detector.timers fd).map fun (timers, found) =>
      ⟨⟨{ s.detector with timers := timers }, s.trace⟩, found⟩
  | .callback env => s.pending.map fun (timerId, ipAddress) =>
    let (d, events) := handleTimeout env s.detector timerId ipAddress
    ⟨⟨d, s.trace ++ events⟩, none⟩

/-- The step processes a heartbeat of the node `ip`: the receive loop gets a beacon from it and is
granted the lock. -/
def Hears (s : Threads) (a : ThreadAction) (ip : IpString) : Prop :=
  ∃ env received, a = .receive env (.beacon ip received) ∧ ip ≠ s.detector.hostname ∧
    env.lock .hashmapLock = true

/-- The step removes the node `ip`: `handle_timeout` is granted the lock and finds it. -/
def Removes (s : Threads) (a : ThreadAction) (ip : IpString) : Prop :=
  ∃ env timerId, a = .callback env ∧ env.lock .hashmapLock = true ∧
    s.pending = some (timerId, ip) ∧ ip ∈ ipKeys s.detector.nodes

/-- Only an iteration of the receive loop processes a heartbeat. -/
lemma not_hears {s : Threads} {a : ThreadAction} (ha : ∀ env input, a ≠ .receive env input)
    (ip : IpString) : ¬ s.Hears a ip := by
  rintro ⟨env, received, heq, -⟩
  exact ha env _ heq

/-- Only a callback removes a node. -/
lemma not_removes {s : Threads} {a : ThreadAction} (ha : ∀ env, a ≠ .callback env)
    (ip : IpString) : ¬ s.Removes a ip := by
  rintro ⟨env, timerId, heq, -⟩
  exact ha env heq

/-! ### The watchdog timers -/

/-- The watchdog timers of the nodes other than the node itself, where `timers` is the timer
list. -/
def watch (s : Threads) (timers : List (ℕ × Timer)) : Watch IpString where
  timer ip := if ip = s.detector.hostname then none else s.detector.timerOf ip
  live := timers.map fun p => (p.1, p.2.userData)
  armed := {id | ∃ p ∈ timers, p.1 = id ∧ s.detector.timers.Armed p.2}
  pending := s.pending

/-- The invariant of the node `hostname`, where `timers` is the timer list. -/
structure Inv (hostname : IpString) (s : Threads) (timers : List (ℕ × Timer)) : Prop where
  hostname_eq : s.detector.hostname = hostname
  wf : s.detector.Wf
  timersOwned : s.detector.TimersOwned timers
  peers : ∀ p ∈ timers, p.2.userData ≠ hostname
  singleShot : ∀ p ∈ timers, ∀ spec, s.detector.timers.fds p.2.fd = some spec →
    spec.rearm.armed = false
  pending : ∀ timerId ip, s.pending = some (timerId, ip) →
    ip ≠ hostname ∧ timerId ≠ 0 ∧ timerId ≤ s.detector.timers.started
  /-- The timer of a node is the one that its last heartbeat has started. -/
  latest : ∀ ip timerId, ip ≠ hostname → s.detector.timerOf ip = some timerId →
    (timersStarted s.trace ip).getLast? = some timerId

variable {hostname : IpString} {s s' : Threads} {timers : List (ℕ × Timer)}

/-- The timer recorded for a peer. -/
lemma watch_timer (hinv : Inv hostname s timers) {ip : IpString} (hip : ip ≠ hostname) :
    (s.watch timers).timer ip = s.detector.timerOf ip :=
  if_neg (hinv.hostname_eq ▸ hip)

/-- A peer is in the table if a timer is recorded for it. -/
lemma watch_timer_ne_none {ip : IpString} :
    (s.watch timers).timer ip ≠ none ↔
      ip ≠ s.detector.hostname ∧ ip ∈ ipKeys s.detector.nodes := by
  rw [watch]
  dsimp only
  split
  · next heq => simp [heq]
  · next hne => rw [Ne, Detector.timerOf_eq_none, not_not, and_iff_right hne]

variable (timers) in
/-- Replacing the timer of a peer replaces the timer that is recorded for it. -/
lemma watch_timer_update {d : Detector} (hhost : d.hostname = s.detector.hostname) {ip : IpString}
    (hip : ip ≠ s.detector.hostname) {timer : Option ℕ}
    (htimer : d.timerOf = Function.update s.detector.timerOf ip timer) :
    (fun ip' => if ip' = d.hostname then none else d.timerOf ip') =
      Function.update (s.watch timers).timer ip timer := by
  funext ip'
  rw [hhost, htimer]
  by_cases heq : ip' = ip
  · subst heq
    rw [if_neg hip, Function.update_self, Function.update_self]
  · rw [Function.update_of_ne heq, Function.update_of_ne heq]
    rfl

/-- The timers other than the sender's. -/
lemma watch_others (hinv : Inv hostname s timers) {ip : IpString} (hip : ip ≠ hostname) :
    (timers.filter fun p => p.1 ≠ (s.detector.timerOf ip).getD 0).map
        (fun p => (p.1, p.2.userData)) = (s.watch timers).others ip := by
  rw [Watch.others, watch_timer hinv hip, watch, List.filter_map]
  congr 1
  refine List.filter_congr fun p hp => ?_
  have h0 := hinv.timersOwned.lists.id_ne_zero hp
  cases s.detector.timerOf ip with
  | none => simpa using h0
  | some id => simp

/-- The id of the next timer is unused. -/
lemma unused_succ (hinv : Inv hostname s timers) :
    (s.watch timers).Unused (s.detector.timers.started + 1) := by
  constructor
  · intro hmem
    rw [watch, List.map_map] at hmem
    obtain ⟨p, hp, heq⟩ := List.mem_map.mp hmem
    have hle := hinv.timersOwned.lists.id_le p hp
    have heq' : p.1 = s.detector.timers.started + 1 := heq
    omega
  · intro ip hpending
    have hle := (hinv.pending _ ip hpending).2.2
    omega

/-- No timer has the id `0`. -/
lemma unused_zero (hinv : Inv hostname s timers) : (s.watch timers).Unused 0 := by
  constructor
  · intro hmem
    rw [watch, List.map_map] at hmem
    obtain ⟨p, hp, heq⟩ := List.mem_map.mp hmem
    exact hinv.timersOwned.lists.id_ne_zero hp heq
  · exact fun ip hpending => (hinv.pending _ ip hpending).2.1 rfl

/-- A timer whose descriptor has been left alone can expire if it could before. -/
lemma armed_of_fds {t t' : TimerManager} {timer : Timer}
    (hfds : t'.fds timer.fd = t.fds timer.fd) (h : t'.Armed timer) : t.Armed timer := by
  obtain ⟨spec, hspec, harmed⟩ := h
  exact ⟨spec, hfds ▸ hspec, harmed⟩

/-- A single-shot timer does not expire twice. -/
lemma rearm_timerSpec (intervalMs : ℕ) :
    (timerSpec intervalMs .timerSingleShot).rearm.armed = false := rfl

/-- The timers that have been started for an address. -/
lemma mem_timersStarted {events : List Event} {ip : IpString} {timerId : ℕ} :
    timerId ∈ timersStarted events ip ↔ .startTimer timerId ip ∈ events := by
  rw [timersStarted, List.mem_filterMap]
  constructor
  · rintro ⟨e, he, heq⟩
    split at heq
    · next id ip' =>
      split at heq
      · next hip =>
        cases heq
        exact hip ▸ he
      · cases heq
    · cases heq
  · intro hmem
    exact ⟨_, hmem, if_pos rfl⟩

/-- The sequences of actions of two steps start timers one after the other. -/
lemma timersStarted_append (events events' : List Event) (ip : IpString) :
    timersStarted (events ++ events') ip = timersStarted events ip ++ timersStarted events' ip :=
  List.filterMap_append

/-- The orchestrator's switch starts no timer. -/
lemma timersStarted_orchestrate (d : Detector) (received : CStr) (ip : IpString) :
    timersStarted (orchestrate d received).2 ip = [] := by
  rcases orchestrate_events d received with h | h | h <;> rw [h] <;> rfl

/-- The timers that an iteration of the receive loop starts for a beacon from another node. -/
lemma timersStarted_heartbeat {env : DetectorEnv} {d d₁ : Detector} {ip : IpString}
    {events : List Event} {timerId : ℕ} {timers' : List (ℕ × Timer)}
    (h : HeartbeatStep env d d₁ timers ip events timerId timers') (received : CStr)
    (ip' : IpString) :
    timersStarted (.lock .hashmapLock :: events ++ [.unlock .hashmapLock] ++
      (orchestrate d₁ received).2) ip' = if ip = ip' then [timerId] else [] := by
  obtain ⟨rest, rfl, hrest⟩ := h.acts
  have hstart : timersStarted [.lock .hashmapLock, .startTimer timerId ip] ip' =
      if ip = ip' then [timerId] else [] := by
    simp only [timersStarted, List.filterMap_cons, List.filterMap_nil]
    split <;> simp_all
  have hunlock : timersStarted [.unlock .hashmapLock] ip' = [] := rfl
  show timersStarted ([.lock .hashmapLock, .startTimer timerId ip] ++ rest ++
    [.unlock .hashmapLock] ++ (orchestrate d₁ received).2) ip' = _
  rw [timersStarted_append, timersStarted_append, timersStarted_append, hstart, hunlock,
    timersStarted_of_ofSubmit hrest, timersStarted_orchestrate, List.append_nil, List.append_nil,
    List.append_nil]

/-- What the simulation of a step by the watchdog timers says: the invariant is kept, only a
beacon of a node counts as hearing from it, and only a removal takes a node from the table. -/
structure Simulated (hostname : IpString) (s : Threads) (timers : List (ℕ × Timer))
    (a : ThreadAction) (s' : Threads) : Prop where
  trace : ∃ events, s'.trace = s.trace ++ events
  sim : ∃ timers' l, Inv hostname s' timers' ∧ Step (s.watch timers) l (s'.watch timers') ∧
    (∀ ip, l = .heard ip ↔ s.Hears a ip) ∧
    ∀ ip, (s.watch timers).timer ip ≠ none → (s'.watch timers').timer ip = none → s.Removes a ip

/-- A heartbeat keeps the invariant. -/
lemma Inv.heartbeat (hinv : Inv hostname s timers) {env : DetectorEnv} {ip : IpString}
    {received : CStr} {d₁ : Detector} {events : List Event} {timerId : ℕ}
    {timers' : List (ℕ × Timer)} (hip : ip ≠ s.detector.hostname)
    (h : HeartbeatStep env s.detector d₁ timers ip events timerId timers') :
    Inv hostname ⟨⟨(orchestrate d₁ received).1, s.trace ++ (.lock .hashmapLock :: events ++
      [.unlock .hashmapLock] ++ (orchestrate d₁ received).2)⟩, s.pending⟩ timers' := by
  have hwf := h.wf hinv.wf
  have howned := h.timersOwned hinv.timersOwned hip
  obtain ⟨silenced, heq⟩ := orchestrate_eq d₁ received
  have hrest : ∀ p ∈ timers.filter fun p => p.1 ≠ (s.detector.timerOf ip).getD 0, p ∈ timers :=
    fun p hp => (List.mem_filter.mp hp).1
  have hkept : ∀ p ∈ timers', p.2.userData ≠ hostname ∧
      ∀ spec, d₁.timers.fds p.2.fd = some spec → spec.rearm.armed = false := by
    refine h.restarted.forall_timers (fun user fd => user ≠ hostname ∧
      ∀ spec, fd = some spec → spec.rearm.armed = false) ?_ ⟨hinv.hostname_eq ▸ hip, ?_⟩
    · exact fun p hp => ⟨hinv.peers p (hrest p hp), hinv.singleShot p (hrest p hp)⟩
    · intro spec hspec
      rw [Option.some.injEq] at hspec
      rw [← hspec]
      exact rearm_timerSpec _
  have hlatest : ∀ ip' id, ip' ≠ hostname → d₁.timerOf ip' = some id →
      (timersStarted s.trace ip' ++ if ip = ip' then [timerId] else []).getLast? = some id := by
    intro ip' id hhost hid
    rw [h.timerOf] at hid
    by_cases heq' : ip = ip'
    · subst heq'
      rw [Function.update_self, Option.some.injEq] at hid
      rw [if_pos rfl, List.getLast?_concat, hid]
    · rw [Function.update_of_ne (Ne.symm heq')] at hid
      rw [if_neg heq', List.append_nil]
      exact hinv.latest ip' id hhost hid
  refine ⟨?_, ?_, ?_, fun p hp => (hkept p hp).1, ?_, fun id ip' hpending => ?_,
    fun ip' id hhost hid => ?_⟩
  · rw [heq]
    exact h.frame.hostname.trans hinv.hostname_eq
  · rw [heq]
    exact ⟨hwf.nodup, hwf.hostname_mem⟩
  · rw [heq]
    exact ⟨howned.lists, howned.owned⟩
  · rw [heq]
    exact fun p hp => (hkept p hp).2
  · obtain ⟨hne, h0, hstarted⟩ := hinv.pending id ip' hpending
    rw [heq]
    exact ⟨hne, h0, hstarted.trans h.restarted.started_le⟩
  · rw [heq] at hid
    rw [timersStarted_append, timersStarted_heartbeat h]
    exact hlatest ip' id hhost hid

/-- A heartbeat restarts the timer of its sender. -/
lemma Inv.heartbeat_sim (hinv : Inv hostname s timers) {env : DetectorEnv} {ip : IpString}
    {d₁ : Detector} {events : List Event} {timerId : ℕ} {timers' : List (ℕ × Timer)}
    (hip : ip ≠ s.detector.hostname)
    (h : HeartbeatStep env s.detector d₁ timers ip events timerId timers') (received : CStr)
    (trace : List Event) :
    Step (s.watch timers) (.heard ip)
      (watch ⟨⟨(orchestrate d₁ received).1, trace⟩, s.pending⟩ timers') := by
  obtain ⟨silenced, heq⟩ := orchestrate_eq d₁ received
  have htimer := watch_timer_update timers h.frame.hostname hip h.timerOf
  have hothers := watch_others hinv (hinv.hostname_eq ▸ hip)
  have hrestarted := h.restarted
  rw [heq]
  cases hrestarted with
  | failed refused lists started frame =>
    have hwatch : watch ⟨⟨{ d₁ with silenced := silenced }, trace⟩, s.pending⟩
        (timers.filter fun p => p.1 ≠ (s.detector.timerOf ip).getD 0) =
        ⟨Function.update (s.watch timers).timer ip (some 0), (s.watch timers).others ip,
          {id | ∃ p ∈ timers.filter (fun p => p.1 ≠ (s.detector.timerOf ip).getD 0), p.1 = id ∧
            d₁.timers.Armed p.2}, s.pending⟩ := by
      rw [← htimer, ← hothers]
      rfl
    rw [hwatch]
    refine .fail _ ip _ (unused_zero hinv) ?_
    rintro i ⟨p, hp, rfl, harmed⟩
    exact ⟨p, (List.mem_filter.mp hp).1, rfl, armed_of_fds (frame p hp) harmed⟩
  | started timer lists userData fds started frame =>
    have hwatch : watch ⟨⟨{ d₁ with silenced := silenced }, trace⟩, s.pending⟩
        ((s.detector.timers.started + 1, timer) ::
          timers.filter fun p => p.1 ≠ (s.detector.timerOf ip).getD 0) =
        ⟨Function.update (s.watch timers).timer ip (some (s.detector.timers.started + 1)),
          (s.detector.timers.started + 1, ip) :: (s.watch timers).others ip,
          {id | ∃ p ∈ (s.detector.timers.started + 1, timer) ::
            timers.filter (fun p => p.1 ≠ (s.detector.timerOf ip).getD 0), p.1 = id ∧
              d₁.timers.Armed p.2}, s.pending⟩ := by
      rw [← htimer, ← hothers, ← userData]
      rfl
    rw [hwatch]
    refine .restart _ ip _ _ (unused_succ hinv) ?_
    rintro i ⟨p, hp, rfl, harmed⟩
    rcases List.mem_cons.mp hp with rfl | hp
    · exact Or.inl rfl
    · exact Or.inr ⟨p, (List.mem_filter.mp hp).1, rfl, armed_of_fds (frame p hp) harmed⟩

/-- A step that leaves the table and the timers alone keeps the invariant. -/
lemma Inv.unchanged (hinv : Inv hostname s timers) {d' : Detector}
    (hhost : d'.hostname = s.detector.hostname) (hnodes : d'.nodes = s.detector.nodes)
    (htimers : d'.timers = s.detector.timers) {events : List Event}
    (hstarts : ∀ ip, timersStarted events ip = []) {pending : Option (ℕ × IpString)}
    (hpending : ∀ p, pending = some p → s.pending = some p) :
    Inv hostname ⟨⟨d', s.trace ++ events⟩, pending⟩ timers := by
  have htimerOf : d'.timerOf = s.detector.timerOf := by
    funext ip
    rw [Detector.timerOf, hnodes, ← Detector.timerOf]
  refine ⟨hhost.trans hinv.hostname_eq, ⟨?_, ?_⟩, ⟨?_, ?_⟩, hinv.peers, ?_, ?_, ?_⟩
  · rw [hnodes]
    exact hinv.wf.nodup
  · rw [hnodes, hhost]
    exact hinv.wf.hostname_mem
  · rw [htimers]
    exact hinv.timersOwned.lists
  · rw [htimerOf, hhost]
    exact hinv.timersOwned.owned
  · rw [htimers]
    exact hinv.singleShot
  · rw [htimers]
    exact fun id ip heq => hinv.pending id ip (hpending _ heq)
  · intro ip id hip hid
    rw [timersStarted_append, hstarts, List.append_nil]
    exact hinv.latest ip id hip (htimerOf ▸ hid)

/-- A step that hears no node and that the watchdog timers do not see. -/
lemma Simulated.idle {a : ThreadAction} {events : List Event}
    (htrace : s'.trace = s.trace ++ events) (hinv' : Inv hostname s' timers)
    (hwatch : s'.watch timers = s.watch timers) (hears : ∀ ip, ¬ s.Hears a ip) :
    Simulated hostname s timers a s' := by
  refine ⟨⟨events, htrace⟩, timers, .quiet, hinv', ?_, fun ip => iff_of_false ?_ (hears ip), ?_⟩
  · rw [hwatch]
    exact .idle _
  · rintro ⟨⟩
  · intro ip hne hnone
    rw [hwatch] at hnone
    exact absurd hnone hne

/-- An iteration of the receive loop. -/
lemma receive_sim (hinv : Inv hostname s timers) {env : DetectorEnv} {input : Received}
    (hstep : s.step (.receive env input) = some s') :
    Simulated hostname s timers (.receive env input) s' := by
  obtain ⟨history, hhistory, rfl⟩ := Option.map_eq_some_iff.mp hstep
  obtain ⟨d', events, timers', hreceive, hdo⟩ := receive_step env hinv.wf hinv.timersOwned input
  rw [History.step] at hhistory
  split at hhistory
  · rw [hreceive, Option.map_some, Option.some.injEq] at hhistory
    subst hhistory
    cases hdo with
    | failure =>
      refine .idle rfl (hinv.unchanged rfl rfl rfl (fun _ => rfl) fun _ h => h) rfl ?_
      rintro ip ⟨env', received', h, -⟩
      cases h
    | own received =>
      refine .idle rfl (hinv.unchanged rfl rfl rfl (fun _ => rfl) fun _ h => h) rfl ?_
      rintro ip ⟨env', received', h, hip, -⟩
      cases h
      exact hip rfl
    | refused ip received hip hlock =>
      have hleft : Inv hostname ⟨⟨{ s.detector with running := false },
          s.trace ++ [.printf "ERROR: can't get mutex \n"]⟩, s.pending⟩ timers := by
        refine hinv.unchanged ?_ ?_ ?_ (fun _ => rfl) fun _ h => h
        all_goals rfl
      refine .idle rfl hleft rfl ?_
      rintro ip' ⟨env', received', h, -, hgranted⟩
      cases h
      exact Bool.false_ne_true (hlock.symm.trans hgranted)
    | heartbeat ip received d₁ events timerId _ hip hlock h =>
      have hsim := hinv.heartbeat_sim hip h received (s.trace ++ (.lock .hashmapLock :: events ++
        [.unlock .hashmapLock] ++ (orchestrate d₁ received).2))
      have hkeeps : Label.heard ip ≠ .callback := by rintro ⟨⟩
      refine ⟨⟨_, rfl⟩, timers', .heard ip, hinv.heartbeat hip h, hsim,
        fun ip' => ⟨fun heq => ?_, ?_⟩, fun _ hne hnone => absurd hnone (hsim.keeps hkeeps hne)⟩
      · cases heq
        exact ⟨env, received, rfl, hip, hlock⟩
      · rintro ⟨env', received', heq, -⟩
        cases heq
        rfl
  · cases hhistory

/-- The timer thread picks up a timer. -/
lemma pickUp_sim (hinv : Inv hostname s timers) {fd : ℕ}
    (hstep : s.step (.pickUp fd) = some s') : Simulated hostname s timers (.pickUp fd) s' := by
  rw [step] at hstep
  split at hstep
  · cases hstep
  · next hnone =>
    obtain ⟨⟨t', found⟩, hread, rfl⟩ := Option.map_eq_some_iff.mp hstep
    obtain ⟨hlists, hstarted, hfound⟩ := hinv.timersOwned.lists.timerThreadRead hread
    have hears : ∀ ip, ¬ s.Hears (.pickUp fd) ip := by
      refine not_hears fun env input h => ?_
      cases h
    have htrace : s.trace = s.trace ++ [] := (List.append_nil _).symm
    rcases hfound with ⟨rfl, hfds⟩ | ⟨p, hp, spec, rfl, hspec, harmed, hrearm, hfds⟩
    · have hwatch : watch ⟨⟨{ s.detector with timers := t' }, s.trace⟩, none⟩ timers =
          s.watch timers := by
        simp only [watch, hnone, Watch.mk.injEq, true_and, and_true]
        refine ⟨rfl, Set.ext fun id => exists_congr fun p => and_congr_right fun hp => ?_⟩
        rw [TimerManager.Armed, TimerManager.Armed, hfds p hp]
      exact .idle htrace ⟨hinv.hostname_eq, ⟨hinv.wf.nodup, hinv.wf.hostname_mem⟩,
        ⟨hlists, hinv.timersOwned.owned⟩, hinv.peers, fun p hp spec hspec =>
          hinv.singleShot p hp spec (hfds p hp ▸ hspec),
        fun _ _ heq => absurd heq.symm (Option.some_ne_none _), hinv.latest⟩ hwatch hears
    · have hrest := hinv.singleShot p hp spec hspec
      refine ⟨⟨[], htrace⟩, timers, .expire, ⟨hinv.hostname_eq,
        ⟨hinv.wf.nodup, hinv.wf.hostname_mem⟩, ⟨hlists, hinv.timersOwned.owned⟩, hinv.peers,
        fun q hq spec' hspec' => ?_, fun id ip heq => ?_, hinv.latest⟩, ?_,
        fun ip => iff_of_false ?_ (hears ip), fun _ hne heq => absurd heq hne⟩
      · by_cases hqp : q = p
        · subst hqp
          rw [hrearm, Option.some.injEq] at hspec'
          rw [← hspec']
          exact hrest
        · exact hinv.singleShot q hq spec' (hfds q hq hqp ▸ hspec')
      · cases heq
        have hle := hinv.timersOwned.lists.id_le p hp
        refine ⟨hinv.peers p hp, hinv.timersOwned.lists.id_ne_zero hp, ?_⟩
        show p.1 ≤ t'.started
        omega
      · refine .expire (s.watch timers) p.1 p.2.userData _ (List.mem_map_of_mem hp)
          ⟨p, hp, rfl, spec, hspec, harmed⟩ hnone ?_
        rintro i ⟨q, hq, rfl, harmed'⟩
        by_cases hqp : q = p
        · subst hqp
          obtain ⟨spec', hspec', harmed'⟩ := harmed'
          rw [show t'.fds q.2.fd = some spec.rearm from hrearm, Option.some.injEq] at hspec'
          rw [← hspec', hrest] at harmed'
          cases harmed'
        · refine ⟨⟨q, hq, rfl, armed_of_fds (hfds q hq hqp) harmed'⟩, fun heq => hqp ?_⟩
          exact hinv.timersOwned.lists.eq_of_id hq hp heq
      · rintro ⟨⟩

/-- The timer thread runs the callback. -/
lemma callback_sim (hinv : Inv hostname s timers) {env : DetectorEnv}
    (hstep : s.step (.callback env) = some s') :
    Simulated hostname s timers (.callback env) s' := by
  obtain ⟨⟨timerId, ip⟩, hpending, rfl⟩ := Option.map_eq_some_iff.mp hstep
  have hip : ip ≠ s.detector.hostname := hinv.hostname_eq ▸ (hinv.pending timerId ip hpending).1
  have hdo := handleTimeout_step env hinv.wf hip timerId
  rcases htimeout : handleTimeout env s.detector timerId ip with ⟨d', events⟩
  rw [htimeout] at hdo
  have hwf := hdo.wf hinv.wf hip
  have howned := hdo.timersOwned hinv.timersOwned
  show Simulated hostname s timers (.callback env)
    ⟨⟨(handleTimeout env s.detector timerId ip).1, s.trace ++
      (handleTimeout env s.detector timerId ip).2⟩, none⟩
  rw [htimeout]
  have hears : ∀ ip', (Label.callback : Label IpString) = .heard ip' ↔
      s.Hears (.callback env) ip' := by
    refine fun ip' => iff_of_false ?_ (not_hears (fun env' input h => ?_) ip')
    · rintro ⟨⟩
    · cases h
  have hdone : ∀ p, none = some p → s.pending = some p :=
    fun _ h => absurd h.symm (Option.some_ne_none _)
  refine ⟨⟨events, rfl⟩, timers, ?_⟩
  cases hdo with
  | refused =>
    exact ⟨.callback, hinv.unchanged rfl rfl rfl (fun _ => rfl) hdone,
      .drop _, hears, fun _ hne hnone => absurd hnone hne⟩
  | absent =>
    exact ⟨.callback, hinv.unchanged rfl rfl rfl (fun _ => rfl) hdone,
      .drop _, hears, fun _ hne hnone => absurd hnone hne⟩
  | removed _ _ hlock hmem frame same nodup keys timerOf starts submits =>
    have htimer := watch_timer_update timers frame.hostname hip timerOf
    have hwatch : watch ⟨⟨d', s.trace ++ events⟩, none⟩ timers =
        ⟨Function.update (s.watch timers).timer ip none, (s.watch timers).live,
          (s.watch timers).armed, none⟩ := by
      rw [← htimer, watch, same]
      rfl
    have hlatest : ∀ ip' id, ip' ≠ hostname → d'.timerOf ip' = some id →
        (timersStarted (s.trace ++ events) ip').getLast? = some id := by
      intro ip' id hne hid
      rw [timersStarted_append, starts, List.append_nil]
      refine hinv.latest ip' id hne ?_
      rw [timerOf] at hid
      by_cases heq : ip' = ip
      · rw [heq, Function.update_self] at hid
        cases hid
      · rwa [Function.update_of_ne heq] at hid
    refine ⟨.callback, ⟨frame.hostname.trans hinv.hostname_eq, hwf, howned, hinv.peers, ?_,
      fun _ _ h => absurd h.symm (Option.some_ne_none _), hlatest⟩, ?_, hears,
      fun ip' hne hnone => ?_⟩
    · show ∀ p ∈ timers, ∀ spec, d'.timers.fds p.2.fd = some spec → spec.rearm.armed = false
      rw [same]
      exact hinv.singleShot
    · rw [hwatch]
      exact .remove _ timerId ip hpending (watch_timer_ne_none.mpr ⟨hip, hmem⟩)
    · by_cases heq : ip' = ip
      · exact heq ▸ ⟨env, timerId, rfl, hlock, hpending, hmem⟩
      · rw [hwatch] at hnone
        exact absurd ((Function.update_of_ne heq _ _).symm.trans hnone) hne

/-- **Every step is a step of the watchdog timers.** -/
lemma step_sim (hinv : Inv hostname s timers) {a : ThreadAction} (hstep : s.step a = some s') :
    Simulated hostname s timers a s' := by
  cases a with
  | receive env input => exact receive_sim hinv hstep
  | pickUp fd => exact pickUp_sim hinv hstep
  | callback env => exact callback_sim hinv hstep

/-- **A node that is to be removed is removed.** -/
lemma exists_step_of_removes (hinv : Inv hostname s timers) {a : ThreadAction} {ip : IpString}
    (h : s.Removes a ip) : ∃ s', s.step a = some s' ∧ ip ∉ ipKeys s'.detector.nodes := by
  obtain ⟨env, timerId, rfl, hlock, hpending, hmem⟩ := h
  refine ⟨_, congrArg (Option.map _) hpending, ?_⟩
  have hdo := handleTimeout_step env hinv.wf
    (hinv.hostname_eq ▸ (hinv.pending timerId ip hpending).1) timerId
  show ip ∉ ipKeys (handleTimeout env s.detector timerId ip).1.nodes
  generalize (handleTimeout env s.detector timerId ip).1 = d',
    (handleTimeout env s.detector timerId ip).2 = events at hdo
  cases hdo with
  | refused hrefused =>
    rw [hlock] at hrefused
    cases hrefused
  | absent hip => exact hip
  | removed _ _ _ _ _ _ _ keys =>
    rw [keys.mem_iff, List.mem_filter, decide_eq_true_iff]
    exact fun hkeep => hkeep.2 rfl

/-- A callback starts no timer. -/
lemma timersStarted_callback (hinv : Inv hostname s timers) {env : DetectorEnv}
    (hstep : s.step (.callback env) = some s') (ip : IpString) :
    timersStarted s'.trace ip = timersStarted s.trace ip := by
  obtain ⟨⟨timerId, ip₀⟩, hpending, rfl⟩ := Option.map_eq_some_iff.mp hstep
  have hdo := handleTimeout_step env hinv.wf
    (hinv.hostname_eq ▸ (hinv.pending timerId ip₀ hpending).1) timerId
  show timersStarted (s.trace ++ (handleTimeout env s.detector timerId ip₀).2) ip = _
  generalize (handleTimeout env s.detector timerId ip₀).1 = d',
    (handleTimeout env s.detector timerId ip₀).2 = events at hdo
  have hnone : timersStarted events ip = [] := by
    cases hdo with
    | refused => rfl
    | absent => rfl
    | removed _ _ _ _ _ _ _ _ _ starts => exact starts ip
  rw [timersStarted_append, hnone, List.append_nil]

/-- The invariant holds when the receive loop starts. -/
lemma start_inv (hostname : IpString) (unset : NodeStruct) (currentNodeIp : IpBuffer)
    (lastLogged : ℚ) : Inv hostname (start hostname unset currentNodeIp lastLogged) [] := by
  have hinv := History.start_inv hostname unset currentNodeIp lastLogged
  have hnone : ∀ ip, ip ≠ hostname →
      (start hostname unset currentNodeIp lastLogged).detector.timerOf ip = none :=
    fun ip hip => Detector.timerOf_eq_none.mpr fun hmem => hip (List.mem_singleton.mp hmem)
  refine ⟨rfl, hinv.wf, ⟨TimerManager.lists_init, fun ip id hip hid => ?_⟩,
    fun p hp => absurd hp List.not_mem_nil, fun p hp => absurd hp List.not_mem_nil,
    fun _ _ h => absurd h.symm (Option.some_ne_none _), fun ip id hip hid => ?_⟩
  · rw [hnone ip hip] at hid
    cases hid
  · rw [hnone ip hip] at hid
    cases hid

/-- **The invariant holds after every run.** -/
lemma run_inv {unset : NodeStruct} {currentNodeIp : IpBuffer} {lastLogged : ℚ}
    {actions : List ThreadAction}
    (hrun : run step (start hostname unset currentNodeIp lastLogged) actions = some s) :
    ∃ timers, Inv hostname s timers := by
  refine run_invariant (fun s => ∃ timers, Inv hostname s timers) ?_
    ⟨[], start_inv hostname unset currentNodeIp lastLogged⟩ (fun _ _ => trivial) hrun
  rintro s a s' ⟨timers, hinv⟩ - hstep
  obtain ⟨-, timers', l, hinv', -⟩ := step_sim hinv hstep
  exact ⟨timers', hinv'⟩

end Threads

end FailureDetector
