import FailureDetector.Detector.Expiry

set_option relaxedAutoImplicit false
set_option autoImplicit false

/-!
# The timers of the detector

A heartbeat stops the timer that is recorded for its sender, if there is one, and starts another
one. No other step changes the timer list: `handle_timeout` leaves the timer of the node that it
removes in the list. So a heartbeat of a node that has a timer replaces it, and one of a node
without a timer adds one. Every join counts as such, also that of a node that has been there before.

## Main definitions

* `FailureDetector.Threads.TimersStep` — what a step does to the timers.
* `FailureDetector.Threads.AddsTimer` — the step adds a timer to the list.
* `FailureDetector.Threads.joinsAt` — the step is a join.
* `FailureDetector.TimerManager.OpenListed` — every open descriptor is that of a timer in the list.

## Main results

* `FailureDetector.receive_timers` — a heartbeat stops a timer and starts one.
* `FailureDetector.Threads.step_timers` — what a step does to the timers.
* `FailureDetector.Threads.length_of_addsTimer`, `FailureDetector.Threads.length_of_not_addsTimer` —
  how many timers there are after it.
* `FailureDetector.Threads.openListed_receive` — no descriptor is left open.
-/

namespace FailureDetector

open CString LinkedList Runs

/-- **What a heartbeat does to the timers**: it stops the timer that is recorded for the node, and
starts one. -/
lemma heartbeat_timers {env : DetectorEnv} {d d' : Detector} {ip : IpString} {events : List Event}
    (h : heartbeat env d ip = some (d', events)) :
    ∃ t intervalMs, stopTimer d.timers ((d.timerOf ip).getD 0) = some t ∧
      d'.timers = (startTimer env.toTimerEnv t intervalMs .timerSingleShot ip).1 := by
  rw [Detector.timerOf]
  unfold heartbeat at h
  split at h
  · next hfind =>
    rw [hfind]
    cases h
    exact ⟨d.timers, _, rfl, rfl⟩
  · next node hfind =>
    obtain ⟨t, hstop, heq⟩ := Option.bind_eq_some_iff.mp h
    rw [hfind]
    cases heq
    exact ⟨t, _, hstop, rfl⟩

/-- The same for an iteration of the receive loop. -/
lemma receive_timers {env : DetectorEnv} {d d' : Detector} {ip : IpString} {received : CStr}
    {events : List Event} (hip : ip ≠ d.hostname) (hlock : env.lock .hashmapLock = true)
    (h : receive env d (.beacon ip received) = some (d', events)) :
    ∃ t intervalMs, stopTimer d.timers ((d.timerOf ip).getD 0) = some t ∧
      d'.timers = (startTimer env.toTimerEnv t intervalMs .timerSingleShot ip).1 := by
  rw [receive, if_neg (Ne.symm hip), if_neg (by simp [hlock]), Option.bind_eq_bind,
    Option.bind_eq_some_iff] at h
  obtain ⟨⟨d₁, events₁⟩, hheartbeat, heq⟩ := h
  obtain ⟨silenced, horchestrate⟩ := orchestrate_eq d₁ received
  have hd : (orchestrate d₁ received).1 = d' := congrArg Prod.fst (Option.some.inj heq)
  obtain ⟨t, intervalMs, hstop, htimers⟩ := heartbeat_timers hheartbeat
  rw [← hd, horchestrate]
  exact ⟨t, intervalMs, hstop, htimers⟩

/-- `handle_timeout` leaves the timers alone. -/
lemma handleTimeout_timers (env : DetectorEnv) (d : Detector) (timerId : ℕ) (ip : IpString) :
    (handleTimeout env d timerId ip).1.timers = d.timers := by
  unfold handleTimeout
  split
  · rfl
  · split <;> rfl

/-- `start_timer` opens no descriptor but that of the new timer. -/
lemma opened_startTimer {env : TimerEnv} {t : TimerManager} {intervalMs : ℕ} {type : TTimer}
    {userData : IpString} {fd : ℕ}
    (h : (startTimer env t intervalMs type userData).1.fds fd ≠ t.fds fd) :
    ∃ node, (startTimer env t intervalMs type userData).1.heap (t.started + 1) = some node ∧
      node.data.fd = fd := by
  revert h
  unfold startTimer startTimerNode
  split
  · exact fun h => absurd rfl h
  · split
    · exact fun h => absurd rfl h
    · next fd' _ =>
      intro h
      refine ⟨_, Function.update_self _ _ _, ?_⟩
      by_contra hne
      exact h (Function.update_of_ne (Ne.symm hne) _ _)

/-- That is the descriptor which `timerfd_create` returns. -/
lemma fds_startTimer {env : TimerEnv} {fd : ℕ} (hfd : env.timerfd ≠ some fd) (t : TimerManager)
    (intervalMs : ℕ) (type : TTimer) (userData : IpString) :
    (startTimer env t intervalMs type userData).1.fds fd = t.fds fd := by
  unfold startTimer startTimerNode
  split
  · rfl
  · split
    · rfl
    · next fd' hfd' =>
      refine Function.update_of_ne ?_ _ _
      rintro rfl
      exact hfd (Option.filter_eq_some_iff.mp hfd').1

/-- Reading a descriptor leaves the others alone. -/
lemma fds_timerThreadRead {t t' : TimerManager} {fd fd' : ℕ} {found : Option (ℕ × IpString)}
    (h : timerThreadRead t fd = some (t', found)) (hne : fd' ≠ fd) : t'.fds fd' = t.fds fd' := by
  simp only [timerThreadRead, Option.bind_eq_bind, Option.bind_eq_some_iff] at h
  obtain ⟨spec, -, -, -, tmp, -, h⟩ := h
  split at h
  · cases h
    exact Function.update_of_ne hne _ _
  · obtain ⟨node, -, h⟩ := Option.bind_eq_some_iff.mp h
    cases h
    exact Function.update_of_ne hne _ _

namespace TimerManager

/-- Every open descriptor is that of a timer in the list. -/
def OpenListed (t : TimerManager) (timers : List (ℕ × Timer)) : Prop :=
  ∀ fd, t.fds fd ≠ none → ∃ p ∈ timers, p.2.fd = fd

variable {t t' : TimerManager} {timers timers' : List (ℕ × Timer)}

/-- Stopping a timer closes its descriptor. -/
lemma OpenListed.stopTimer (h : t.OpenListed timers) (hlists : t.Lists timers) {timerId : ℕ}
    (hid : timerId = 0 ∨ timerId ∈ timers.map Prod.fst)
    (hstop : FailureDetector.stopTimer t timerId = some t') :
    t'.OpenListed (timers.filter fun p => p.1 ≠ timerId) := by
  intro fd hfd
  rcases hid with rfl | hmem
  · cases hstop
    obtain ⟨p, hp, hpfd⟩ := h fd hfd
    exact ⟨p, List.mem_filter.mpr ⟨hp, decide_eq_true (hlists.id_ne_zero hp)⟩, hpfd⟩
  · obtain ⟨p, hp, rfl⟩ := List.mem_map.mp hmem
    have hfds : t'.fds = Function.update t.fds p.2.fd none := by
      obtain ⟨l₁, l₂, rfl⟩ := List.append_of_mem hp
      obtain ⟨heap, gHead, heq, -⟩ := hlists.reaches.stopTimer_chain
      rw [hstop, Option.some.injEq] at heq
      rw [heq]
    have hne : fd ≠ p.2.fd := by
      rintro rfl
      rw [hfds, Function.update_self] at hfd
      exact hfd rfl
    rw [hfds, Function.update_of_ne hne] at hfd
    obtain ⟨q, hq, rfl⟩ := h fd hfd
    refine ⟨q, List.mem_filter.mpr ⟨hq, decide_eq_true fun heq => hne ?_⟩, rfl⟩
    rw [hlists.eq_of_id hq hp heq]

/-- Starting a timer opens its descriptor. -/
lemma OpenListed.startTimer (h : t.OpenListed timers) (hlists : t.Lists timers) (env : TimerEnv)
    (intervalMs : ℕ) (type : TTimer) (userData : IpString)
    (hlists' : (FailureDetector.startTimer env t intervalMs type userData).1.Lists timers') :
    (FailureDetector.startTimer env t intervalMs type userData).1.OpenListed timers' := by
  intro fd hfd
  rcases hlists.startTimer env intervalMs type userData with
    ⟨-, heq⟩ | ⟨t', timer, heq, hcons, -, hstarted, -⟩
  · rw [heq] at hlists' hfd
    rw [hlists'.chain.unique hlists.chain]
    exact h fd hfd
  · have htimers := (heq ▸ hlists').chain.unique hcons.chain
    rw [htimers]
    by_cases hopen : t.fds fd = none
    · obtain ⟨node, hnode, hnodeFd⟩ := opened_startTimer (hopen ▸ hfd)
      obtain ⟨-, n, hn, hdata, -⟩ := hcons.chain.node_of_cons
      rw [heq, hn, Option.some.injEq] at hnode
      refine ⟨_, List.mem_cons_self, ?_⟩
      rw [← hnodeFd, ← hnode, ← hdata]
    · obtain ⟨p, hp, hpfd⟩ := h fd hopen
      exact ⟨p, List.mem_cons_of_mem _ hp, hpfd⟩

end TimerManager

namespace Threads

variable {hostname : IpString} {s s' : Threads} {timers timers' : List (ℕ × Timer)}
  {a : ThreadAction}

/-! ### What a step does to the timers -/

/-- What a step does to the timers: it leaves them alone, or it is a heartbeat and restarts the
timer of its sender. -/
inductive TimersStep (s s' : Threads) (timers : List (ℕ × Timer)) :
    ThreadAction → List (ℕ × Timer) → Prop
  | kept (a : ThreadAction) (hears : ∀ ip, ¬ s.Hears a ip) : TimersStep s s' timers a timers
  | heartbeat (env : DetectorEnv) (ip : IpString) (received : CStr) (timerId : ℕ)
      (timers' : List (ℕ × Timer)) (hears : s.Hears (.receive env (.beacon ip received)) ip)
      (timerOf : s'.detector.timerOf ip = some timerId)
      (restarted : Restarted env.toTimerEnv s.detector.timers s'.detector.timers
        (timers.filter fun p => p.1 ≠ (s.detector.timerOf ip).getD 0) ip
        (heartbeatTimeout env s.detector ip) timerId timers')
      (refused : (s.detector.timerOf ip).getD 0 = 0 →
        ¬ TimerManager.Allocates env.toTimerEnv s.detector.timers → timers' = timers) :
      TimersStep s s' timers (.receive env (.beacon ip received)) timers'

/-- **What a step does to the timers.** -/
lemma step_timers (hinv : Inv hostname s timers) (hstep : s.step a = some s') :
    ∃ timers', Inv hostname s' timers' ∧ TimersStep s s' timers a timers' := by
  obtain ⟨-, timers₁, l, hinv₁, -⟩ := step_sim hinv hstep
  refine ⟨timers₁, hinv₁, ?_⟩
  have hunique : ∀ timers', s'.detector.timers.Lists timers' → timers₁ = timers' :=
    fun timers' h => hinv₁.timersOwned.lists.chain.unique h.chain
  have hlists := hinv.timersOwned.lists
  cases a with
  | receive env input =>
    obtain ⟨history, hhistory, rfl⟩ := Option.map_eq_some_iff.mp hstep
    obtain ⟨d', events, timers', hreceive, hdo⟩ := receive_step env hinv.wf hinv.timersOwned input
    rw [History.step] at hhistory
    split at hhistory
    · rw [hreceive, Option.map_some, Option.some.injEq] at hhistory
      subst hhistory
      cases hdo with
      | failure =>
        rw [hunique timers hlists]
        refine .kept _ ?_
        rintro ip ⟨env', received', h, -⟩
        cases h
      | own received =>
        rw [hunique timers hlists]
        refine .kept _ ?_
        rintro ip ⟨env', received', h, hip, -⟩
        cases h
        exact hip rfl
      | refused ip received hip hlock =>
        rw [hunique timers hlists]
        refine .kept _ ?_
        rintro ip' ⟨env', received', h, -, hgranted⟩
        cases h
        exact Bool.false_ne_true (hlock.symm.trans hgranted)
      | heartbeat ip received d₁ events timerId timers' hip hlock h =>
        have howned := h.timersOwned hinv.timersOwned hip
        have htimerOf : d₁.timerOf ip = some timerId := by rw [h.timerOf, Function.update_self]
        obtain ⟨silenced, heq⟩ := orchestrate_eq d₁ received
        have hsame := hunique timers' (by rw [heq]; exact howned.lists)
        rw [hsame]
        refine .heartbeat env ip received timerId timers' ⟨env, received, rfl, hip, hlock⟩ ?_ ?_ ?_
        · rw [heq]
          exact htimerOf
        · rw [heq]
          exact h.restarted
        · intro htimer hrefused
          obtain ⟨t, intervalMs, hstop, htimers⟩ := receive_timers hip hlock hreceive
          rw [htimer, stopTimer, if_pos rfl, Option.some.injEq] at hstop
          subst hstop
          rw [TimerManager.startTimer_of_not_allocates hrefused] at htimers
          rw [← hsame]
          exact hunique timers (htimers.symm ▸ hlists)
    · cases hhistory
  | pickUp fd =>
    rw [step] at hstep
    split at hstep
    · cases hstep
    · obtain ⟨⟨t', found⟩, hread, rfl⟩ := Option.map_eq_some_iff.mp hstep
      rw [hunique timers (hlists.timerThreadRead hread).1]
      refine .kept _ (not_hears ?_)
      intro env input h
      cases h
  | callback env =>
    obtain ⟨⟨timerId, ip⟩, hpending, rfl⟩ := Option.map_eq_some_iff.mp hstep
    have hip : ip ≠ s.detector.hostname :=
      hinv.hostname_eq ▸ (hinv.pending timerId ip hpending).1
    have hdo := handleTimeout_step env hinv.wf hip timerId
    rw [hunique timers (hdo.timersOwned hinv.timersOwned).lists]
    refine .kept _ (not_hears ?_)
    intro env' input h
    cases h

/-- The step adds a timer: it is a heartbeat of a node that has no timer, and one can be started. -/
def AddsTimer (s : Threads) (a : ThreadAction) : Prop :=
  ∃ env ip received, a = .receive env (.beacon ip received) ∧ ip ≠ s.detector.hostname ∧
    env.lock .hashmapLock = true ∧ (s.detector.timerOf ip).getD 0 = 0 ∧
    TimerManager.Allocates env.toTimerEnv s.detector.timers

/-- Taking out a timer with the id `0` changes nothing. -/
lemma filter_zero (hinv : Inv hostname s timers) {id : ℕ} (hid : id = 0) :
    (timers.filter fun p => p.1 ≠ id) = timers := by
  refine List.filter_eq_self.mpr ?_
  intro p hp
  rw [hid]
  exact decide_eq_true (hinv.timersOwned.lists.id_ne_zero hp)

/-- Taking out the timer of a node makes the list shorter by one. -/
lemma length_filter_timerOf (hinv : Inv hostname s timers) {ip : IpString} {id : ℕ}
    (hip : ip ≠ s.detector.hostname) (hid : s.detector.timerOf ip = some id) (h0 : id ≠ 0) :
    (timers.filter fun p => p.1 ≠ id).length + 1 = timers.length := by
  rcases hinv.timersOwned.owned ip id hip hid with hzero | ⟨timer, hmem, -⟩
  · exact absurd hzero h0
  · have hnodup := hinv.timersOwned.lists.id_nodup
    obtain ⟨l₁, l₂, rfl⟩ := List.append_of_mem hmem
    rw [TimerManager.filter_split hnodup]
    simp only [List.length_append, List.length_cons]
    omega

/-- **A step that adds a timer** makes the list longer by one. -/
lemma length_of_addsTimer (hinv : Inv hostname s timers) (hstep : s.step a = some s')
    (hadds : s.AddsTimer a) : ∃ timers', Inv hostname s' timers' ∧
      timers'.length = timers.length + 1 := by
  obtain ⟨timers', hinv', hdo⟩ := step_timers hinv hstep
  refine ⟨timers', hinv', ?_⟩
  obtain ⟨env, ip, received, rfl, hip, hlock, h0, hallocates⟩ := hadds
  cases hdo with
  | kept _ hears => exact absurd ⟨env, received, rfl, hip, hlock⟩ (hears ip)
  | heartbeat _ _ _ timerId timers' _ _ restarted _ =>
    cases restarted with
    | failed refused => exact absurd hallocates refused
    | started timer => rw [List.length_cons, filter_zero hinv h0]

/-- **Any other step** does not make the list longer. -/
lemma length_of_not_addsTimer (hinv : Inv hostname s timers) (hstep : s.step a = some s')
    (hadds : ¬ s.AddsTimer a) : ∃ timers', Inv hostname s' timers' ∧
      timers'.length ≤ timers.length := by
  obtain ⟨timers', hinv', hdo⟩ := step_timers hinv hstep
  refine ⟨timers', hinv', ?_⟩
  cases hdo with
  | kept => exact le_rfl
  | heartbeat env ip received timerId timers' hears _ restarted refused =>
    obtain ⟨env', received', heq, hip, hlock⟩ := hears
    cases heq
    by_cases h0 : (s.detector.timerOf ip).getD 0 = 0
    · refine (congrArg List.length (refused h0 ?_)).le
      intro hallocates
      exact hadds ⟨env, ip, received, rfl, hip, hlock, h0, hallocates⟩
    · -- the sender's own timer is taken out before one is added
      obtain ⟨id, hid⟩ : ∃ id, s.detector.timerOf ip = some id := by
        refine Option.ne_none_iff_exists'.mp ?_
        intro hnone
        exact h0 (congrArg (Option.getD · 0) hnone)
      rw [hid, Option.getD_some] at h0 restarted
      have hlen := length_filter_timerOf hinv hip hid h0
      cases restarted with
      | failed => omega
      | started =>
        rw [List.length_cons]
        omega

/-- The step is the first heartbeat of a node, or its first one after it has been removed. -/
def joinsAt (s : Threads) : ThreadAction → Bool
  | .receive env (.beacon ip _) =>
    decide (ip ≠ s.detector.hostname ∧ env.lock .hashmapLock = true ∧ ip ∉ ipKeys s.detector.nodes)
  | _ => false

/-- A step that adds a timer is a join, if every timer could be started. -/
lemma AddsTimer.joinsAt (hinv : Inv hostname s timers) (h : s.AddsTimer a)
    (halloc : ∀ ip, .startTimer 0 ip ∉ s.trace) : s.joinsAt a = true := by
  obtain ⟨env, ip, received, rfl, hip, hlock, htimer, -⟩ := h
  refine decide_eq_true ⟨hip, hlock, fun hmem => ?_⟩
  obtain ⟨id, hid⟩ : ∃ id, s.detector.timerOf ip = some id :=
    Option.ne_none_iff_exists'.mp fun hnone => Detector.timerOf_eq_none.mp hnone hmem
  rw [hid, Option.getD_some] at htimer
  subst htimer
  have hlast := hinv.latest ip 0 (hinv.hostname_eq ▸ hip) hid
  exact halloc ip (mem_timersStarted.mp (List.mem_of_getLast? hlast))

/-- An iteration of the receive loop without a heartbeat leaves the timers alone. -/
lemma timers_receive {env : DetectorEnv} {input : Received}
    (hstep : s.step (.receive env input) = some s')
    (hears : ∀ ip, ¬ s.Hears (.receive env input) ip) :
    s'.detector.timers = s.detector.timers := by
  obtain ⟨history, hhistory, rfl⟩ := Option.map_eq_some_iff.mp hstep
  rw [History.step] at hhistory
  split at hhistory
  · obtain ⟨⟨d', events⟩, hreceive, rfl⟩ := Option.map_eq_some_iff.mp hhistory
    cases input with
    | failure =>
      cases hreceive
      rfl
    | beacon ip received =>
      rw [receive] at hreceive
      split at hreceive
      · cases hreceive
        rfl
      · next hown =>
        split at hreceive
        · cases hreceive
          rfl
        · next hlock =>
          exact absurd ⟨env, received, rfl, Ne.symm hown, by simpa using hlock⟩ (hears ip)
  · cases hhistory

/-- **A heartbeat leaves no descriptor open** that is not that of a timer. -/
lemma openListed_receive (hinv : Inv hostname s timers) {env : DetectorEnv} {input : Received}
    (hstep : s.step (.receive env input) = some s') (hinv' : Inv hostname s' timers')
    (h : s.detector.timers.OpenListed timers) : s'.detector.timers.OpenListed timers' := by
  have hlists := hinv.timersOwned.lists
  have hlists' := hinv'.timersOwned.lists
  by_cases hears : ∃ ip, s.Hears (.receive env input) ip
  · obtain ⟨ip, env', received, heq, hip, hlock⟩ := hears
    cases heq
    obtain ⟨history, hhistory, rfl⟩ := Option.map_eq_some_iff.mp hstep
    rw [History.step] at hhistory
    split at hhistory
    · obtain ⟨⟨d', events⟩, hreceive, rfl⟩ := Option.map_eq_some_iff.mp hhistory
      obtain ⟨t, intervalMs, hstop, htimers⟩ := receive_timers hip hlock hreceive
      obtain ⟨t', hstop', hstopped, -⟩ := hlists.stopTimer (hinv.timersOwned.stopped hip)
      rw [hstop, Option.some.injEq] at hstop'
      subst hstop'
      have hopen := h.stopTimer hlists (hinv.timersOwned.stopped hip) hstop
      show d'.timers.OpenListed timers'
      rw [htimers]
      exact hopen.startTimer hstopped _ _ _ _ (htimers ▸ hlists')
    · cases hhistory
  · have heq := timers_receive hstep (not_exists.mp hears)
    have htimers := (heq ▸ hlists'.chain : LinkedList.Chain _ _ _).unique hlists.chain
    rw [heq, htimers]
    exact h

end Threads

end FailureDetector
