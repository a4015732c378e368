import FailureDetector.Lib.Runs
import FailureDetector.Messages
import FailureDetector.Timer.List

set_option relaxedAutoImplicit false
set_option autoImplicit false

/-!
# Sequences of calls to the timer manager

Whatever is started and stopped in whatever order, the list that starts at `g_head` holds the
timers that have been started and not yet stopped, the latest first. Here the address of a new
node is whatever `malloc` returns, so the address of a stopped timer may be used again.

## Main definitions

* `FailureDetector.startTimerAt` — `start_timer` with the address that `malloc` returns.
* `FailureDetector.terminateTimerManager` — the loop of `terminate_timer_manager`.
* `FailureDetector.TimerCall`, `FailureDetector.TimerHistory` — a call, and the state after some
  calls with the timers that should be live.

## Main results

* `FailureDetector.TimerManager.Reaches.startTimerAt`,
  `FailureDetector.TimerManager.Reaches.terminateLoop` — what the calls do to the list.
* `FailureDetector.timer_list_is_live` — the list holds the live timers.
-/

namespace FailureDetector

open LinkedList Runs

/-- `start_timer`, where `newNode` is the address that `malloc` returns, or `0`. It does not return
an address that is allocated. -/
def startTimerAt (timerfd : Option ℕ) (newNode : ℕ) (t : TimerManager) (intervalMs : ℕ)
    (type : TTimer) (userData : IpString) : TimerManager × ℕ :=
  if newNode = 0 ∨ (t.heap newNode).isSome then (t, 0)
  else startTimerNode timerfd newNode t intervalMs type userData

/-- The loop of `terminate_timer_manager`, with the number of timers that it stops. The result is
undefined if `fuel` stops are not enough. -/
def terminateLoop : ℕ → TimerManager → Option (TimerManager × ℕ)
  | 0, t => if t.gHead = 0 then some (t, 0) else none
  | fuel + 1, t =>
    if t.gHead = 0 then some (t, 0)
    else do
      let t ← stopTimer t t.gHead
      let (t, stops) ← terminateLoop fuel t
      some (t, stops + 1)

/-- `terminate_timer_manager`, up to the end of its loop. -/
def terminateTimerManager (t : TimerManager) : Option TimerManager :=
  (terminateLoop t.started t).map Prod.fst

/-- `startTimer` is `startTimerAt` with the addresses in the order of allocation. -/
lemma startTimer_eq_at {env : TimerEnv} {t : TimerManager} (hmalloc : env.malloc = true)
    (hfree : t.heap (t.started + 1) = none) (intervalMs : ℕ) (type : TTimer)
    (userData : IpString) :
    startTimer env t intervalMs type userData =
      startTimerAt env.timerfd (t.started + 1) t intervalMs type userData := by
  rw [startTimer, if_neg (by simp [hmalloc]), startTimerAt, if_neg (by simp [hfree])]

namespace TimerManager

variable {t : TimerManager} {timers : List (ℕ × Timer)}

/-- **`start_timer`** returns `0` and does nothing, or puts a new timer in front. -/
lemma Reaches.startTimerAt (h : Reaches t timers) (timerfd : Option ℕ) (newNode intervalMs : ℕ)
    (type : TTimer) (userData : IpString) :
    FailureDetector.startTimerAt timerfd newNode t intervalMs type userData = (t, 0) ∨
    ∃ t' fd, FailureDetector.startTimerAt timerfd newNode t intervalMs type userData =
        (t', newNode) ∧
      newNode ≠ 0 ∧ timerfd = some fd ∧
      Reaches t' ((newNode, ⟨fd, userData, intervalMs, type⟩) :: timers) := by
  unfold FailureDetector.startTimerAt startTimerNode
  split
  · exact Or.inl rfl
  · next hnew =>
    rw [not_or, Bool.not_eq_true, Option.isSome_eq_false_iff, Option.isNone_iff_eq_none] at hnew
    obtain ⟨h0, hfree⟩ := hnew
    split
    · exact Or.inl rfl
    · next fd hfd =>
      have hnotin : newNode ∉ timers.map Prod.fst := by
        intro hmem
        obtain ⟨p, hp, rfl⟩ := List.mem_map.mp hmem
        obtain ⟨-, n, hn, -⟩ := h.chain.node_of_mem hp
        rw [hfree] at hn
        cases hn
      refine Or.inr ⟨_, fd, rfl, h0, (Option.filter_eq_some_iff.mp hfd).1, ?_, ?_⟩
      · exact h.chain.push h0 hnotin _
      · exact Nat.succ_le_succ h.length_le

/-- **`stop_timer`** takes its timer out, wherever in the list it is. -/
lemma Reaches.stopTimer {p : ℕ × Timer} {l₁ l₂ : List (ℕ × Timer)}
    (h : Reaches t (l₁ ++ p :: l₂)) :
    ∃ t', FailureDetector.stopTimer t p.1 = some t' ∧ Reaches t' (l₁ ++ l₂) ∧
      t'.started = t.started := by
  obtain ⟨heap, gHead, hstop, hchain⟩ := h.stopTimer_chain
  refine ⟨_, hstop, ⟨hchain, ?_⟩, rfl⟩
  have hlen := h.length_le
  simp only [List.length_append, List.length_cons] at hlen ⊢
  omega

/-- The list is empty exactly if `g_head` is `NULL`. -/
lemma Reaches.gHead_eq_zero (h : Reaches t timers) : t.gHead = 0 ↔ timers = [] := by
  constructor
  · intro h0
    exact h.chain.unique (h0 ▸ Chain.nil)
  · rintro rfl
    exact h.chain.head_eq_zero

/-- **The loop of `terminate_timer_manager`** ends after as many stops as there are timers.

**Proof sketch.** Induction on the list: every stop takes the head off. -/
lemma Reaches.terminateLoop (h : Reaches t timers) {fuel : ℕ} (hfuel : timers.length ≤ fuel) :
    ∃ t', FailureDetector.terminateLoop fuel t = some (t', timers.length) ∧ Reaches t' [] := by
  induction timers generalizing t fuel with
  | nil =>
    have h0 : t.gHead = 0 := h.gHead_eq_zero.mpr rfl
    cases fuel with
    | zero => exact ⟨t, if_pos h0, h⟩
    | succ fuel => exact ⟨t, if_pos h0, h⟩
  | cons p l ih =>
    obtain ⟨fuel, rfl⟩ := Nat.exists_eq_succ_of_ne_zero (Nat.ne_zero_of_lt hfuel)
    have h0 : t.gHead ≠ 0 := fun h0 => List.cons_ne_nil _ _ (h.gHead_eq_zero.mp h0)
    have hhead : t.gHead = p.1 := h.chain.head_eq.symm
    have hsplit : Reaches t ([] ++ p :: l) := h
    obtain ⟨t₁, hstop, hrest, -⟩ := hsplit.stopTimer
    obtain ⟨t', hloop, hempty⟩ := ih hrest (Nat.le_of_succ_le_succ hfuel)
    refine ⟨t', ?_, hempty⟩
    rw [FailureDetector.terminateLoop, if_neg h0, hhead, hstop]
    simp only [Option.bind_eq_bind, Option.bind_some, hloop, List.length_cons]

end TimerManager

/-! ### Sequences of calls -/

/-- A call of one of the three functions, with what it depends on. -/
inductive TimerCall
  | startTimer (timerfd : Option ℕ) (newNode intervalMs : ℕ) (type : TTimer) (userData : IpString)
  | stopTimer (timerId : ℕ)
  | terminateTimerManager

/-- The state of the module, and the timers that have been started and not yet stopped, the latest
first. -/
structure TimerHistory where
  manager : TimerManager
  live : List (ℕ × Timer)

namespace TimerHistory

/-- No call has been made. -/
def init : TimerHistory := ⟨TimerManager.init, []⟩

/-- The live timers after `start_timer` has returned `timerId`. -/
def started (live : List (ℕ × Timer)) (timerId : ℕ) (timer : Timer) : List (ℕ × Timer) :=
  if timerId = 0 then live else (timerId, timer) :: live

/-- One call. -/
def step (s : TimerHistory) : TimerCall → Option TimerHistory
  | .startTimer timerfd newNode intervalMs type userData =>
    let (manager, timerId) := startTimerAt timerfd newNode s.manager intervalMs type userData
    some ⟨manager, started s.live timerId ⟨timerfd.getD 0, userData, intervalMs, type⟩⟩
  | .stopTimer timerId =>
    (stopTimer s.manager timerId).map fun manager =>
      ⟨manager, s.live.filter fun p => p.1 ≠ timerId⟩
  | .terminateTimerManager =>
    (terminateTimerManager s.manager).map fun manager => ⟨manager, []⟩

/-- `stop_timer` is given `0` or the id of a timer that has been started and not yet stopped. -/
def Allowed (s : TimerHistory) : TimerCall → Prop
  | .stopTimer timerId => timerId = 0 ∨ timerId ∈ s.live.map Prod.fst
  | _ => True

/-- What can be reached are the live timers. -/
def Inv (s : TimerHistory) : Prop := s.manager.Reaches s.live

/-- `stop_timer(0)` does nothing. -/
lemma stopTimer_zero (t : TimerManager) : stopTimer t 0 = some t := if_pos rfl

/-- No live timer has the id `0`. -/
lemma Inv.filter_zero {s : TimerHistory} (h : s.Inv) :
    (s.live.filter fun p => p.1 ≠ 0) = s.live := by
  refine List.filter_eq_self.mpr ?_
  intro p hp
  exact decide_eq_true (h.chain.node_of_mem hp).1

/-- **Every allowed call is possible and keeps the list exact.** -/
lemma Inv.step {s : TimerHistory} (h : s.Inv) {c : TimerCall} (hc : s.Allowed c) :
    ∃ s', s.step c = some s' ∧ s'.Inv := by
  cases c with
  | startTimer timerfd newNode intervalMs type userData =>
    rcases TimerManager.Reaches.startTimerAt h timerfd newNode intervalMs type userData with
      heq | ⟨t', fd, heq, h0, rfl, hreaches⟩
    · refine ⟨s, ?_, h⟩
      simp only [TimerHistory.step, heq, started, if_true]
    · refine ⟨⟨t', (newNode, ⟨fd, userData, intervalMs, type⟩) :: s.live⟩, ?_, hreaches⟩
      simp only [TimerHistory.step, heq, started, if_neg h0, Option.getD_some]
  | stopTimer timerId =>
    rcases hc with rfl | hmem
    · refine ⟨s, ?_, h⟩
      rw [TimerHistory.step, stopTimer_zero, Option.map_some, h.filter_zero]
    · obtain ⟨p, hp, rfl⟩ := List.mem_map.mp hmem
      obtain ⟨l₁, l₂, hsplit⟩ := List.append_of_mem hp
      have hreaches : s.manager.Reaches (l₁ ++ p :: l₂) := hsplit ▸ h
      obtain ⟨t', hstop, hrest, -⟩ := hreaches.stopTimer
      refine ⟨⟨t', l₁ ++ l₂⟩, ?_, hrest⟩
      rw [TimerHistory.step, hstop, Option.map_some, hsplit,
        TimerManager.filter_split hreaches.id_nodup]
  | terminateTimerManager =>
    obtain ⟨t', hloop, hempty⟩ := TimerManager.Reaches.terminateLoop h h.length_le
    refine ⟨⟨t', []⟩, ?_, hempty⟩
    rw [TimerHistory.step, terminateTimerManager, hloop]
    rfl

/-- At first there are no timers. -/
lemma init_inv : init.Inv := ⟨Chain.nil, le_rfl⟩

end TimerHistory

/-- **The timer list is exactly the live timers.** Every sequence of calls in which `stop_timer` is
given `0` or the id of a live timer is possible. After it the list from `g_head` consists of the
live timers, each once, the latest first, and of nothing else. There `start_timer` puts its timer
in front, or returns `0` and changes nothing, `stop_timer` takes out its timer and keeps the order
of the others, wherever it is, and the loop of `terminate_timer_manager` ends with an empty list
after as many stops as there are timers.

**Proof sketch.** Every allowed call keeps the list exact by
`FailureDetector.TimerHistory.Inv.step`, hence every run does. -/
theorem timer_list_is_live (calls : List TimerCall)
    (hcalls : Along TimerHistory.step TimerHistory.Allowed TimerHistory.init calls) :
    ∃ s, run TimerHistory.step TimerHistory.init calls = some s ∧
      Chain s.manager.heap s.manager.gHead s.live ∧
      (∀ l, Chain s.manager.heap s.manager.gHead l → l = s.live) ∧
      (s.live.map Prod.fst).Nodup ∧
      (∀ timerfd newNode intervalMs type userData t' timerId,
        startTimerAt timerfd newNode s.manager intervalMs type userData = (t', timerId) →
        (timerId = 0 → t' = s.manager) ∧
        (timerId ≠ 0 → Chain t'.heap t'.gHead
          ((timerId, ⟨timerfd.getD 0, userData, intervalMs, type⟩) :: s.live))) ∧
      stopTimer s.manager 0 = some s.manager ∧
      (∀ l₁ p l₂, s.live = l₁ ++ p :: l₂ → ∃ t', stopTimer s.manager p.1 = some t' ∧
        Chain t'.heap t'.gHead (l₁ ++ l₂)) ∧
      ∀ fuel, s.live.length ≤ fuel → ∃ t',
        terminateLoop fuel s.manager = some (t', s.live.length) ∧ t'.gHead = 0 := by
  obtain ⟨s, hrun, hinv⟩ := exists_run_along TimerHistory.Inv
    (fun _ _ h hc => TimerHistory.Inv.step h hc) TimerHistory.init_inv hcalls
  refine ⟨s, hrun, hinv.chain, fun l hl => hl.unique hinv.chain, hinv.chain.nodup, ?_,
    TimerHistory.stopTimer_zero _, ?_, ?_⟩
  · intro timerfd newNode intervalMs type userData t' timerId heq
    rcases TimerManager.Reaches.startTimerAt hinv timerfd newNode intervalMs type userData with
      hfail | ⟨t'', fd, hstart, h0, rfl, hreaches⟩
    · rw [hfail] at heq
      cases heq
      exact ⟨fun _ => rfl, fun hne => absurd rfl hne⟩
    · rw [hstart] at heq
      cases heq
      exact ⟨fun hzero => absurd hzero h0, fun _ => hreaches.chain⟩
  · intro l₁ p l₂ hsplit
    have hreaches : s.manager.Reaches (l₁ ++ p :: l₂) := hsplit ▸ hinv
    obtain ⟨t', hstop, hrest, -⟩ := hreaches.stopTimer
    exact ⟨t', hstop, hrest.chain⟩
  · intro fuel hfuel
    obtain ⟨t', hloop, hempty⟩ := TimerManager.Reaches.terminateLoop hinv hfuel
    exact ⟨t', hloop, hempty.gHead_eq_zero.mpr rfl⟩

/-- Two timers are started and the first one is stopped, which is the last in the list. -/
theorem timer_list_is_live_two :
    ∃ s, run TimerHistory.step TimerHistory.init
        [.startTimer (some 3) 1 100 .timerSingleShot ipOne,
          .startTimer (some 4) 2 100 .timerSingleShot ipTwo, .stopTimer 1] = some s ∧
      Chain s.manager.heap s.manager.gHead s.live ∧ s.live.map Prod.fst = [2] := by
  have hcalls : Along TimerHistory.step TimerHistory.Allowed TimerHistory.init
      [.startTimer (some 3) 1 100 .timerSingleShot ipOne,
        .startTimer (some 4) 2 100 .timerSingleShot ipTwo, .stopTimer 1] := by
    refine along_cons.mpr ⟨trivial, fun s hs => along_cons.mpr ⟨trivial, fun s' hs' =>
      along_cons.mpr ⟨Or.inr ?_, fun _ _ => along_nil⟩⟩⟩
    cases hs
    cases hs'
    decide
  obtain ⟨s, hrun, hchain, -⟩ := timer_list_is_live _ hcalls
  refine ⟨s, hrun, hchain, ?_⟩
  cases hrun
  decide

end FailureDetector
