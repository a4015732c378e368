import FailureDetector.Timer.Model

set_option relaxedAutoImplicit false
set_option autoImplicit false

/-!
# The timer list

The nodes that can be reached from `g_head` are a list of timers with their ids. Starting a timer
puts it in front, stopping one takes it out and leaves the others in their order, and the timer
thread finds the timer of a descriptor.

## Main definitions

* `FailureDetector.TimerManager.Reaches`, `FailureDetector.TimerManager.Lists` — the list that a
  state of the module holds.
* `FailureDetector.TimerManager.Armed` — timers that will expire.
* `FailureDetector.TimerManager.Allocates` — when a timer can be started.

## Main results

* `FailureDetector.TimerManager.Lists.startTimer` — starting a timer.
* `FailureDetector.TimerManager.Reaches.stopTimer_chain`,
  `FailureDetector.TimerManager.Lists.stopTimer` — stopping a timer.
* `FailureDetector.TimerManager.Lists.timerThreadRead` — reading a descriptor.
-/

namespace FailureDetector

open LinkedList

namespace TimerManager

/-- The timers reachable from `g_head`, with their ids. There are at most as many as have been
started. -/
structure Reaches (t : TimerManager) (timers : List (ℕ × Timer)) : Prop where
  chain : Chain t.heap t.gHead timers
  length_le : timers.length ≤ t.started

/-- The timers reachable from `g_head`, with their ids. Their ids have been handed out, and their
descriptors are open and different. -/
structure Lists (t : TimerManager) (timers : List (ℕ × Timer)) : Prop where
  chain : Chain t.heap t.gHead timers
  id_le : ∀ p ∈ timers, p.1 ≤ t.started
  length_le : timers.length ≤ t.started
  fd_open : ∀ p ∈ timers, (t.fds p.2.fd).isSome
  fd_nodup : (timers.map fun p => p.2.fd).Nodup

/-- The descriptor of a timer has yet to expire. -/
def Armed (t : TimerManager) (timer : Timer) : Prop :=
  ∃ spec, t.fds timer.fd = some spec ∧ spec.armed = true

/-- `malloc` and `timerfd_create` succeed: the latter returns a descriptor that is not open. -/
def Allocates (env : TimerEnv) (t : TimerManager) : Prop :=
  env.malloc = true ∧ ∃ fd, env.timerfd = some fd ∧ t.fds fd = none

/-- At first there are no timers. -/
lemma lists_init : Lists init [] := ⟨Chain.nil, by simp, le_rfl, by simp, List.nodup_nil⟩

variable {t : TimerManager} {timers : List (ℕ × Timer)}

/-- The list is what can be reached. -/
lemma Lists.reaches (h : Lists t timers) : Reaches t timers := ⟨h.chain, h.length_le⟩

/-- The ids in the list are different. -/
lemma Reaches.id_nodup (h : Reaches t timers) : (timers.map Prod.fst).Nodup := h.chain.nodup

/-- The ids in the list are different. -/
lemma Lists.id_nodup (h : Lists t timers) : (timers.map Prod.fst).Nodup := h.chain.nodup

/-- No timer has the id `0`. -/
lemma Lists.id_ne_zero (h : Lists t timers) {p : ℕ × Timer} (hp : p ∈ timers) : p.1 ≠ 0 :=
  (h.chain.node_of_mem hp).1

/-- Timers with the same id are the same. -/
lemma Lists.eq_of_id (h : Lists t timers) {p q : ℕ × Timer} (hp : p ∈ timers) (hq : q ∈ timers)
    (hid : p.1 = q.1) : p = q := List.inj_on_of_nodup_map h.id_nodup hp hq hid

/-- Timers with the same descriptor are the same. -/
lemma Lists.eq_of_fd (h : Lists t timers) {p q : ℕ × Timer} (hp : p ∈ timers) (hq : q ∈ timers)
    (hfd : p.2.fd = q.2.fd) : p = q := List.inj_on_of_nodup_map h.fd_nodup hp hq hfd

/-- **`start_timer`** fails, or puts a timer with a new id and a new descriptor in front. -/
lemma Lists.startTimer (h : Lists t timers) (env : TimerEnv) (intervalMs : ℕ) (type : TTimer)
    (userData : IpString) :
    (¬ Allocates env t ∧ FailureDetector.startTimer env t intervalMs type userData = (t, 0)) ∨
    ∃ t' timer, FailureDetector.startTimer env t intervalMs type userData = (t', t.started + 1) ∧
      Lists t' ((t.started + 1, timer) :: timers) ∧ timer.userData = userData ∧
      t'.started = t.started + 1 ∧ t'.fds timer.fd = some (timerSpec intervalMs type) ∧
      ∀ p ∈ timers, t'.fds p.2.fd = t.fds p.2.fd := by
  unfold FailureDetector.startTimer startTimerNode
  split
  · next hmalloc =>
    refine Or.inl ⟨fun halloc => ?_, rfl⟩
    rw [halloc.1] at hmalloc
    cases hmalloc
  · split
    · next hnone =>
      refine Or.inl ⟨fun ⟨_, fd, hfd, hclosed⟩ => ?_, rfl⟩
      rw [hfd, Option.filter_eq_none_iff] at hnone
      exact hnone fd rfl (Option.isNone_iff_eq_none.mpr hclosed)
    · next fd hfd =>
      obtain ⟨-, hnone⟩ := Option.filter_eq_some_iff.mp hfd
      rw [Option.isNone_iff_eq_none] at hnone
      have hne : ∀ p ∈ timers, p.2.fd ≠ fd := by
        intro p hp heq
        have := h.fd_open p hp
        rw [heq, hnone] at this
        cases this
      have hid : t.started + 1 ∉ timers.map Prod.fst := by
        intro hmem
        obtain ⟨p, hp, heq⟩ := List.mem_map.mp hmem
        have := h.id_le p hp
        omega
      refine Or.inr ⟨_, ⟨fd, userData, intervalMs, type⟩, rfl, ?_, rfl, rfl,
        Function.update_self _ _ _, fun p hp => Function.update_of_ne (hne p hp) _ _⟩
      refine ⟨h.chain.push (Nat.succ_ne_zero _) hid _, ?_, ?_, ?_, ?_⟩
      · intro p hp
        rcases List.mem_cons.mp hp with rfl | hp
        · exact le_rfl
        · exact (h.id_le p hp).trans (Nat.le_succ _)
      · exact Nat.succ_le_succ h.length_le
      · intro p hp
        rcases List.mem_cons.mp hp with rfl | hp
        · simp
        · show (Function.update t.fds fd _ p.2.fd).isSome
          rw [Function.update_of_ne (hne p hp)]
          exact h.fd_open p hp
      · rw [List.map_cons, List.nodup_cons]
        refine ⟨fun hmem => ?_, h.fd_nodup⟩
        obtain ⟨p, hp, heq⟩ := List.mem_map.mp hmem
        exact hne p hp heq

/-- `start_timer` does nothing if `malloc` or `timerfd_create` fails. -/
lemma startTimer_of_not_allocates {env : TimerEnv} (h : ¬ Allocates env t) (intervalMs : ℕ)
    (type : TTimer) (userData : IpString) :
    FailureDetector.startTimer env t intervalMs type userData = (t, 0) := by
  unfold FailureDetector.startTimer startTimerNode
  split
  · rfl
  · next hmalloc =>
    split
    · rfl
    · next fd hfd =>
      obtain ⟨hsome, hnone⟩ := Option.filter_eq_some_iff.mp hfd
      rw [Option.isNone_iff_eq_none] at hnone
      exact absurd ⟨Bool.not_eq_false _ ▸ hmalloc, fd, hsome, hnone⟩ h

/-- Taking a timer out of a list with different ids. -/
lemma filter_split {p : ℕ × Timer} {l₁ l₂ : List (ℕ × Timer)}
    (h : ((l₁ ++ p :: l₂).map Prod.fst).Nodup) :
    ((l₁ ++ p :: l₂).filter fun q => q.1 ≠ p.1) = l₁ ++ l₂ := by
  simp only [List.map_append, List.map_cons, List.nodup_append, List.nodup_cons,
    List.mem_cons] at h
  obtain ⟨-, ⟨hp, -⟩, hdisj⟩ := h
  rw [List.filter_append, List.filter_cons_of_neg (by simp)]
  congr 1
  · refine List.filter_eq_self.mpr fun q hq => ?_
    simpa using hdisj _ (List.mem_map_of_mem hq) _ (Or.inl rfl)
  · refine List.filter_eq_self.mpr fun q hq => ?_
    have hne : q.1 ≠ p.1 := fun heq => hp (heq ▸ List.mem_map_of_mem hq)
    simpa using hne

/-- Stopping the timer at the head takes it off. No predecessor is found in the rest of the
list. -/
lemma Reaches.stopTimer_head {p : ℕ × Timer} {l : List (ℕ × Timer)} (h : Reaches t (p :: l)) :
    ∃ heap gHead, FailureDetector.stopTimer t p.1 =
      some ⟨heap, gHead, Function.update t.fds p.2.fd none, t.started⟩ ∧ Chain heap gHead l := by
  obtain ⟨h0, n, hn, hdata, hl⟩ := h.chain.node_of_cons
  have hhead : p.1 = t.gHead := h.chain.head_eq
  have hnodup := h.id_nodup
  rw [List.map_cons, List.nodup_cons] at hnodup
  have hsearch : search t.heap (fun m => m.next = p.1) t.started n.next = some 0 := by
    refine search_next_of_not_mem hl h0 (fun hmem => hnodup.1 ?_) ?_
    · obtain ⟨q, hq, heq⟩ := List.mem_map.mp hmem
      exact List.mem_map.mpr ⟨q, List.mem_of_mem_tail hq, heq⟩
    · exact (Nat.le_succ _).trans h.length_le
  refine ⟨Function.update t.heap p.1 none, n.next, ?_, hl.update hnodup.1 none⟩
  simp only [FailureDetector.stopTimer, if_neg h0, hn, Option.bind_eq_bind, Option.bind_some,
    if_pos hhead, hsearch, relink, if_true, hdata]

/-- Stopping another timer links its predecessor to its successor. -/
lemma Reaches.stopTimer_inner {p q : ℕ × Timer} {l₁ l₂ : List (ℕ × Timer)}
    (h : Reaches t (l₁ ++ q :: p :: l₂)) :
    ∃ heap gHead, FailureDetector.stopTimer t p.1 =
        some ⟨heap, gHead, Function.update t.fds p.2.fd none, t.started⟩ ∧
      Chain heap gHead (l₁ ++ q :: l₂) := by
  have hsplit : l₁ ++ q :: p :: l₂ = (l₁ ++ [q]) ++ p :: l₂ := by simp
  have hnodup := h.id_nodup
  obtain ⟨hq0, m, hm, -, -⟩ := h.chain.node_of_split
  obtain ⟨h0, n, hn, hdata, -⟩ := Chain.node_of_split (hsplit ▸ h.chain)
  have hnotin : p.1 ∉ (l₁ ++ q :: l₂).map Prod.fst := by
    simp only [List.map_append, List.map_cons, List.nodup_append, List.nodup_cons,
      List.mem_cons, not_or] at hnodup
    simp only [List.map_append, List.map_cons, List.mem_append, List.mem_cons, not_or]
    obtain ⟨-, ⟨⟨hqp, -⟩, hp, -⟩, hdisj⟩ := hnodup
    exact ⟨fun hmem => hdisj _ hmem _ (Or.inr (Or.inl rfl)) rfl, fun heq => hqp heq.symm, hp⟩
  have hhead : p.1 ≠ t.gHead := by
    intro heq
    refine hnotin ?_
    cases l₁ with
    | nil =>
      have hq : q.1 = t.gHead := h.chain.head_eq
      simp [heq, hq]
    | cons r l₁ =>
      have hr : r.1 = t.gHead := h.chain.head_eq
      simp [heq, hr]
  have hsearch : search t.heap (fun m => m.next = p.1) t.started t.gHead = some q.1 := by
    refine search_next_of_split h.chain ?_
    have hlen := h.length_le
    simp only [List.length_append, List.length_cons] at hlen
    omega
  refine ⟨Function.update (Function.update t.heap q.1 (some ⟨m.data, n.next⟩)) p.1 none, t.gHead,
    ?_, (h.chain.unlink hm hn).update hnotin none⟩
  simp only [FailureDetector.stopTimer, if_neg h0, hn, Option.bind_eq_bind, Option.bind_some,
    if_neg hhead, hsearch, relink, if_neg hq0, hm, Option.map_some, hdata]

/-- Stopping a timer leaves the others as a list. -/
lemma Reaches.stopTimer_chain {p : ℕ × Timer} {l₁ l₂ : List (ℕ × Timer)}
    (h : Reaches t (l₁ ++ p :: l₂)) :
    ∃ heap gHead, FailureDetector.stopTimer t p.1 =
        some ⟨heap, gHead, Function.update t.fds p.2.fd none, t.started⟩ ∧
      Chain heap gHead (l₁ ++ l₂) := by
  rcases List.eq_nil_or_concat l₁ with rfl | ⟨l, q, rfl⟩
  · exact h.stopTimer_head
  · rw [List.concat_eq_append, List.append_assoc, List.singleton_append] at h
    rw [List.concat_eq_append, List.append_assoc, List.singleton_append]
    exact h.stopTimer_inner

/-- Stopping a timer of the list takes it out and closes its descriptor. -/
lemma Lists.stopTimer_of_mem (h : Lists t timers) {p : ℕ × Timer} (hp : p ∈ timers) :
    ∃ t', FailureDetector.stopTimer t p.1 = some t' ∧
      Lists t' (timers.filter fun q => q.1 ≠ p.1) ∧ t'.started = t.started ∧
      (∀ q ∈ timers.filter fun q => q.1 ≠ p.1, t'.fds q.2.fd = t.fds q.2.fd) ∧
      ∀ fd, t.fds fd = none → t'.fds fd = none := by
  have hfds : ∀ q ∈ timers.filter fun q => q.1 ≠ p.1, q.2.fd ≠ p.2.fd := by
    intro q hq heq
    rw [List.mem_filter, decide_eq_true_iff] at hq
    exact hq.2 (congrArg Prod.fst (h.eq_of_fd hq.1 hp heq))
  have hsub : (timers.filter fun q => q.1 ≠ p.1).Sublist timers := List.filter_sublist
  obtain ⟨l₁, l₂, rfl⟩ := List.append_of_mem hp
  obtain ⟨heap, gHead, hstop, hchain⟩ := h.reaches.stopTimer_chain
  refine ⟨_, hstop, ⟨?_, ?_, ?_, ?_, ?_⟩, rfl, fun q hq => Function.update_of_ne (hfds q hq) _ _,
    fun fd hfd => ?_⟩
  · rwa [filter_split h.id_nodup]
  · exact fun q hq => h.id_le q (hsub.subset hq)
  · exact hsub.length_le.trans h.length_le
  · intro q hq
    show (Function.update t.fds p.2.fd none q.2.fd).isSome
    rw [Function.update_of_ne (hfds q hq)]
    exact h.fd_open q (hsub.subset hq)
  · exact h.fd_nodup.sublist (hsub.map _)
  · show Function.update t.fds p.2.fd none fd = none
    by_cases heq : fd = p.2.fd
    · rw [heq, Function.update_self]
    · rw [Function.update_of_ne heq, hfd]

/-- **`stop_timer`** of `0` or of a timer in the list takes it out and leaves the others in their
order, with their descriptors. -/
lemma Lists.stopTimer (h : Lists t timers) {timerId : ℕ}
    (hid : timerId = 0 ∨ timerId ∈ timers.map Prod.fst) :
    ∃ t', FailureDetector.stopTimer t timerId = some t' ∧
      Lists t' (timers.filter fun q => q.1 ≠ timerId) ∧ t'.started = t.started ∧
      (∀ q ∈ timers.filter fun q => q.1 ≠ timerId, t'.fds q.2.fd = t.fds q.2.fd) ∧
      ∀ fd, t.fds fd = none → t'.fds fd = none := by
  rcases hid with rfl | hmem
  · have hfilter : (timers.filter fun q => q.1 ≠ 0) = timers :=
      List.filter_eq_self.mpr fun q hq => decide_eq_true (h.id_ne_zero hq)
    rw [hfilter]
    exact ⟨t, rfl, h, rfl, fun _ _ => rfl, fun _ hfd => hfd⟩
  · obtain ⟨p, hp, rfl⟩ := List.mem_map.mp hmem
    exact h.stopTimer_of_mem hp

/-- **`_get_timer_from_fd`** finds the timer that has the descriptor. -/
lemma Lists.getTimerFromFd (h : Lists t timers) {p : ℕ × Timer} (hp : p ∈ timers) :
    FailureDetector.getTimerFromFd t p.2.fd = some p.1 := by
  have hsearch := search_data h.chain (fun timer => timer.fd = p.2.fd) h.length_le
  cases hfind : timers.find? fun q => decide (q.2.fd = p.2.fd) with
  | none => exact absurd (by simp) (List.find?_eq_none.mp hfind p hp)
  | some q =>
    have hfd : q.2.fd = p.2.fd := by simpa using List.find?_some hfind
    have hq := h.eq_of_fd (List.mem_of_find?_eq_some hfind) hp hfd
    rw [hfind, hq] at hsearch
    exact hsearch

/-- Reading the descriptor of a timer in the list that has expired finds the timer. -/
lemma Lists.timerThreadRead_eq (h : Lists t timers) {p : ℕ × Timer} (hp : p ∈ timers)
    {spec : Itimerspec} (hspec : t.fds p.2.fd = some spec) (harmed : spec.armed = true) :
    FailureDetector.timerThreadRead t p.2.fd =
      some ({ t with fds := Function.update t.fds p.2.fd (some spec.rearm) },
        some (p.1, p.2.userData)) := by
  obtain ⟨h0, n, hn, hdata⟩ := h.chain.node_of_mem hp
  simp only [FailureDetector.timerThreadRead, hspec, harmed, guard_true, h.getTimerFromFd hp,
    Option.bind_eq_bind, Option.bind_some, Option.pure_def, if_neg h0, hn, hdata]

/-- It leaves the list and the other descriptors alone. -/
lemma Lists.timerThreadRead_of_mem (h : Lists t timers) {p : ℕ × Timer} (hp : p ∈ timers)
    {spec : Itimerspec} (hspec : t.fds p.2.fd = some spec) (harmed : spec.armed = true) :
    ∃ t', FailureDetector.timerThreadRead t p.2.fd = some (t', some (p.1, p.2.userData)) ∧
      Lists t' timers ∧ t'.started = t.started ∧ t'.fds p.2.fd = some spec.rearm ∧
      ∀ q ∈ timers, q ≠ p → t'.fds q.2.fd = t.fds q.2.fd := by
  refine ⟨_, h.timerThreadRead_eq hp hspec harmed,
    ⟨h.chain, h.id_le, h.length_le, fun q hq => ?_, h.fd_nodup⟩, rfl,
    Function.update_self _ _ _, fun q hq hne => Function.update_of_ne ?_ _ _⟩
  · show (Function.update t.fds p.2.fd _ q.2.fd).isSome
    by_cases heq : q.2.fd = p.2.fd
    · rw [heq, Function.update_self]
      rfl
    · rw [Function.update_of_ne heq]
      exact h.fd_open q hq
  · exact fun heq => hne (h.eq_of_fd hq hp heq)

/-- **The timer thread** finds the timer whose descriptor it has read, or the descriptor is none of
the list's. Nothing else happens to the list and the other descriptors. -/
lemma Lists.timerThreadRead (h : Lists t timers) {fd : ℕ} {t' : TimerManager}
    {found : Option (ℕ × IpString)}
    (hread : FailureDetector.timerThreadRead t fd = some (t', found)) :
    Lists t' timers ∧ t'.started = t.started ∧
      ((found = none ∧ ∀ q ∈ timers, t'.fds q.2.fd = t.fds q.2.fd) ∨
        ∃ p ∈ timers, ∃ spec, found = some (p.1, p.2.userData) ∧ t.fds p.2.fd = some spec ∧
          spec.armed = true ∧ t'.fds p.2.fd = some spec.rearm ∧
          ∀ q ∈ timers, q ≠ p → t'.fds q.2.fd = t.fds q.2.fd) := by
  have hopen := hread
  simp only [FailureDetector.timerThreadRead, Option.bind_eq_bind, Option.bind_eq_some_iff] at hopen
  obtain ⟨spec, hspec, u, hguard, tmp, htmp, hrest⟩ := hopen
  have harmed : spec.armed = true := by
    by_contra hne
    rw [guard, if_neg hne] at hguard
    cases hguard
  by_cases hfd : ∃ p ∈ timers, p.2.fd = fd
  · obtain ⟨p, hp, rfl⟩ := hfd
    obtain ⟨t₁, hread₁, hlists, hstarted, hself, hframe⟩ :=
      h.timerThreadRead_of_mem hp hspec harmed
    rw [hread] at hread₁
    cases hread₁
    exact ⟨hlists, hstarted, Or.inr ⟨p, hp, spec, rfl, hspec, harmed, hself, hframe⟩⟩
  · have hsearch : FailureDetector.getTimerFromFd t fd = some 0 := by
      have hdata := search_data h.chain (fun timer => timer.fd = fd) h.length_le
      have hnone : (timers.find? fun q => decide (q.2.fd = fd)) = none := by
        refine List.find?_eq_none.mpr fun q hq heq => hfd ⟨q, hq, of_decide_eq_true heq⟩
      rw [hnone] at hdata
      exact hdata
    rw [hsearch] at htmp
    cases htmp
    cases hrest
    have hframe : ∀ q ∈ timers,
        Function.update t.fds fd (some spec.rearm) q.2.fd = t.fds q.2.fd :=
      fun q hq => Function.update_of_ne (fun heq => hfd ⟨q, hq, heq⟩) _ _
    refine ⟨⟨h.chain, h.id_le, h.length_le, fun q hq => ?_, h.fd_nodup⟩, rfl,
      Or.inl ⟨rfl, hframe⟩⟩
    show (Function.update t.fds fd (some spec.rearm) q.2.fd).isSome
    rw [hframe q hq]
    exact h.fd_open q hq

end TimerManager

end FailureDetector
