import FailureDetector.Detector.PollLoop

set_option relaxedAutoImplicit false
set_option autoImplicit false

/-!
# The timer thread's walks along the list

The timer thread follows the list twice in a round, in the scan and in `_get_timer_from_fd`, and
stands at a node after every step. As long as no step frees the node at which it stands, it gets
from there to the end of the list: timers that are added are put in front of the list, behind its
back, and those that are taken out are not missed. So what the scan has stored and what it has still
to store do not get more than the timers that there were when it began.

## Main definitions

* `FailureDetector.PollPc.Stands` — the timer thread stands at a node of the list, or at its end.
* `FailureDetector.PollPc.scanLength` — what the scan has stored and what it has still to store.
* `FailureDetector.PollLoop.Listed` — the invariant.
* `FailureDetector.PollLoop.InBounds` — the scan has room in its array.

## Main results

* `FailureDetector.PollLoop.Moves.stands`, `FailureDetector.PollLoop.Moves.scanLength_le` — a step
  of the timer thread along the list.
* `FailureDetector.PollLoop.Listed.step` — every step that meets the condition keeps the invariant.
* `FailureDetector.PollLoop.run_inBounds` — the scan stays in bounds if there is room for every
  timer.
-/

namespace FailureDetector

open CString LinkedList Runs

/-! ### A heartbeat -/

/-- **What an iteration of the receive loop does to the timers**: it stops that of the sender, if
there is one, and may start one. The descriptors of the other timers are left alone. -/
lemma Threads.receive_files {hostname : IpString} {t t' : Threads}
    {timers timers' : List (ℕ × Timer)} {env : DetectorEnv} {input : Received}
    (hinv : Threads.Inv hostname t timers) (hstep : t.step (.receive env input) = some t')
    (hinv' : Threads.Inv hostname t' timers') :
    let rest := timers.filter fun p => p.1 ≠ t.stopped (.receive env input)
    (timers' = rest ∨ ∃ timer, timers' = (t.detector.timers.started + 1, timer) :: rest) ∧
      ∀ p ∈ rest, t'.detector.timers.fds p.2.fd = t.detector.timers.fds p.2.fd ∧
        startedFd t.detector.timers t'.detector.timers ≠ some p.2.fd := by
  intro rest
  have hnone : t'.detector.timers.started = t.detector.timers.started → ∀ fd,
      startedFd t.detector.timers t'.detector.timers ≠ some fd := by
    intro hstarted fd
    rw [startedFd, if_pos hstarted]
    exact fun h => absurd h.symm (Option.some_ne_none fd)
  obtain ⟨timers₁, hinv₁, hdo⟩ := Threads.step_timers hinv hstep
  obtain rfl := hinv₁.timersOwned.lists.chain.unique hinv'.timersOwned.lists.chain
  cases hdo with
  | kept _ hears =>
    have hheard : t.heard (.receive env input) = none := by
      cases hheard : t.heard (.receive env input) with
      | none => rfl
      | some p => exact absurd (Threads.hears_iff.mpr ⟨p.1, hheard⟩) (hears p.2)
    have hstopped : t.stopped (.receive env input) = 0 := by rw [Threads.stopped, hheard]
    have hrest : rest = timers := Threads.filter_zero hinv hstopped
    have hsame := Threads.timers_receive hstep hears
    rw [hrest]
    exact ⟨Or.inl rfl, fun p _ => ⟨by rw [hsame], hnone (by rw [hsame]) _⟩⟩
  | heartbeat _ ip received timerId _ hears _ restarted _ =>
    obtain ⟨env', received', heq, hip, hlock⟩ := hears
    cases heq
    have hheard : t.heard (.receive env (.beacon ip received)) = some (env, ip) :=
      Threads.heard_eq_some.mpr ⟨received, rfl, hip, hlock⟩
    have hrest : rest = timers.filter fun p => p.1 ≠ (t.detector.timerOf ip).getD 0 := by
      simp only [rest, Threads.stopped, hheard]
    rw [hrest]
    cases restarted with
    | failed _ _ started frame =>
      exact ⟨Or.inl rfl, fun p hp => ⟨frame p hp, hnone started _⟩⟩
    | started timer lists userData fds started frame =>
      refine ⟨Or.inr ⟨timer, rfl⟩, fun p hp => ⟨frame p hp, ?_⟩⟩
      have hnodup := lists.fd_nodup
      rw [List.map_cons, List.nodup_cons] at hnodup
      rw [TimedThreads.startedFd_of_started lists started]
      intro heq
      exact hnodup.1 (List.mem_map.mpr ⟨p, hp, (Option.some.inj heq).symm⟩)

/-! ### A step along the list -/

namespace PollPc

variable {pc : PollPc} {timers : List (ℕ × Timer)}

/-- The timer thread has made sure that it stands at a node. -/
def tested : PollPc → Bool
  | advance _ _ | lookupNext _ _ _ | found _ _ _ => true
  | _ => false

/-- The timer thread stands at a node of the list, or at its end. -/
structure Stands (pc : PollPc) (timers : List (ℕ × Timer)) : Prop where
  node : pc.node = 0 ∨ pc.node ∈ timers.map Prod.fst
  tested : pc.tested = true → pc.node ≠ 0

/-- What the scan has stored and what it has still to store. -/
def scanLength (pc : PollPc) (timers : List (ℕ × Timer)) : ℕ :=
  pc.ufds.length + (pc.toScan timers).length

/-- Taking out other timers than the one at which the timer thread stands. -/
lemma toScan_filter {q : ℕ × Timer → Bool} (h : ∀ p ∈ timers, p.1 = pc.node → q p = true) :
    pc.toScan (timers.filter q) = (pc.toScan timers).filter q := by
  cases pc with
  | scan tmp ufds => exact startingAt_filter h
  | advance tmp ufds => exact tail_startingAt_filter h
  | _ => rfl

/-- A timer in front of the list is not scanned any more. -/
lemma toScan_cons {p : ℕ × Timer} (hp : p.1 ≠ pc.node) :
    pc.toScan (p :: timers) = pc.toScan timers := by
  cases pc with
  | scan tmp ufds => exact startingAt_cons_of_ne hp
  | advance tmp ufds => exact congrArg List.tail (startingAt_cons_of_ne hp)
  | _ => rfl

/-- The timer thread stands where it does after the removal of other timers. -/
lemma Stands.filter (h : pc.Stands timers) {q : ℕ × Timer → Bool}
    (hq : ∀ p ∈ timers, p.1 = pc.node → q p = true) : pc.Stands (timers.filter q) := by
  refine ⟨h.node.imp_right fun hmem => ?_, h.tested⟩
  obtain ⟨p, hp, heq⟩ := List.mem_map.mp hmem
  exact heq ▸ List.mem_map_of_mem (List.mem_filter.mpr ⟨hp, hq p hp heq⟩)

/-- The same for a timer in front of the list. -/
lemma Stands.cons (h : pc.Stands timers) (p : ℕ × Timer) : pc.Stands (p :: timers) :=
  ⟨h.node.imp_right (List.mem_cons_of_mem _), h.tested⟩

/-- There is not more to store after the removal of other timers. -/
lemma scanLength_filter_le {q : ℕ × Timer → Bool}
    (hq : ∀ p ∈ timers, p.1 = pc.node → q p = true) :
    pc.scanLength (timers.filter q) ≤ pc.scanLength timers := by
  rw [scanLength, scanLength, toScan_filter hq]
  exact Nat.add_le_add_left (List.length_filter_le _ _) _

end PollPc

namespace PollLoop

variable {hostname : IpString} {s s' : PollLoop} {timers : List (ℕ × Timer)} {a : PollAction}
  {actions : List PollAction} {unset : NodeStruct} {currentNodeIp : IpBuffer} {lastLogged now : ℚ}

/-- What the timer thread finds at a node of the list. -/
lemma exists_node {t : TimerManager} (hreaches : t.Reaches timers) (freed : Node Timer) (tmp : ℕ)
    (h0 : tmp ≠ 0) (hnode : tmp = 0 ∨ tmp ∈ timers.map Prod.fst) :
    ∃ n, (t.heap tmp).getD freed = n ∧
      startingAt timers tmp = (tmp, n.data) :: startingAt timers n.next ∧
      (n.next = 0 ∨ n.next ∈ timers.map Prod.fst) := by
  obtain ⟨n, hn, hrest⟩ := hreaches.chain.startingAt_node (hnode.resolve_left h0)
  exact ⟨n, by rw [hn, Option.getD_some], hrest⟩

/-- **A step of the timer thread along the list** ends at a node of the list, or at its end. -/
lemma Moves.stands {time : ℚ} {freed : Node Timer} {pc pc' : PollPc}
    (hmoves : Moves s time freed pc pc') (h : pc.Stands timers)
    (hreaches : s.detector.timers.Reaches timers) : pc'.Stands timers := by
  have hhead : s.detector.timers.gHead = 0 ∨ s.detector.timers.gHead ∈ timers.map Prod.fst := by
    cases timers with
    | nil => exact Or.inl hreaches.chain.head_eq_zero
    | cons p l => exact Or.inr (hreaches.chain.head_eq ▸ List.mem_cons_self)
  obtain ⟨hnode, htested⟩ := h
  cases hmoves with
  | top => exact ⟨hhead, nofun⟩
  | called => exact ⟨hhead, nofun⟩
  | stored tmp ufds h0 => exact ⟨hnode, fun _ => h0⟩
  | matched fd tmp ready h0 => exact ⟨hnode, fun _ => h0⟩
  | different fd tmp ready h0 => exact ⟨hnode, fun _ => h0⟩
  | advanced tmp ufds =>
    obtain ⟨n, hn, -, hnode'⟩ := exists_node hreaches freed tmp (htested rfl) hnode
    rw [hn]
    exact ⟨hnode', nofun⟩
  | followed fd tmp ready =>
    obtain ⟨n, hn, -, hnode'⟩ := exists_node hreaches freed tmp (htested rfl) hnode
    rw [hn]
    exact ⟨hnode', nofun⟩
  | scanned | polled | visited | closed | opened | absent => exact ⟨Or.inl rfl, nofun⟩

/-- **The scan** begins with as much to store as there are timers, and stores what it takes from the
rest of the list. -/
lemma Moves.scanLength_le {time : ℚ} {freed : Node Timer} {pc pc' : PollPc}
    (hmoves : Moves s time freed pc pc') (h : pc.Stands timers)
    (hreaches : s.detector.timers.Reaches timers) :
    pc'.scanLength timers ≤ max (pc.scanLength timers) timers.length := by
  obtain ⟨hnode, htested⟩ := h
  cases hmoves with
  | top =>
    rw [PollPc.scanLength, PollPc.toScan, hreaches.chain.startingAt_head]
    exact (Nat.zero_add _).trans_le (le_max_right _ _)
  | scanned ufds => exact (Nat.le_add_right _ _).trans (le_max_left _ _)
  | stored tmp ufds h0 =>
    obtain ⟨n, -, hrest, -⟩ := exists_node hreaches freed tmp h0 hnode
    refine le_trans (le_of_eq ?_) (le_max_left _ _)
    simp only [PollPc.scanLength, PollPc.ufds, PollPc.toScan, hrest, List.tail_cons,
      List.length_append, List.length_cons, List.length_nil]
    omega
  | advanced tmp ufds =>
    obtain ⟨n, hn, hrest, -⟩ := exists_node hreaches freed tmp (htested rfl) hnode
    refine le_trans (le_of_eq ?_) (le_max_left _ _)
    simp only [PollPc.scanLength, PollPc.ufds, PollPc.toScan, hn, hrest, List.tail_cons]
  | polled | visited | closed | opened | called | absent | matched | different | followed =>
    exact Nat.zero_le _

/-! ### The invariant -/

/-- Reading a file leaves the list alone. -/
lemma readFile_list (s : PollLoop) (fd : ℕ) (file : TimerFile) :
    (s.readFile fd file).heap = s.detector.timers.heap ∧
      (s.readFile fd file).gHead = s.detector.timers.gHead ∧
      (s.readFile fd file).started = s.detector.timers.started := by
  unfold readFile
  split
  · exact ⟨rfl, rfl, rfl⟩
  · split <;> exact ⟨rfl, rfl, rfl⟩

/-- Reading a file keeps the invariant of the threads: a single-shot timer does not expire twice. -/
lemma readFile_inv (hinv : Threads.Inv hostname s.toThreads timers) (fd : ℕ) (file : TimerFile) :
    Threads.Inv hostname ⟨⟨{ s.detector with timers := s.readFile fd file }, s.trace⟩, s.pending⟩
      timers := by
  unfold readFile
  split
  · exact hinv
  · next spec hspec =>
    split
    · have hlists := hinv.timersOwned.lists
      refine ⟨hinv.hostname_eq, ⟨hinv.wf.nodup, hinv.wf.hostname_mem⟩,
        ⟨⟨hlists.chain, hlists.id_le, hlists.length_le, fun p hp => ?_, hlists.fd_nodup⟩,
          hinv.timersOwned.owned⟩, hinv.peers, fun p hp spec' hspec' => ?_, hinv.pending,
        hinv.latest⟩
      · by_cases hfd : p.2.fd = fd
        · simp [hfd]
        · have hopen := hlists.fd_open p hp
          simpa [Function.update_of_ne hfd] using hopen
      · by_cases hfd : p.2.fd = fd
        · subst hfd
          have hrearm := hinv.singleShot p hp spec hspec
          simp only [Function.update_self, Option.some.injEq] at hspec'
          rw [← hspec']
          exact hrearm
        · simp only [Function.update_of_ne hfd] at hspec'
          exact hinv.singleShot p hp spec' hspec'
    · exact hinv

/-- Picking up a timer of the list keeps the invariant of the threads. -/
lemma pending_inv {t : Threads} (hinv : Threads.Inv hostname t timers) {p : ℕ × Timer}
    (hp : p ∈ timers) :
    Threads.Inv hostname { t with pending := some (p.1, p.2.userData) } timers := by
  refine ⟨hinv.hostname_eq, hinv.wf, hinv.timersOwned, hinv.peers, hinv.singleShot,
    fun id ip hpending => ?_, hinv.latest⟩
  cases hpending
  exact ⟨hinv.peers p hp, hinv.timersOwned.lists.id_ne_zero hp, hinv.timersOwned.lists.id_le p hp⟩

/-- The invariant of the walks, where `timers` is the timer list. It includes that of the two
threads until the main thread terminates the timer manager. -/
structure Listed (hostname : IpString) (s : PollLoop) (timers : List (ℕ × Timer)) : Prop where
  reaches : s.detector.timers.Reaches timers
  stands : s.pc.Stands timers
  threads : s.terminating = false → Threads.Inv hostname s.toThreads timers

/-- The scan stores no more than the timers that there were, and a step adds one at most. -/
structure Grows (s : PollLoop) (timers : List (ℕ × Timer)) (a : PollAction) (s' : PollLoop)
    (timers' : List (ℕ × Timer)) : Prop where
  scanLength_le : s'.pc.scanLength timers' ≤ max (s.pc.scanLength timers) timers.length
  length_le : timers'.length ≤ timers.length ∨
    (s.AddsTimer a ∧ timers'.length = timers.length + 1)

/-- A step of the timer thread keeps the invariant. -/
lemma Listed.timer (h : Listed hostname s timers) {time : ℚ} {env : DetectorEnv}
    {freed : Node Timer} (hdo : TimerStep s time env freed s') (a : PollAction) :
    Listed hostname s' timers ∧ Grows s timers a s' timers := by
  obtain ⟨hreaches, hstands, hthreads⟩ := h
  cases hdo with
  | callback threads hstep =>
    obtain ⟨-, -, hcallback, -⟩ := TimedThreads.step_eq_some hstep
    have htimers : threads.detector.timers = s.detector.timers := by
      obtain ⟨⟨timerId, ip⟩, -, heq⟩ := Option.map_eq_some_iff.mp hcallback
      rw [← heq]
      exact handleTimeout_timers ..
    refine ⟨⟨?_, hstands, fun hrunning => ?_⟩, le_max_left _ _, Or.inl le_rfl⟩
    · show threads.detector.timers.Reaches timers
      rw [htimers]
      exact hreaches
    · obtain ⟨timers', hinv', hdo⟩ := Threads.step_timers (hthreads hrunning) hcallback
      cases hdo
      exact hinv'
  | returned fd file ready hpending hpc hreadable =>
    obtain ⟨hheap, hhead, hstarted⟩ := s.readFile_list fd file
    refine ⟨⟨⟨?_, ?_⟩, ⟨Or.inl rfl, nofun⟩, fun hrunning => ?_⟩, Nat.zero_le _, Or.inl le_rfl⟩
    · show Chain (s.readFile fd file).heap (s.readFile fd file).gHead timers
      rw [hheap, hhead]
      exact hreaches.chain
    · exact hreaches.length_le.trans_eq hstarted.symm
    · exact readFile_inv (hthreads hrunning) fd file
  | copied fd tmp ready hpending hpc =>
    rw [hpc] at hstands
    obtain ⟨p, hp, hid⟩ := List.mem_map.mp (hstands.node.resolve_left (hstands.tested rfl))
    refine ⟨⟨hreaches, ⟨Or.inl rfl, nofun⟩, fun hrunning => ?_⟩, Nat.zero_le _, Or.inl le_rfl⟩
    obtain ⟨-, n, hn, hdata⟩ := hreaches.chain.node_of_mem hp
    have hinv := pending_inv (hthreads hrunning) hp
    have htmp : p.1 = tmp := hid
    rw [htmp, ← hdata] at hinv
    rw [htmp] at hn
    rw [hn]
    exact hinv
  | moved pc hpending hmoves =>
    exact ⟨⟨hreaches, hmoves.stands hstands hreaches, hthreads⟩,
      hmoves.scanLength_le hstands hreaches, Or.inl le_rfl⟩

/-- A step stops another timer than the one at which the timer thread stands. -/
lemma Untouched.keeps (hfree : s.Untouched a) (hreaches : s.detector.timers.Reaches timers) :
    ∀ p ∈ timers, p.1 = s.pc.node → decide (p.1 ≠ s.stops a) = true := by
  intro p hp hnode
  refine decide_eq_true fun heq => ?_
  rcases hfree with h0 | hne
  · exact (hreaches.chain.node_of_mem hp).1 (heq.trans h0)
  · exact hne (heq.symm.trans hnode)

/-- A new timer is not the one at which the timer thread stands. -/
lemma new_ne_node {t : TimerManager} {pc : PollPc} (hlists : t.Lists timers)
    (hstands : pc.Stands timers) : t.started + 1 ≠ pc.node := by
  rcases hstands.node with h0 | hmem
  · omega
  · obtain ⟨p, hp, hid⟩ := List.mem_map.mp hmem
    have hle := hlists.id_le p hp
    omega

/-- A heartbeat that leaves the node alone at which the timer thread stands keeps the invariant. -/
lemma Listed.receive (h : Listed hostname s timers) {time : ℚ} {env : DetectorEnv}
    {input : Received} (hstep : s.step (.receive time env input) = some s')
    (hfree : s.Untouched (.receive time env input)) :
    ∃ timers', Listed hostname s' timers' ∧
      Grows s timers (.receive time env input) s' timers' := by
  obtain ⟨hreaches, hstands, hthreads⟩ := h
  rw [step] at hstep
  split at hstep
  · cases hstep
  · next hrunning =>
    rw [Bool.not_eq_true] at hrunning
    have hinv := hthreads hrunning
    obtain ⟨threads, htimed, rfl⟩ := Option.map_eq_some_iff.mp hstep
    obtain ⟨-, -, hthreads', -⟩ := TimedThreads.step_eq_some htimed
    obtain ⟨timers', hinv', -⟩ := Threads.step_timers hinv hthreads'
    have hlen : timers'.length ≤ timers.length ∨
        (s.AddsTimer (.receive time env input) ∧ timers'.length = timers.length + 1) := by
      by_cases hadds : s.toThreads.AddsTimer (.receive env input)
      · obtain ⟨timers₁, hinv₁, hlen⟩ := Threads.length_of_addsTimer hinv hthreads' hadds
        rw [hinv'.timersOwned.lists.chain.unique hinv₁.timersOwned.lists.chain]
        exact Or.inr ⟨⟨time, env, input, rfl, hadds⟩, hlen⟩
      · obtain ⟨timers₁, hinv₁, hlen⟩ := Threads.length_of_not_addsTimer hinv hthreads' hadds
        rw [hinv'.timersOwned.lists.chain.unique hinv₁.timersOwned.lists.chain]
        exact Or.inl hlen
    suffices h : s.pc.Stands timers' ∧ s.pc.scanLength timers' ≤ s.pc.scanLength timers from
      ⟨timers', ⟨hinv'.timersOwned.lists.reaches, h.1, fun _ => hinv'⟩,
        h.2.trans (le_max_left _ _), hlen⟩
    have hkeeps := hfree.keeps hreaches
    have hscan := PollPc.scanLength_filter_le hkeeps
    rcases (Threads.receive_files hinv hthreads' hinv').1 with rfl | ⟨timer, rfl⟩
    · exact ⟨hstands.filter hkeeps, hscan⟩
    · have hne := new_ne_node hinv.timersOwned.lists hstands
      refine ⟨(hstands.filter hkeeps).cons _, ?_⟩
      rw [PollPc.scanLength, PollPc.toScan_cons hne]
      exact hscan

/-- Stopping the timer at the head of the list keeps the invariant. -/
lemma Listed.stop (h : Listed hostname s timers) {time : ℚ} (hstep : s.step (.stop time) = some s')
    (hfree : s.Untouched (.stop time)) :
    ∃ timers', Listed hostname s' timers' ∧ Grows s timers (.stop time) s' timers' := by
  obtain ⟨hreaches, hstands, -⟩ := h
  rw [step] at hstep
  split at hstep
  · next hcond =>
    obtain ⟨t, hstop, rfl⟩ := Option.map_eq_some_iff.mp hstep
    cases timers with
    | nil => exact absurd hreaches.chain.head_eq_zero hcond.2
    | cons p l =>
      have hhead : p.1 = s.detector.timers.gHead := hreaches.chain.head_eq
      obtain ⟨heap, gHead, heq, hchain⟩ := hreaches.stopTimer_head
      rw [hhead, hstop, Option.some.injEq] at heq
      subst heq
      have hstarted : l.length + 1 ≤ s.detector.timers.started := hreaches.length_le
      have hnodup : (([] ++ p :: l).map Prod.fst).Nodup := hreaches.id_nodup
      have hfilter : ((p :: l).filter fun q => q.1 ≠ s.stops (.stop time)) = l := by
        rw [stops, ← hhead]
        exact TimerManager.filter_split hnodup
      have hkeeps := hfree.keeps hreaches
      have hkept := hstands.filter hkeeps
      have hscan := PollPc.scanLength_filter_le hkeeps
      rw [hfilter] at hkept hscan
      exact ⟨l, ⟨⟨hchain, (Nat.le_succ _).trans hstarted⟩, hkept, fun h => Bool.noConfusion h⟩,
        hscan.trans (le_max_left _ _), Or.inl (Nat.le_succ _)⟩
  · cases hstep

/-- **Every step that meets the condition keeps the invariant.** -/
lemma Listed.step (h : Listed hostname s timers) (hfree : s.Untouched a)
    (hstep : s.step a = some s') :
    ∃ timers', Listed hostname s' timers' ∧ Grows s timers a s' timers' := by
  cases a with
  | receive time env input => exact h.receive hstep hfree
  | timer time env freed => exact ⟨timers, h.timer (timerStep_of_step hstep).2 _⟩
  | stop time => exact h.stop hstep hfree

/-- The invariant holds when the receive loop starts. -/
lemma start_listed (hostname : IpString) (unset : NodeStruct) (currentNodeIp : IpBuffer)
    (lastLogged now : ℚ) : Listed hostname (start hostname unset currentNodeIp lastLogged now) [] :=
  ⟨TimerManager.lists_init.reaches, ⟨Or.inl rfl, nofun⟩,
    fun _ => Threads.start_inv hostname unset currentNodeIp lastLogged⟩

/-- The scan has room in its array for what it has still to store. -/
structure InBounds (s : PollLoop) (timers : List (ℕ × Timer)) : Prop where
  length_le : timers.length ≤ maxTimerCount
  scanLength_le : s.pc.scanLength timers ≤ maxTimerCount

/-- It has so after a step if there is room for a timer that it adds. -/
lemma InBounds.step {timers' : List (ℕ × Timer)} (hin : s.InBounds timers)
    (hreaches : s.detector.timers.Reaches timers) (hroom : s.RoomForTimer a)
    (hgrows : Grows s timers a s' timers') : s'.InBounds timers' := by
  refine ⟨?_, hgrows.scanLength_le.trans (max_le hin.scanLength_le hin.length_le)⟩
  rcases hgrows.length_le with hle | ⟨hadds, heq⟩
  · exact hle.trans hin.length_le
  · have hlt := hroom hadds timers hreaches
    omega

/-- **In a run of steps that meet the conditions** the scan stays in bounds. -/
lemma run_inBounds
    (halong : Along PollLoop.step (fun s a => s.Untouched a ∧ s.RoomForTimer a)
      (start hostname unset currentNodeIp lastLogged now) actions)
    (hrun : run PollLoop.step (start hostname unset currentNodeIp lastLogged now) actions =
      some s) : ∃ timers, Listed hostname s timers ∧ s.InBounds timers := by
  refine run_invariant_along (fun s => ∃ timers, Listed hostname s timers ∧ s.InBounds timers) ?_
    ⟨[], start_listed hostname unset currentNodeIp lastLogged now, Nat.zero_le _, Nat.zero_le _⟩
    halong hrun
  rintro s a s' ⟨timers, h, hin⟩ ⟨hfree, hroom⟩ hstep
  obtain ⟨timers', h', hgrows⟩ := h.step hfree hstep
  exact ⟨timers', h', hin.step h.reaches hroom hgrows⟩

end PollLoop

end FailureDetector
