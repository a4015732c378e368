import FailureDetector.Detector.PollWalk

set_option relaxedAutoImplicit false
set_option autoImplicit false

/-!
# The loop of the timer thread and its two steps

Between `poll` and the callback the timer thread reads a descriptor and looks for its timer, one
node of the list after the other. If no heartbeat stops a timer meanwhile that it is about to serve,
or at whose node it stands, then it finds the timer of the descriptor that it has read, and a read
does not wait. So it is as if the timer were picked up when its descriptor is read, which is one
step of the two threads (`FailureDetector.TimedThreads.step`): the loop refines them.

## Main definitions

* `FailureDetector.PollLoop.Undisturbed` — the condition.
* `FailureDetector.PollLoop.Hears`, `FailureDetector.PollLoop.NotOvertaken` — as for the two
  threads.
* `FailureDetector.PollLoop.abstract` — what the two threads have done.
* `FailureDetector.PollLoop.Refines` — the refinement relation and the invariant that it needs.
* `FailureDetector.PollLoop.ActsAs` — the step of the two threads that a step is.

## Main results

* `FailureDetector.PollLoop.Refines.step` — every undisturbed step is a step of the two threads, or
  none.
* `FailureDetector.PollLoop.Refines.exists_run` — so every undisturbed run is one of the two
  threads.
-/

namespace FailureDetector

open CString LinkedList Runs

namespace PollPc

variable {pc : PollPc} {timers : List (ℕ × Timer)}

/-- The timers among which the one of the descriptor that has been read is looked for. -/
def toSearch (timers : List (ℕ × Timer)) : PollPc → List (ℕ × Timer)
  | call _ _ => timers
  | lookup _ tmp _ => startingAt timers tmp
  | lookupNext _ tmp _ => (startingAt timers tmp).tail
  | found _ tmp _ => timers.filter fun p => p.1 = tmp
  | _ => []

/-- The descriptors that `poll` has found ready and whose timers have not been found yet. -/
def claimed (pc : PollPc) : List ℕ := pc.serving.toList ++ pc.ready

/-- The timers that are searched are some of the list's. -/
lemma mem_of_mem_toSearch {p : ℕ × Timer} (hp : p ∈ pc.toSearch timers) : p ∈ timers := by
  cases pc with
  | call fd ready => exact hp
  | lookup fd tmp ready => exact (startingAt_sublist timers tmp).subset hp
  | lookupNext fd tmp ready =>
    exact (startingAt_sublist timers tmp).subset (List.mem_of_mem_tail hp)
  | found fd tmp ready => exact List.mem_of_mem_filter hp
  | _ => cases hp

/-- Taking out other timers than the one at which the timer thread stands. -/
lemma mem_toSearch_filter {q : ℕ × Timer → Bool} (hq : ∀ p ∈ timers, p.1 = pc.node → q p = true)
    {p : ℕ × Timer} (hp : p ∈ pc.toSearch timers) (hqp : q p = true) :
    p ∈ pc.toSearch (timers.filter q) := by
  cases pc with
  | call fd ready => exact List.mem_filter.mpr ⟨hp, hqp⟩
  | lookup fd tmp ready =>
    have hrest : startingAt (timers.filter q) tmp = (startingAt timers tmp).filter q :=
      startingAt_filter hq
    rw [toSearch, hrest]
    exact List.mem_filter.mpr ⟨hp, hqp⟩
  | lookupNext fd tmp ready =>
    have hrest : (startingAt (timers.filter q) tmp).tail = (startingAt timers tmp).tail.filter q :=
      tail_startingAt_filter hq
    rw [toSearch, hrest]
    exact List.mem_filter.mpr ⟨hp, hqp⟩
  | found fd tmp ready =>
    obtain ⟨hmem, hid⟩ := List.mem_filter.mp hp
    exact List.mem_filter.mpr ⟨List.mem_filter.mpr ⟨hmem, hqp⟩, hid⟩
  | _ => cases hp

/-- A timer in front of the list does not keep others from being found. -/
lemma mem_toSearch_cons {r : ℕ × Timer} (hr : r.1 ≠ pc.node) {p : ℕ × Timer}
    (hp : p ∈ pc.toSearch timers) : p ∈ pc.toSearch (r :: timers) := by
  cases pc with
  | call fd ready => exact List.mem_cons_of_mem _ hp
  | lookup fd tmp ready =>
    have hrest : startingAt (r :: timers) tmp = startingAt timers tmp := startingAt_cons_of_ne hr
    rw [toSearch, hrest]
    exact hp
  | lookupNext fd tmp ready =>
    have hrest : startingAt (r :: timers) tmp = startingAt timers tmp := startingAt_cons_of_ne hr
    rw [toSearch, hrest]
    exact hp
  | found fd tmp ready =>
    obtain ⟨hmem, hid⟩ := List.mem_filter.mp hp
    exact List.mem_filter.mpr ⟨List.mem_cons_of_mem _ hmem, hid⟩
  | _ => cases hp

end PollPc

/-- A file that can be read can be read later. -/
lemma TimerFile.readable_mono {file : TimerFile} {time time' : ℚ}
    (hle : time ≤ time') (h : file.readable time = true) : file.readable time' = true := by
  have hread := of_decide_eq_true h
  exact decide_eq_true ⟨hread.1, hread.2.trans hle⟩

namespace PollLoop

/-! ### The conditions -/

/-- The step does not disturb the timer thread: it stops no timer at whose node the timer thread
stands, nor one whose descriptor `poll` has found ready, until the timer thread has found the timer.
Nor does the main thread terminate the timer manager. -/
structure Undisturbed (s : PollLoop) (a : PollAction) : Prop where
  not_stop : ∀ time, a ≠ .stop time
  untouched : s.Untouched a
  unclaimed : s.stops a ≠ 0 → ∀ node, s.detector.timers.heap (s.stops a) = some node →
    node.data.fd ∉ s.pc.claimed

/-- The step processes a heartbeat of the node `ip`. -/
def Hears (s : PollLoop) (a : PollAction) (ip : IpString) : Prop :=
  ∃ time env input, a = .receive time env input ∧ s.toThreads.Hears (.receive env input) ip

/-- The timer thread has read the descriptor of a timer of `ip`, and has not run its callback. -/
def Serves (s : PollLoop) (ip : IpString) : Prop :=
  (∃ id, s.pending = some (id, ip)) ∨
    ∃ id node, s.detector.timers.heap id = some node ∧ s.pc.serving = some node.data.fd ∧
      node.data.userData = ip

/-- The step does not process a heartbeat of a node while the timer thread serves one of its
timers. -/
def NotOvertaken (s : PollLoop) (a : PollAction) : Prop := ∀ ip, s.Hears a ip → ¬ s.Serves ip

/-- A step of the timer thread stops no timer. -/
lemma undisturbed_timer (s : PollLoop) (time : ℚ) (env : DetectorEnv) (freed : Node Timer) :
    s.Undisturbed (.timer time env freed) :=
  ⟨fun _ heq => PollAction.noConfusion heq, Or.inl rfl, fun h => absurd rfl h⟩

/-- A step of the timer thread processes no heartbeat. -/
lemma not_hears_timer (s : PollLoop) (time : ℚ) (env : DetectorEnv) (freed : Node Timer)
    (ip : IpString) : ¬ s.Hears (.timer time env freed) ip := by
  rintro ⟨time', env', input, heq, -⟩
  cases heq

/-! ### The refinement relation -/

/-- What the two threads have done by the time `now`, where `pending` has been picked up. -/
def abstract (s : PollLoop) (now : ℚ) (pending : Option (ℕ × IpString)) : TimedThreads :=
  { s.toTimedThreads with now := now, pending := pending }

/-- What `poll` has found ready can be read at the time `time`, and is what is being read. -/
structure Ready (s : PollLoop) (pc : PollPc) (time : ℚ) : Prop where
  nodup : pc.ready.Nodup
  readable : ∀ fd ∈ pc.ready, ∃ file, s.file fd = some file ∧ file.readable time = true
  reading : ∀ fd file ready, pc = .read fd file ready → s.file fd = some file

/-- What has been picked up is the timer whose descriptor has been read, and which is still to be
found. -/
def Picked (s : PollLoop) (pc : PollPc) (pending : Option (ℕ × IpString))
    (timers : List (ℕ × Timer)) : Prop :=
  match pc.serving with
  | none => pending = s.pending
  | some fd => s.pending = none ∧ ∃ p ∈ pc.toSearch timers, p.2.fd = fd ∧
      pending = some (p.1, p.2.userData)

/-- The refinement relation, where `timers` is the timer list. -/
structure Refines (hostname : IpString) (s : PollLoop) (now : ℚ)
    (pending : Option (ℕ × IpString)) (timers : List (ℕ × Timer)) : Prop where
  inv : TimedThreads.Inv hostname (s.abstract now pending) timers
  now_le : now ≤ s.now
  running : s.terminating = false
  openListed : s.detector.timers.OpenListed timers
  stands : s.pc.Stands timers
  scan : (s.pc.ufds ++ (s.pc.toScan timers).map fun p => p.2.fd).Nodup
  polled : ∀ since ufds, s.pc = .poll since ufds → since ≤ s.now
  ready : s.Ready s.pc s.now
  picked : s.Picked s.pc pending timers

/-- The step of the two threads that a step of the program is. -/
inductive ActsAs : PollAction → TimedAction → Prop
  | receive (time : ℚ) (env : DetectorEnv) (input : Received) :
      ActsAs (.receive time env input) ⟨time, .receive env input⟩
  | pickUp (time : ℚ) (env : DetectorEnv) (freed : Node Timer) (fd : ℕ) :
      ActsAs (.timer time env freed) ⟨time, .pickUp fd⟩
  | callback (time : ℚ) (env : DetectorEnv) (freed : Node Timer) :
      ActsAs (.timer time env freed) ⟨time, .callback env⟩

variable {hostname : IpString} {s s' : PollLoop} {timers timers' : List (ℕ × Timer)}
  {a : PollAction} {now time : ℚ} {pending : Option (ℕ × IpString)}

/-! ### Steps that the two threads do not see -/

/-- The descriptors that are scanned are different. -/
lemma Moves.scan {freed : Node Timer} {pc pc' : PollPc} (hmoves : Moves s time freed pc pc')
    (hlists : s.detector.timers.Lists timers) (hstands : pc.Stands timers)
    (h : (pc.ufds ++ (pc.toScan timers).map fun p => p.2.fd).Nodup) :
    (pc'.ufds ++ (pc'.toScan timers).map fun p => p.2.fd).Nodup := by
  obtain ⟨hnode, htested⟩ := hstands
  cases hmoves with
  | top =>
    rw [PollPc.toScan, hlists.chain.startingAt_head]
    exact hlists.fd_nodup
  | scanned ufds =>
    refine (List.append_nil ufds).symm ▸ ?_
    exact h.of_append_left
  | stored tmp ufds h0 =>
    obtain ⟨n, hn, hrest, -⟩ := exists_node hlists.reaches freed tmp h0 hnode
    rw [PollPc.toScan, hrest] at h
    rw [PollPc.toScan, hrest, hn]
    simpa [PollPc.ufds] using h
  | advanced tmp ufds =>
    obtain ⟨n, hn, hrest, -⟩ := exists_node hlists.reaches freed tmp (htested rfl) hnode
    rw [PollPc.toScan, hrest] at h
    rw [PollPc.toScan, hn]
    exact h
  | polled | visited | closed | opened | called | absent | matched | different | followed =>
    exact List.nodup_nil

/-- The descriptors that `poll` finds ready can be read. -/
lemma Moves.ready {freed : Node Timer} {pc pc' : PollPc} (hmoves : Moves s time freed pc pc')
    (hscan : pc.ufds.Nodup) (h : s.Ready pc time) : s.Ready pc' time := by
  cases hmoves with
  | polled since ufds =>
    refine ⟨hscan.filter _, fun fd hfd => ?_, nofun⟩
    have hany := (List.mem_filter.mp hfd).2
    cases hfile : s.file fd with
    | none =>
      rw [hfile] at hany
      cases hany
    | some file =>
      rw [hfile] at hany
      exact ⟨file, rfl, hany⟩
  | closed fd ready =>
    refine ⟨(List.nodup_cons.mp h.nodup).2, fun fd' hfd' => ?_, nofun⟩
    exact h.readable fd' (List.mem_cons_of_mem _ hfd')
  | opened fd ready file hfile =>
    refine ⟨h.nodup, h.readable, fun fd' file' ready' heq => ?_⟩
    cases heq
    exact hfile
  | top | scanned | stored | advanced | visited => exact ⟨List.nodup_nil, nofun, nofun⟩
  | called | absent | matched | different | followed => exact ⟨h.nodup, h.readable, nofun⟩

/-- The timer thread is in `poll` since it has called it. -/
lemma Moves.since_eq {freed : Node Timer} {pc pc' : PollPc} (hmoves : Moves s time freed pc pc')
    {since : ℚ} {ufds : List ℕ} (heq : pc' = .poll since ufds) : since = time := by
  cases hmoves <;> cases heq
  rfl

/-- The timer thread finds the timer whose descriptor it has read. -/
lemma Moves.picked {freed : Node Timer} {pc pc' : PollPc} (hmoves : Moves s time freed pc pc')
    (hlists : s.detector.timers.Lists timers) (hstands : pc.Stands timers)
    (h : s.Picked pc pending timers) : s.Picked pc' pending timers := by
  obtain ⟨hnode, htested⟩ := hstands
  cases hmoves with
  | called fd ready =>
    obtain ⟨hpending, p, hp, hfound⟩ := h
    refine ⟨hpending, p, ?_, hfound⟩
    rw [PollPc.toSearch, hlists.chain.startingAt_head]
    exact hp
  | absent fd ready =>
    obtain ⟨-, p, hp, -⟩ := h
    rw [PollPc.toSearch, startingAt_of_notMem hlists.chain.zero_notMem] at hp
    cases hp
  | matched fd tmp ready h0 hfd =>
    obtain ⟨hpending, p, hp, hpfd, heq⟩ := h
    obtain ⟨n, hn, hrest, -⟩ := exists_node hlists.reaches freed tmp h0 hnode
    rw [hn] at hfd
    have hhead : (tmp, n.data) ∈ timers :=
      (startingAt_sublist timers tmp).subset (hrest ▸ List.mem_cons_self)
    obtain rfl := hlists.eq_of_fd (PollPc.mem_of_mem_toSearch hp) hhead (hpfd.trans hfd.symm)
    exact ⟨hpending, _, List.mem_filter.mpr ⟨hhead, decide_eq_true rfl⟩, hpfd, heq⟩
  | different fd tmp ready h0 hfd =>
    obtain ⟨hpending, p, hp, hpfd, heq⟩ := h
    obtain ⟨n, hn, hrest, -⟩ := exists_node hlists.reaches freed tmp h0 hnode
    rw [hn] at hfd
    refine ⟨hpending, p, ?_, hpfd, heq⟩
    rw [PollPc.toSearch, hrest] at hp
    rw [PollPc.toSearch, hrest]
    refine (List.mem_cons.mp hp).resolve_left ?_
    rintro rfl
    exact hfd hpfd
  | followed fd tmp ready =>
    obtain ⟨hpending, p, hp, hfound⟩ := h
    obtain ⟨n, hn, hrest, -⟩ := exists_node hlists.reaches freed tmp (htested rfl) hnode
    refine ⟨hpending, p, ?_, hfound⟩
    rw [PollPc.toSearch, hrest] at hp
    rw [hn]
    exact hp
  | top | scanned | stored | advanced | polled | visited | closed | opened => exact h

/-- What can be read can be read later. -/
lemma Ready.mono {pc : PollPc} {time' : ℚ} (h : s.Ready pc time) (hle : time ≤ time') :
    s.Ready pc time' :=
  ⟨h.nodup, fun fd hfd => (h.readable fd hfd).imp fun _ hfile =>
    ⟨hfile.1, TimerFile.readable_mono hle hfile.2⟩, h.reading⟩

/-! ### Steps of the two threads -/

/-- An iteration of the receive loop leaves the timer thread where it is. -/
lemma stepReceive_eq_some {env : DetectorEnv} {input : Received}
    (hstep : s.stepReceive time env input = some s') :
    s.toTimedThreads.step ⟨time, .receive env input⟩ = some s'.toTimedThreads ∧ s.now ≤ time ∧
      s'.now = time ∧ s'.pending = s.pending ∧ s'.pc = s.pc ∧ s'.terminating = s.terminating := by
  obtain ⟨threads, hthreads, rfl⟩ := Option.map_eq_some_iff.mp hstep
  obtain ⟨hle, -, hplain, htime, -⟩ := TimedThreads.step_eq_some hthreads
  obtain ⟨history, -, heq⟩ := Option.map_eq_some_iff.mp hplain
  have hpending : threads.pending = s.pending := by rw [← heq]
  exact ⟨hthreads, hle, htime, hpending, rfl, rfl⟩

/-- It does not depend on what the timer thread has picked up. -/
lemma receive_abstract {env : DetectorEnv} {input : Received} (hnow : now ≤ s.now)
    (hstep : s.stepReceive time env input = some s') :
    (s.abstract now pending).step ⟨time, .receive env input⟩ = some (s'.abstract time pending) := by
  obtain ⟨threads, hthreads, rfl⟩ := Option.map_eq_some_iff.mp hstep
  rw [TimedThreads.step] at hthreads
  split at hthreads
  · next hcond =>
    obtain ⟨threads', hthreads', rfl⟩ := Option.map_eq_some_iff.mp hthreads
    obtain ⟨history, hhistory, rfl⟩ := Option.map_eq_some_iff.mp hthreads'
    have habstract : (s.abstract now pending).toThreads.step (.receive env input) =
        some ⟨history, pending⟩ := congrArg (Option.map _) hhistory
    rw [TimedThreads.step, if_pos ⟨hnow.trans hcond.1, hcond.2⟩, habstract]
    rfl
  · cases hthreads

/-- A callback does not depend on when the step before it was. -/
lemma callback_abstract {env : DetectorEnv} {threads : TimedThreads} (hnow : now ≤ s.now)
    (hstep : s.toTimedThreads.step ⟨time, .callback env⟩ = some threads) :
    (s.abstract now s.pending).step ⟨time, .callback env⟩ = some threads := by
  rw [TimedThreads.step] at hstep
  split at hstep
  · next hcond =>
    rw [TimedThreads.step, if_pos ⟨hnow.trans hcond.1, hcond.2⟩]
    exact hstep
  · cases hstep

/-- The file of a timer that is left alone. -/
lemma file_receive {env : DetectorEnv} {input : Received} {fd : ℕ}
    (hstep : s.stepReceive time env input = some s')
    (hfds : s'.detector.timers.fds fd = s.detector.timers.fds fd)
    (hstarted : startedFd s.detector.timers s'.detector.timers ≠ some fd) :
    s'.file fd = s.file fd := by
  obtain ⟨threads, hthreads, rfl⟩ := Option.map_eq_some_iff.mp hstep
  obtain ⟨-, -, -, -, hset, -⟩ := TimedThreads.step_eq_some hthreads
  dsimp only at hfds hstarted
  rw [file, file, hfds]
  dsimp only
  rw [hset]
  cases hfd : startedFd s.detector.timers threads.detector.timers with
  | none => rfl
  | some fd' =>
    have hne : fd ≠ fd' := by
      rintro rfl
      exact hstarted hfd
    dsimp only
    rw [Function.update_of_ne hne, Function.update_of_ne hne]

/-- The descriptor of a file is open. -/
lemma fds_of_file {fd : ℕ} {file : TimerFile} (hfile : s.file fd = some file) :
    s.detector.timers.fds fd ≠ none := by
  intro hnone
  rw [PollLoop.file, hnone] at hfile
  cases hfile

/-- An undisturbed step leaves the timers alone whose descriptors `poll` has found ready. -/
lemma Undisturbed.keeps_claimed (hfree : s.Undisturbed a)
    (hreaches : s.detector.timers.Reaches timers) {p : ℕ × Timer} (hp : p ∈ timers)
    (hfd : p.2.fd ∈ s.pc.claimed) : p ∈ timers.filter fun p => p.1 ≠ s.stops a := by
  obtain ⟨h0, n, hn, hdata⟩ := hreaches.chain.node_of_mem hp
  refine List.mem_filter.mpr ⟨hp, decide_eq_true fun heq => ?_⟩
  refine hfree.unclaimed (heq ▸ h0) n (heq ▸ hn) ?_
  rw [hdata]
  exact hfd

/-- An iteration of the receive loop leaves alone what `poll` has found ready. -/
lemma Ready.of_files {pc : PollPc} (h : s.Ready pc time)
    (hfiles : ∀ fd ∈ pc.ready, s'.file fd = s.file fd) : s'.Ready pc time := by
  refine ⟨h.nodup, fun fd hfd => ?_, fun fd file ready heq => ?_⟩
  · rw [hfiles fd hfd]
    exact h.readable fd hfd
  · rw [hfiles fd (heq ▸ List.mem_cons_self)]
    exact h.reading fd file ready heq

/-- The timer that has been picked up is still to be found. -/
lemma Picked.of_timers {pc : PollPc} (h : s.Picked pc pending timers)
    (hpending : s'.pending = s.pending)
    (hsearch : ∀ p ∈ pc.toSearch timers, pc.serving = some p.2.fd → p ∈ pc.toSearch timers') :
    s'.Picked pc pending timers' := by
  unfold Picked at h ⊢
  cases hserving : pc.serving with
  | none =>
    rw [hserving] at h
    exact h.trans hpending.symm
  | some fd =>
    rw [hserving] at h
    obtain ⟨hnone, p, hp, rfl, hfound⟩ := h
    exact ⟨hpending.trans hnone, p, hsearch p hp hserving, rfl, hfound⟩

/-- **An undisturbed iteration of the receive loop** is one of the two threads. -/
lemma Refines.receive (h : Refines hostname s now pending timers) {env : DetectorEnv}
    {input : Received} (hstep : s.step (.receive time env input) = some s')
    (hfree : s.Undisturbed (.receive time env input)) :
    (s.abstract now pending).step ⟨time, .receive env input⟩ = some (s'.abstract time pending) ∧
      ∃ timers', Refines hostname s' time pending timers' := by
  rw [step, h.running] at hstep
  have hreceive : s.stepReceive time env input = some s' := hstep
  obtain ⟨-, hle, hnow, hpending, hpc, hterminating⟩ := stepReceive_eq_some hreceive
  have hsame : (s.abstract now pending).step ⟨time, .receive env input⟩ =
      some (s'.abstract time pending) := receive_abstract h.now_le hreceive
  refine ⟨hsame, ?_⟩
  obtain ⟨timers', hinv'⟩ := h.inv.step hsame
  obtain ⟨-, -, hplain, -⟩ := TimedThreads.step_eq_some hsame
  have hlists := h.inv.threads.timersOwned.lists
  set rest := timers.filter fun p => p.1 ≠ s.stops (.receive time env input) with hrest
  have hframe := Threads.receive_files h.inv.threads hplain hinv'.threads
  obtain ⟨htimers, hfiles⟩ : (timers' = rest ∨
      ∃ timer, timers' = (s.detector.timers.started + 1, timer) :: rest) ∧
      ∀ p ∈ rest, s'.detector.timers.fds p.2.fd = s.detector.timers.fds p.2.fd ∧
        startedFd s.detector.timers s'.detector.timers ≠ some p.2.fd := hframe
  have hkeeps := hfree.untouched.keeps hlists.reaches
  have hnew : s.detector.timers.started + 1 ≠ s.pc.node := new_ne_node hlists h.stands
  -- a descriptor that `poll` has found ready is that of a timer that is not stopped
  have hready : ∀ fd ∈ s.pc.ready, s'.file fd = s.file fd := by
    intro fd hfd
    obtain ⟨file, hfile, -⟩ := h.ready.readable fd hfd
    have hopen := fds_of_file hfile
    obtain ⟨p, hp, rfl⟩ := h.openListed fd hopen
    have hkept := hfree.keeps_claimed hlists.reaches hp (List.mem_append_right _ hfd)
    obtain ⟨hfds, hstarted⟩ := hfiles p hkept
    exact file_receive hreceive hfds hstarted
  refine ⟨timers', hinv', hnow.ge, hterminating.trans h.running, ?_, ?_, ?_, ?_, ?_, ?_⟩
  · have hopen : (s.abstract now pending).detector.timers.OpenListed timers := h.openListed
    have hopen' := Threads.openListed_receive h.inv.threads hplain hinv'.threads hopen
    exact hopen'
  · rw [hpc]
    rcases htimers with heq | ⟨timer, heq⟩ <;> rw [heq]
    · exact h.stands.filter hkeeps
    · exact (h.stands.filter hkeeps).cons _
  · rw [hpc]
    have hsub : (s.pc.toScan timers').Sublist (s.pc.toScan timers) := by
      have hfilter : s.pc.toScan rest = (s.pc.toScan timers).filter _ := PollPc.toScan_filter hkeeps
      rcases htimers with heq | ⟨timer, heq⟩ <;> rw [heq]
      · rw [hfilter]
        exact List.filter_sublist
      · rw [PollPc.toScan_cons hnew, hfilter]
        exact List.filter_sublist
    exact h.scan.sublist ((hsub.map _).append_left _)
  · intro since ufds heq
    rw [hnow]
    exact (h.polled since ufds (hpc.symm.trans heq)).trans hle
  · rw [hpc, hnow]
    exact (h.ready.mono hle).of_files hready
  · rw [hpc]
    refine h.picked.of_timers hpending fun p hp hserving => ?_
    have hkept := hfree.keeps_claimed hlists.reaches (PollPc.mem_of_mem_toSearch hp)
      (List.mem_append_left _ (Option.mem_toList.mpr hserving))
    have hfound := PollPc.mem_toSearch_filter hkeeps hp (List.mem_filter.mp hkept).2
    rcases htimers with heq | ⟨timer, heq⟩ <;> rw [heq]
    · exact hfound
    · exact PollPc.mem_toSearch_cons hnew hfound

/-- The timer thread does not look for a timer while it has arguments for a callback. -/
lemma Refines.pending_eq (h : Refines hostname s now pending timers) {q : ℕ × IpString}
    (hpending : s.pending = some q) : s.pc.serving = none ∧ pending = s.pending := by
  have hpicked := h.picked
  rw [Picked] at hpicked
  cases hserving : s.pc.serving with
  | none =>
    rw [hserving] at hpicked
    exact ⟨rfl, hpicked⟩
  | some fd =>
    rw [hserving] at hpicked
    exact absurd (hpending.symm.trans hpicked.1) (Option.some_ne_none _)

/-- A callback leaves the timers and their files alone. -/
lemma callback_files {env : DetectorEnv} {threads : TimedThreads}
    (hstep : s.toTimedThreads.step ⟨time, .callback env⟩ = some threads) :
    threads.pending = none ∧ threads.detector.timers = s.detector.timers ∧
      ∀ fd, file { s with toTimedThreads := threads } fd = s.file fd := by
  obtain ⟨-, -, hplain, -⟩ := TimedThreads.step_eq_some hstep
  obtain ⟨⟨timerId, ip⟩, -, heq⟩ := Option.map_eq_some_iff.mp hplain
  have htimers : threads.detector.timers = s.detector.timers := by
    rw [← heq]
    exact handleTimeout_timers ..
  have hset := TimedThreads.setAt_of_not_started hstep (congrArg TimerManager.started htimers)
  refine ⟨by rw [← heq], htimers, fun fd => ?_⟩
  rw [file, file]
  dsimp only
  rw [htimers, hset]

/-- **A callback** is one of the two threads. -/
lemma Refines.callback (h : Refines hostname s now pending timers) {env : DetectorEnv}
    {threads : TimedThreads} (hstep : s.toTimedThreads.step ⟨time, .callback env⟩ = some threads) :
    (s.abstract now pending).step ⟨time, .callback env⟩ =
        some (abstract { s with toTimedThreads := threads } time threads.pending) ∧
      Refines hostname { s with toTimedThreads := threads } time threads.pending timers := by
  obtain ⟨hle, -, hplain, htime, -⟩ := TimedThreads.step_eq_some hstep
  have hnow : threads.now = time := htime
  obtain ⟨-, htimers, hfiles⟩ := callback_files hstep
  obtain ⟨p, hpending, -⟩ := Option.map_eq_some_iff.mp hplain
  obtain ⟨hserving, rfl⟩ := h.pending_eq hpending
  have habstract := callback_abstract h.now_le hstep
  have hthreads : threads = abstract { s with toTimedThreads := threads } time threads.pending := by
    rw [abstract, ← hnow]
  refine ⟨habstract.trans (congrArg some hthreads), ?_⟩
  obtain ⟨timers', hinv'⟩ := h.inv.step habstract
  have hchain : Chain s.detector.timers.heap s.detector.timers.gHead timers' := by
    rw [← htimers]
    exact hinv'.threads.timersOwned.lists.chain
  obtain rfl := h.inv.threads.timersOwned.lists.chain.unique hchain
  refine ⟨hthreads ▸ hinv', hnow.ge, h.running, ?_, h.stands, h.scan, ?_, ?_, ?_⟩
  · show threads.detector.timers.OpenListed timers
    rw [htimers]
    exact h.openListed
  · intro since ufds heq
    exact (h.polled since ufds heq).trans (hle.trans hnow.ge)
  · exact (h.ready.mono (hle.trans hnow.ge)).of_files fun fd _ => hfiles fd
  · rw [Picked, hserving]

/-- The timer thread picks up a timer, in one step. -/
lemma pickUp_abstract {p : ℕ × Timer} {spec : Itimerspec}
    (hinv : TimedThreads.Inv hostname (s.abstract now none) timers) (hp : p ∈ timers)
    (hspec : s.detector.timers.fds p.2.fd = some spec) (harmed : spec.armed = true)
    (hnow : now ≤ time) (hpassed : s.setAt p.2.fd + spec.valueMs ≤ time) :
    (s.abstract now none).step ⟨time, .pickUp p.2.fd⟩ =
      some { s.toTimedThreads with
        detector := { s.detector with timers := { s.detector.timers with
          fds := Function.update s.detector.timers.fds p.2.fd (some spec.rearm) } }
        now := time
        pending := some (p.1, p.2.userData) } := by
  have hread := hinv.threads.timersOwned.lists.timerThreadRead_eq hp hspec harmed
  have hthreads : (s.abstract now none).toThreads.step (.pickUp p.2.fd) =
      some ⟨⟨{ s.detector with timers := { s.detector.timers with
        fds := Function.update s.detector.timers.fds p.2.fd (some spec.rearm) } }, s.trace⟩,
        some (p.1, p.2.userData)⟩ := congrArg (Option.map _) hread
  have hallows : (s.abstract now none).allows ⟨time, .pickUp p.2.fd⟩ = true := by
    show (s.detector.timers.fds p.2.fd).all _ = true
    rw [hspec]
    exact decide_eq_true hpassed
  have hbeats : ∀ ip, (if (HashTable.find NodeStruct.ipaddress s.detector.nodes ip).isSome then
      s.beats ip else []) = s.beats ip := by
    intro ip
    split
    · rfl
    · next hnone => exact (hinv.absent ip fun hmem => hnone (isSome_find.mpr hmem)).symm
  have hstarted : ∀ fds, startedFd s.detector.timers { s.detector.timers with fds := fds } = none :=
    fun fds => if_pos rfl
  rw [TimedThreads.step, if_pos ⟨hnow, hallows⟩, hthreads]
  refine congrArg some ?_
  simp only [TimedThreads.mk.injEq, true_and]
  refine ⟨?_, funext hbeats, rfl⟩
  show (match startedFd s.detector.timers _ with
    | none => s.setAt
    | some fd => Function.update s.setAt fd time) = s.setAt
  rw [hstarted]

/-- **When `read` returns**, a timer is picked up. -/
lemma Refines.returned (h : Refines hostname s now pending timers) (hnow : s.now ≤ time) {fd : ℕ}
    {file : TimerFile} {ready : List ℕ} (hpending : s.pending = none)
    (hpc : s.pc = .read fd file ready) (hreadable : file.readable time = true) :
    ∃ pending', (s.abstract now pending).step ⟨time, .pickUp fd⟩ =
        some (abstract { s with
          detector := { s.detector with timers := s.readFile fd file }
          now := time
          pc := .call fd ready } time pending') ∧
      Refines hostname { s with
        detector := { s.detector with timers := s.readFile fd file }
        now := time
        pc := .call fd ready } time pending' timers := by
  obtain ⟨hinv, hnowLe, hrunning, hopenListed, hstands, hscan, hpolled, hready, hpicked⟩ := h
  rw [hpc] at hready hpicked
  have hsame : pending = none := hpicked.trans hpending
  subst hsame
  have hfile := hready.reading fd file ready rfl
  obtain ⟨p, hp, rfl⟩ := hopenListed fd (fds_of_file hfile)
  obtain ⟨spec, hspec, heq⟩ := Option.map_eq_some_iff.mp hfile
  have hread : s.readFile p.2.fd file = { s.detector.timers with
      fds := Function.update s.detector.timers.fds p.2.fd (some spec.rearm) } := by
    rw [readFile, hspec, ← heq]
    exact if_pos rfl
  obtain ⟨harmed, hpassed⟩ := of_decide_eq_true hreadable
  rw [← heq] at harmed hpassed
  have hpick := pickUp_abstract hinv hp hspec harmed (hnowLe.trans hnow) hpassed
  rw [hread]
  refine ⟨some (p.1, p.2.userData), hpick, ?_⟩
  obtain ⟨timers', hinv'⟩ := hinv.step hpick
  obtain rfl := hinv.threads.timersOwned.lists.chain.unique
    hinv'.threads.timersOwned.lists.chain
  refine ⟨hinv', le_rfl, hrunning, fun fd hfd => ?_, ⟨Or.inl rfl, nofun⟩, List.nodup_nil, nofun,
    ⟨(List.nodup_cons.mp hready.nodup).2, fun fd hfd => ?_, nofun⟩, hpending, p, hp, rfl, rfl⟩
  · by_cases hne : fd = p.2.fd
    · exact ⟨p, hp, hne.symm⟩
    · refine hopenListed fd ?_
      have hupdate : Function.update s.detector.timers.fds p.2.fd (some spec.rearm) fd ≠ none := hfd
      rwa [Function.update_of_ne hne] at hupdate
  · have hne : fd ≠ p.2.fd := by
      rintro rfl
      exact (List.nodup_cons.mp hready.nodup).1 hfd
    obtain ⟨file', hfile', hreadable'⟩ := hready.readable fd (List.mem_cons_of_mem _ hfd)
    refine ⟨file', ?_, TimerFile.readable_mono hnow hreadable'⟩
    rw [← hfile', PollLoop.file, PollLoop.file]
    dsimp only
    rw [Function.update_of_ne hne]

/-- **When the timer thread has found the timer**, it has been picked up before. -/
lemma Refines.copied (h : Refines hostname s now pending timers) (hnow : s.now ≤ time)
    {fd tmp : ℕ} {ready : List ℕ} (hpc : s.pc = .found fd tmp ready) (freed : Node Timer) :
    Refines hostname { s with
      pending := some (tmp, ((s.detector.timers.heap tmp).getD freed).data.userData)
      now := time
      pc := .visit ready } now pending timers := by
  obtain ⟨hinv, hnowLe, hrunning, hopenListed, hstands, hscan, hpolled, hready, hpicked⟩ := h
  rw [hpc] at hready hpicked
  obtain ⟨-, p, hp, hpfd, hfound⟩ := hpicked
  obtain ⟨hmem, hid⟩ := List.mem_filter.mp hp
  obtain rfl : p.1 = tmp := of_decide_eq_true hid
  obtain ⟨-, n, hn, hdata⟩ := hinv.threads.timersOwned.lists.chain.node_of_mem hmem
  have hn' : s.detector.timers.heap p.1 = some n := hn
  refine ⟨hinv, hnowLe.trans hnow, hrunning, hopenListed, ⟨Or.inl rfl, nofun⟩, List.nodup_nil,
    nofun, ⟨hready.nodup, fun fd' hfd' => ?_, nofun⟩, ?_⟩
  · obtain ⟨file, hfile, hreadable⟩ := hready.readable fd' hfd'
    exact ⟨file, hfile, TimerFile.readable_mono hnow hreadable⟩
  · rw [hn', Option.getD_some, hdata]
    exact hfound

/-- Any other step of the timer thread. -/
lemma Refines.moved (h : Refines hostname s now pending timers) (hnow : s.now ≤ time)
    {freed : Node Timer} {pc : PollPc} (hmoves : Moves s time freed s.pc pc) :
    Refines hostname { s with now := time, pc := pc } now pending timers := by
  have hlists : s.detector.timers.Lists timers := h.inv.threads.timersOwned.lists
  refine ⟨h.inv, h.now_le.trans hnow, h.running, h.openListed,
    hmoves.stands h.stands hlists.reaches, hmoves.scan hlists h.stands h.scan,
    fun since ufds heq => (hmoves.since_eq heq).le, ?_, hmoves.picked hlists h.stands h.picked⟩
  have hready := hmoves.ready h.scan.of_append_left (h.ready.mono hnow)
  exact hready.of_files fun _ _ => rfl

/-- **A step of the timer thread** is one of the two threads, or none. -/
lemma Refines.timer (h : Refines hostname s now pending timers) {env : DetectorEnv}
    {freed : Node Timer} (hstep : s.step (.timer time env freed) = some s') :
    (s'.abstract now pending = s.abstract now pending ∧ Refines hostname s' now pending timers) ∨
      ∃ b pending', ActsAs (.timer time env freed) b ∧
        (s.abstract now pending).step b = some (s'.abstract time pending') ∧
        Refines hostname s' time pending' timers := by
  obtain ⟨hnow, hdo⟩ := timerStep_of_step hstep
  cases hdo with
  | callback threads hthreads =>
    obtain ⟨habstract, hrefines⟩ := h.callback hthreads
    exact Or.inr ⟨_, _, .callback time env freed, habstract, hrefines⟩
  | returned fd file ready hpending hpc hreadable =>
    obtain ⟨pending', habstract, hrefines⟩ := h.returned hnow hpending hpc hreadable
    exact Or.inr ⟨_, pending', .pickUp time env freed fd, habstract, hrefines⟩
  | copied fd tmp ready hpending hpc => exact Or.inl ⟨rfl, h.copied hnow hpc freed⟩
  | moved pc hpending hmoves => exact Or.inl ⟨rfl, h.moved hnow hmoves⟩

/-- **Every undisturbed step is a step of the two threads, or none.** -/
lemma Refines.step (h : Refines hostname s now pending timers) (hfree : s.Undisturbed a)
    (hstep : s.step a = some s') :
    (s'.abstract now pending = s.abstract now pending ∧ Refines hostname s' now pending timers) ∨
      ∃ b pending' timers', ActsAs a b ∧
        (s.abstract now pending).step b = some (s'.abstract b.time pending') ∧
        Refines hostname s' b.time pending' timers' := by
  cases a with
  | receive time env input =>
    obtain ⟨habstract, timers', hrefines⟩ := h.receive hstep hfree
    exact Or.inr ⟨_, pending, timers', .receive time env input, habstract, hrefines⟩
  | timer time env freed =>
    rcases h.timer hstep with hsame | ⟨b, pending', hacts, habstract, hrefines⟩
    · exact Or.inl hsame
    · have htime : b.time = time := by cases hacts <;> rfl
      rw [← htime] at habstract hrefines
      exact Or.inr ⟨b, pending', timers, hacts, habstract, hrefines⟩
  | stop time => exact absurd rfl (hfree.not_stop time)

/-- The relation holds when the receive loop starts. -/
lemma start_refines (hostname : IpString) (unset : NodeStruct) (currentNodeIp : IpBuffer)
    (lastLogged now : ℚ) :
    Refines hostname (start hostname unset currentNodeIp lastLogged now) now none [] :=
  ⟨TimedThreads.start_inv hostname unset currentNodeIp lastLogged now, le_rfl, rfl,
    fun _ h => absurd rfl h, ⟨Or.inl rfl, nofun⟩, List.nodup_nil, nofun,
    ⟨List.nodup_nil, nofun, nofun⟩, rfl⟩

/-- **Every undisturbed run is one of the two threads**: if its steps meet `P` besides, and what
they act as then meets `Q`, those of the two threads meet `Q`. -/
lemma Refines.exists_run {P : PollLoop → PollAction → Prop} {Q : TimedThreads → TimedAction → Prop}
    (hPQ : ∀ s now pending timers a b, Refines hostname s now pending timers → P s a → ActsAs a b →
      Q (s.abstract now pending) b)
    (h : Refines hostname s now pending timers) {actions : List PollAction}
    (halong : Along PollLoop.step (fun s a => s.Undisturbed a ∧ P s a) s actions)
    (hrun : run PollLoop.step s actions = some s') :
    ∃ bs now' pending' timers', Refines hostname s' now' pending' timers' ∧
      run TimedThreads.step (s.abstract now pending) bs = some (s'.abstract now' pending') ∧
      Along TimedThreads.step Q (s.abstract now pending) bs := by
  have hsim : ∀ (s : PollLoop) (t : TimedThreads) (a : PollAction) (s' : PollLoop),
      (∃ now' pending timers, t = s.abstract now' pending ∧
        Refines hostname s now' pending timers) → s.Undisturbed a ∧ P s a → s.step a = some s' →
      (∃ now' pending timers, t = s'.abstract now' pending ∧
        Refines hostname s' now' pending timers) ∨ ∃ b t', Q t b ∧ t.step b = some t' ∧
        ∃ now' pending timers, t' = s'.abstract now' pending ∧
          Refines hostname s' now' pending timers := by
    rintro s t a s' ⟨now', pending, timers, rfl, hrefines⟩ ⟨hfree, hP⟩ hstep
    rcases hrefines.step hfree hstep with ⟨hsame, hrefines'⟩ | hstep'
    · exact Or.inl ⟨now', pending, timers, hsame.symm, hrefines'⟩
    · obtain ⟨b, pending', timers', hacts, hb, hrefines'⟩ := hstep'
      exact Or.inr ⟨b, _, hPQ _ _ _ _ _ _ hrefines hP hacts, hb, b.time, pending', timers', rfl,
        hrefines'⟩
  obtain ⟨bs, t, hbs, hQ, now', pending', timers', rfl, hrefines⟩ :=
    run_simulates _ hsim ⟨now, pending, timers, rfl, h⟩ halong hrun
  exact ⟨bs, now', pending', timers', hrefines, hbs, hQ⟩

end PollLoop

end FailureDetector
