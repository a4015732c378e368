import FailureDetector.Detector.Deadlines
import FailureDetector.Detector.PollRefinement

set_option relaxedAutoImplicit false
set_option autoImplicit false

/-!
# The rounds of the timer thread

When no heartbeat comes, the timer thread alone gets through its loop: it stands still in `poll`
only, for 100 ms at most, as what `poll` has found ready can be read. So it gets to the top of its
loop, and from there it serves in one round every timer that has expired by the time at which it
calls `poll`.

## Main definitions

* `FailureDetector.PollPc.left` — a bound for the steps to the top of the loop.
* `FailureDetector.PollLoop.OfTimerThread` — a step of the timer thread up to some time.

## Main results

* `FailureDetector.PollLoop.exists_run_top` — the timer thread gets to the top of its loop.
* `FailureDetector.PollLoop.exists_run_removed` — from there it removes a node whose timer has
  expired.
* `FailureDetector.PollLoop.exists_removed` — so it removes every node whose deadline has passed.
* `FailureDetector.PollLoop.exists_join` — a node joins at the top of the loop.
-/

namespace FailureDetector

open CString LinkedList Runs

namespace PollPc

/-- A bound for the number of steps to the top of the loop, where no callback is to be run first.
For every descriptor the list is followed once. -/
def left (timers : List (ℕ × Timer)) : PollPc → ℕ
  | top => 0
  | scan tmp ufds => (ufds.length + (startingAt timers tmp).length) * (2 * timers.length + 6) +
      2 * (startingAt timers tmp).length + 3
  | advance tmp ufds =>
    (ufds.length + (startingAt timers tmp).tail.length) * (2 * timers.length + 6) +
      2 * (startingAt timers tmp).tail.length + 4
  | poll _ ufds => ufds.length * (2 * timers.length + 6) + 2
  | visit ready => ready.length * (2 * timers.length + 6) + 1
  | read _ _ ready => ready.length * (2 * timers.length + 6) + 2 * timers.length + 6
  | call _ ready => ready.length * (2 * timers.length + 6) + 2 * timers.length + 5
  | lookup _ tmp ready =>
    ready.length * (2 * timers.length + 6) + 2 * (startingAt timers tmp).length + 4
  | lookupNext _ tmp ready =>
    ready.length * (2 * timers.length + 6) + 2 * (startingAt timers tmp).tail.length + 5
  | found _ _ ready => ready.length * (2 * timers.length + 6) + 3

/-- The timer thread is in `poll`. -/
def polling : PollPc → Bool
  | poll _ _ => true
  | _ => false

/-- `poll` returns by the time `time`, whether or not a descriptor is ready, if the timer thread
calls it at the time `now`, unless it has done so before. -/
def PollsBy (now time : ℚ) : PollPc → Prop
  | scan _ _ | advance _ _ => now + pollTimeoutMs ≤ time
  | poll since _ => since + pollTimeoutMs ≤ time
  | _ => True

/-- If it has been called before, nothing changes. -/
lemma PollsBy.of_polling {pc : PollPc} {now time : ℚ} (h : pc.PollsBy now time)
    (hpolling : pc.polling = true) (now' : ℚ) : pc.PollsBy now' time := by
  cases pc with
  | poll => exact h
  | _ => cases hpolling

end PollPc

namespace PollLoop

variable {hostname : IpString} {s s' : PollLoop} {timers : List (ℕ × Timer)} {now time : ℚ}
  {pending : Option (ℕ × IpString)} {env : DetectorEnv} {freed : Node Timer}

/-- A bound for the number of steps of the timer thread to the top of its loop. -/
def left (timers : List (ℕ × Timer)) (s : PollLoop) : ℕ :=
  s.pc.left timers + s.pending.toList.length

/-- Every step of the timer thread takes it nearer to the top of its loop. -/
lemma Moves.left_lt {pc pc' : PollPc} (hmoves : Moves s time freed pc pc')
    (hlists : s.detector.timers.Lists timers) (hstands : pc.Stands timers) (htop : pc ≠ .top) :
    pc'.left timers < pc.left timers := by
  obtain ⟨hnode, htested⟩ := hstands
  cases hmoves with
  | top => exact absurd rfl htop
  | scanned ufds =>
    rw [PollPc.left, PollPc.left, startingAt_of_notMem hlists.chain.zero_notMem]
    exact Nat.lt_succ_self _
  | stored tmp ufds h0 =>
    obtain ⟨n, -, hrest, -⟩ := exists_node hlists.reaches freed tmp h0 hnode
    have hlen : (ufds ++ [((s.detector.timers.heap tmp).getD freed).data.fd]).length +
        (startingAt timers n.next).length =
        ufds.length + ((startingAt timers n.next).length + 1) := by
      rw [List.length_append, List.length_singleton]
      omega
    rw [PollPc.left, PollPc.left, hrest, List.tail_cons, List.length_cons, hlen]
    omega
  | advanced tmp ufds =>
    obtain ⟨n, hn, hrest, -⟩ := exists_node hlists.reaches freed tmp (htested rfl) hnode
    rw [PollPc.left, PollPc.left, hn, hrest, List.tail_cons]
    exact Nat.lt_succ_self _
  | polled since ufds =>
    have hle := Nat.mul_le_mul_right (2 * timers.length + 6) (List.length_filter_le
      (fun fd => (s.file fd).any fun file => file.readable time) ufds)
    rw [PollPc.left, PollPc.left]
    omega
  | visited => exact Nat.succ_pos _
  | closed fd ready =>
    rw [PollPc.left, PollPc.left, List.length_cons, Nat.add_mul ready.length 1]
    omega
  | opened fd ready =>
    rw [PollPc.left, PollPc.left, List.length_cons, Nat.add_mul ready.length 1]
    omega
  | called fd ready =>
    rw [PollPc.left, PollPc.left, hlists.chain.startingAt_head]
    exact Nat.lt_succ_self _
  | absent fd ready =>
    rw [PollPc.left, PollPc.left]
    omega
  | matched fd tmp ready h0 =>
    rw [PollPc.left, PollPc.left]
    omega
  | different fd tmp ready h0 =>
    obtain ⟨n, -, hrest, -⟩ := exists_node hlists.reaches freed tmp h0 hnode
    rw [PollPc.left, PollPc.left, hrest, List.tail_cons, List.length_cons]
    omega
  | followed fd tmp ready =>
    obtain ⟨n, hn, hrest, -⟩ := exists_node hlists.reaches freed tmp (htested rfl) hnode
    rw [PollPc.left, PollPc.left, hn, hrest, List.tail_cons]
    exact Nat.lt_succ_self _

/-- The same for every step of the timer thread. -/
lemma TimerStep.left_lt (hdo : TimerStep s time env freed s')
    (hlists : s.detector.timers.Lists timers) (hstands : s.pc.Stands timers)
    (htop : s.pc = .top → s.pending ≠ none) : s'.left timers < s.left timers := by
  cases hdo with
  | callback threads hstep =>
    obtain ⟨-, -, hplain, -⟩ := TimedThreads.step_eq_some hstep
    obtain ⟨p, hpending, heq⟩ := Option.map_eq_some_iff.mp hplain
    have hnone : threads.pending = none := by rw [← heq]
    rw [left, left, hpending]
    dsimp only
    rw [hnone]
    exact Nat.lt_succ_self _
  | returned fd file ready hpending hpc =>
    rw [left, left, hpending, hpc]
    exact Nat.lt_succ_self _
  | copied fd tmp ready hpending hpc =>
    rw [left, left, hpending, hpc]
    exact Nat.lt_succ_self _
  | moved pc hpending hmoves =>
    rw [left, left, hpending]
    exact hmoves.left_lt hlists hstands fun hpc => htop hpc hpending

/-- `poll` returns. -/
def PollReturns (s : PollLoop) (time : ℚ) : Prop :=
  ∀ since ufds, s.pc = .poll since ufds →
    ufds.any (fun fd => (s.file fd).all fun file => file.readable time) = true ∨
      since + pollTimeoutMs ≤ time

/-- The timer thread can go on where it does nothing else. -/
lemma next_ne_none (hlists : s.detector.timers.Lists timers) (hstands : s.pc.Stands timers)
    (hin : s.InBounds timers) (hpoll : s.PollReturns time)
    (hread : ∀ fd file ready, s.pc ≠ .read fd file ready)
    (hfound : ∀ fd tmp ready, s.pc ≠ .found fd tmp ready) (freed : Node Timer) :
    s.next time freed ≠ none := by
  unfold next
  dsimp only
  split
  · exact Option.some_ne_none _
  · next tmp ufds hpc =>
    split
    · exact Option.some_ne_none _
    · next h0 =>
      have hnode := hstands.node
      have hscan := hin.2
      rw [hpc] at hnode hscan
      obtain ⟨n, -, hrest, -⟩ := exists_node hlists.reaches freed tmp h0 hnode
      have hlt : ufds.length < maxTimerCount := by
        rw [PollPc.scanLength, PollPc.toScan, PollPc.ufds, hrest, List.length_cons] at hscan
        omega
      rw [if_pos hlt]
      exact Option.some_ne_none _
  · exact Option.some_ne_none _
  · next since ufds hpc =>
    rw [if_pos (hpoll since ufds hpc)]
    exact Option.some_ne_none _
  · exact Option.some_ne_none _
  · split <;> exact Option.some_ne_none _
  · exact Option.some_ne_none _
  · split
    · exact Option.some_ne_none _
    · split <;> exact Option.some_ne_none _
  · exact Option.some_ne_none _
  · next fd file ready hpc => exact absurd hpc (hread fd file ready)
  · next fd tmp ready hpc => exact absurd hpc (hfound fd tmp ready)

/-- **The timer thread can go on** unless it waits in `poll`: what it reads can be read. -/
lemma Refines.exists_step (h : Refines hostname s now pending timers) (hin : s.InBounds timers)
    (hnow : s.now ≤ time) (hpoll : s.pending = none → s.PollReturns time) (env : DetectorEnv)
    (freed : Node Timer) : ∃ s', s.step (.timer time env freed) = some s' := by
  have hlists : s.detector.timers.Lists timers := h.inv.threads.timersOwned.lists
  rw [PollLoop.step, if_pos hnow]
  unfold stepTimer
  split
  · next p hpending =>
    have hstep : s.toTimedThreads.step ⟨time, .callback env⟩ ≠ none := by
      rw [TimedThreads.step, if_pos ⟨hnow, rfl⟩, Threads.step, hpending]
      exact Option.some_ne_none _
    obtain ⟨threads, hthreads⟩ := Option.ne_none_iff_exists'.mp hstep
    rw [hthreads]
    exact ⟨_, rfl⟩
  · next hpending =>
    split
    · next fd file ready hpc =>
      have hready := h.ready
      rw [hpc] at hready
      obtain ⟨file', hfile', hreadable⟩ := hready.readable fd List.mem_cons_self
      obtain rfl := Option.some.inj ((hready.reading fd file ready rfl).symm.trans hfile')
      rw [if_pos (TimerFile.readable_mono hnow hreadable)]
      exact ⟨_, rfl⟩
    · exact ⟨_, rfl⟩
    · next hread hfound =>
      have hnext := next_ne_none hlists h.stands hin (hpoll hpending)
        (fun fd file ready hpc => hread fd file ready hpc)
        (fun fd tmp ready hpc => hfound fd tmp ready hpc) freed
      obtain ⟨pc, hpc⟩ := Option.ne_none_iff_exists'.mp hnext
      rw [hpc]
      exact ⟨_, rfl⟩

/-- A step of the timer thread keeps the scan in bounds. -/
lemma TimerStep.inBounds (hdo : TimerStep s time env freed s') (hin : s.InBounds timers)
    (hlists : s.detector.timers.Lists timers) (hstands : s.pc.Stands timers) :
    s'.InBounds timers := by
  cases hdo with
  | callback => exact ⟨hin.1, hin.2⟩
  | returned => exact ⟨hin.1, Nat.zero_le _⟩
  | copied => exact ⟨hin.1, Nat.zero_le _⟩
  | moved pc hpending hmoves =>
    exact ⟨hin.1, (hmoves.scanLength_le hstands hlists.reaches).trans (max_le hin.2 hin.1)⟩

/-- The time of a step. -/
lemma TimerStep.now_eq (hdo : TimerStep s time env freed s') : s'.now = time := by
  cases hdo with
  | callback threads hstep =>
    obtain ⟨-, -, -, hnow, -⟩ := TimedThreads.step_eq_some hstep
    exact hnow
  | returned | copied | moved => rfl

/-! ### To the top of the loop -/

/-- A step of the timer thread up to the time `time`. -/
def OfTimerThread (time : ℚ) (env : DetectorEnv) (freed : Node Timer) (a : PollAction) : Prop :=
  ∃ t ≤ time, a = .timer t env freed

/-- `poll` is not called later if nothing is delayed. -/
lemma Moves.pollsBy {t : ℚ} {pc pc' : PollPc} (hmoves : Moves s t freed pc pc')
    (h : pc.PollsBy s.now time) (htime : pc.polling = false → t = s.now) (htop : pc ≠ .top) :
    pc'.PollsBy t time := by
  cases hmoves with
  | top => exact absurd rfl htop
  | scanned ufds => exact (htime rfl).symm ▸ h
  | stored tmp ufds => exact (htime rfl).symm ▸ h
  | advanced tmp ufds => exact (htime rfl).symm ▸ h
  | polled | visited | closed | opened | called | absent | matched | different | followed =>
    exact trivial

/-- The same for every step of the timer thread. -/
lemma TimerStep.pollsBy {t : ℚ} (hdo : TimerStep s t env freed s') (h : s.pc.PollsBy s.now time)
    (htime : s.pc.polling = false → t = s.now) (htop : s.pc = .top → s.pending ≠ none) :
    s'.pc.PollsBy s'.now time := by
  cases hdo with
  | callback threads hstep =>
    obtain ⟨-, -, -, hnow, -⟩ := TimedThreads.step_eq_some hstep
    have hnow' : threads.now = t := hnow
    show s.pc.PollsBy threads.now time
    cases hpolling : s.pc.polling with
    | false => rwa [hnow', htime hpolling]
    | true => exact h.of_polling hpolling _
  | returned | copied => exact trivial
  | moved pc hpending hmoves =>
    exact hmoves.pollsBy h htime fun hpc => htop hpc hpending

/-- **The timer thread gets to the top of its loop**, by itself and within 100 ms, unless the scan
leaves its array. -/
lemma exists_run_top (h : Refines hostname s now pending timers) (hin : s.InBounds timers)
    (htime : s.now + pollTimeoutMs ≤ time) (env : DetectorEnv) (freed : Node Timer) :
    ∃ as s', (∀ a ∈ as, OfTimerThread time env freed a) ∧ run PollLoop.step s as = some s' ∧
      (∃ now' pending', Refines hostname s' now' pending' timers) ∧ s'.InBounds timers ∧
      s'.now ≤ time ∧ s'.pc = .top ∧ s'.pending = none := by
  have hpos : 0 < pollTimeoutMs := by norm_num [pollTimeoutMs]
  have hpolls : s.pc.PollsBy s.now time := by
    cases hpc : s.pc with
    | poll since ufds => exact (add_le_add_left (h.polled since ufds hpc) _).trans htime
    | scan | advance => exact htime
    | _ => exact trivial
  have hstep : ∀ s, (∃ now' pending', Refines hostname s now' pending' timers) ∧
      s.InBounds timers ∧ s.now ≤ time ∧ s.pc.PollsBy s.now time →
      ¬ (s.pc = .top ∧ s.pending = none) → ∃ a s', OfTimerThread time env freed a ∧
        s.step a = some s' ∧ ((∃ now' pending', Refines hostname s' now' pending' timers) ∧
          s'.InBounds timers ∧ s'.now ≤ time ∧ s'.pc.PollsBy s'.now time) ∧
        s'.left timers < s.left timers := by
    rintro s ⟨⟨now, pending, h⟩, hin, hnow, hpolls⟩ hgoal
    -- the timer thread waits in `poll` only
    obtain ⟨t, hlt, hle, hpoll, hreturns⟩ : ∃ t, s.now ≤ t ∧ t ≤ time ∧
        (s.pc.polling = false → t = s.now) ∧ s.PollReturns t := by
      cases hpolling : s.pc.polling with
      | false =>
        refine ⟨s.now, le_rfl, hnow, fun _ => rfl, fun since ufds hpc => ?_⟩
        rw [hpc] at hpolling
        cases hpolling
      | true =>
        refine ⟨time, hnow, le_rfl, nofun, fun since ufds hpc => ?_⟩
        rw [hpc] at hpolls
        exact Or.inr hpolls
    obtain ⟨s', hs'⟩ := h.exists_step hin hlt (fun _ => hreturns) env freed
    obtain ⟨-, hdo⟩ := timerStep_of_step hs'
    have hlists : s.detector.timers.Lists timers := h.inv.threads.timersOwned.lists
    have htop : s.pc = .top → s.pending ≠ none := fun hpc hnone => hgoal ⟨hpc, hnone⟩
    refine ⟨_, s', ⟨t, hle, rfl⟩, hs', ⟨?_, hdo.inBounds hin hlists h.stands, ?_,
      hdo.pollsBy hpolls hpoll htop⟩, hdo.left_lt hlists h.stands htop⟩
    · rcases h.timer hs' with ⟨-, hrefines⟩ | ⟨b, pending', -, -, hrefines⟩
      · exact ⟨now, pending, hrefines⟩
      · exact ⟨t, pending', hrefines⟩
    · rw [hdo.now_eq]
      exact hle
  obtain ⟨as, s', has, hrun, ⟨hrefines, hin', hnow', -⟩, htop, hnone⟩ := exists_run_to
    (fun s => (∃ now' pending', Refines hostname s now' pending' timers) ∧ s.InBounds timers ∧
      s.now ≤ time ∧ s.pc.PollsBy s.now time)
    (fun s => s.pc = .top ∧ s.pending = none) (left timers) hstep
    ⟨⟨now, pending, h⟩, hin, by linarith, hpolls⟩
  exact ⟨as, s', has, hrun, hrefines, hin', hnow', htop, hnone⟩

/-! ### A round -/

/-- A timer of `ip` has been picked up, or one that has expired by the time `time` is served in the
round. -/
def Aims (ip : IpString) (time : ℚ) (timers : List (ℕ × Timer)) (s : PollLoop) (pc : PollPc)
    (pending : Option (ℕ × IpString)) : Prop :=
  (∃ id, pending = some (id, ip)) ∨ ∃ p ∈ timers, p.2.userData = ip ∧
    (∃ file, s.file p.2.fd = some file ∧ file.readable time = true) ∧
    (p.2.fd ∈ pc.ufds ∨ p ∈ pc.toScan timers ∨ p.2.fd ∈ pc.ready)

/-- A step along the list keeps the timer in the round. -/
lemma Moves.aims {ip : IpString} {pc pc' : PollPc} (hmoves : Moves s time freed pc pc')
    (hlists : s.detector.timers.Lists timers) (hstands : pc.Stands timers) (htop : pc ≠ .top)
    (h : Aims ip time timers s pc pending) : Aims ip time timers s pc' pending := by
  rcases h with hpending | ⟨p, hp, huser, ⟨file, hfile, hreadable⟩, hin⟩
  · exact Or.inl hpending
  · refine Or.inr ⟨p, hp, huser, ⟨file, hfile, hreadable⟩, ?_⟩
    obtain ⟨hnode, htested⟩ := hstands
    cases hmoves with
    | top => exact absurd rfl htop
    | scanned ufds =>
      rw [PollPc.toScan, startingAt_of_notMem hlists.chain.zero_notMem] at hin
      exact Or.inl (hin.resolve_right fun h => h.elim List.not_mem_nil List.not_mem_nil)
    | stored tmp ufds h0 =>
      obtain ⟨n, hn, hrest, -⟩ := exists_node hlists.reaches freed tmp h0 hnode
      rw [PollPc.toScan, hrest] at hin
      rw [PollPc.toScan, hrest, hn]
      rcases hin with hmem | hmem | hmem
      · exact Or.inl (List.mem_append_left _ hmem)
      · rcases List.mem_cons.mp hmem with rfl | hmem
        · exact Or.inl (List.mem_append_right _ List.mem_cons_self)
        · exact Or.inr (Or.inl hmem)
      · exact absurd hmem List.not_mem_nil
    | advanced tmp ufds =>
      obtain ⟨n, hn, hrest, -⟩ := exists_node hlists.reaches freed tmp (htested rfl) hnode
      rw [PollPc.toScan, hrest] at hin
      rw [PollPc.toScan, hn]
      exact hin
    | polled since ufds =>
      refine Or.inr (Or.inr (List.mem_filter.mpr ⟨?_, ?_⟩))
      · exact hin.resolve_right fun h => h.elim List.not_mem_nil List.not_mem_nil
      · rw [hfile]
        exact hreadable
    | visited => exact hin
    | closed fd ready hclosed =>
      refine hin.imp_right fun h => h.imp_right fun hmem => ?_
      refine (List.mem_cons.mp hmem).resolve_left ?_
      rintro rfl
      rw [hfile] at hclosed
      cases hclosed
    | opened | called | absent | matched | different | followed => exact hin

/-- Reading a file leaves the others alone. -/
lemma file_readFile {fd fd' : ℕ} (file : TimerFile) (hne : fd' ≠ fd) (pc : PollPc) :
    PollLoop.file { s with
      detector := { s.detector with timers := s.readFile fd file }
      now := time
      pc := pc } fd' = s.file fd' := by
  have hfds : (s.readFile fd file).fds fd' = s.detector.timers.fds fd' := by
    unfold readFile
    split
    · rfl
    · split
      · exact Function.update_of_ne hne _ _
      · rfl
  rw [PollLoop.file, PollLoop.file]
  dsimp only
  rw [hfds]

/-- **A step of the timer thread** removes the node, or keeps its timer in the round. -/
lemma Refines.aims {ip : IpString} (h : Refines hostname s now pending timers)
    (hdo : TimerStep s time env freed s') (hnow : s.now ≤ time)
    (hlock : env.lock .hashmapLock = true) (htop : s.pc = .top → s.pending ≠ none)
    (haims : Aims ip time timers s s.pc pending) :
    ip ∉ ipKeys s'.detector.nodes ∨ ∃ now' pending', Refines hostname s' now' pending' timers ∧
      Aims ip time timers s' s'.pc pending' := by
  have hlists : s.detector.timers.Lists timers := h.inv.threads.timersOwned.lists
  cases hdo with
  | callback threads hstep =>
    obtain ⟨habstract, hrefines⟩ := h.callback hstep
    obtain ⟨hnone, -, hfiles⟩ := callback_files hstep
    rcases haims with ⟨id, hpending⟩ | ⟨p, hp, huser, hfile, hin⟩
    · have hgranted : TimedThreads.CallbacksGranted ⟨time, .callback env⟩ := by
        rintro env' ⟨⟩
        exact hlock
      refine Or.inl ((TimedThreads.pending_step h.inv habstract hgranted hpending).resolve_left ?_)
      exact fun hsome => absurd (hsome.symm.trans hnone) (Option.some_ne_none _)
    · refine Or.inr ⟨_, _, hrefines, Or.inr ⟨p, hp, huser, ?_, hin⟩⟩
      rw [hfiles]
      exact hfile
  | returned fd file ready hpending hpc hreadable =>
    obtain ⟨pending', -, hrefines⟩ := h.returned hnow hpending hpc hreadable
    have hpicked := h.picked
    rw [hpc] at hpicked haims
    have hnone : pending = none := hpicked.trans hpending
    refine Or.inr ⟨_, _, hrefines, ?_⟩
    rcases haims with ⟨id, hsome⟩ | ⟨p, hp, huser, hfile, hin⟩
    · exact absurd (hsome.symm.trans hnone) (Option.some_ne_none _)
    · by_cases hfd : p.2.fd = fd
      · -- it is the descriptor that has been read
        obtain ⟨-, q, hq, hqfd, hfound⟩ := hrefines.picked
        obtain rfl := hlists.eq_of_fd hq hp (hqfd.trans hfd.symm)
        exact Or.inl ⟨q.1, huser ▸ hfound⟩
      · refine Or.inr ⟨p, hp, huser, ?_, ?_⟩
        · rw [file_readFile file hfd]
          exact hfile
        · refine Or.inr (Or.inr ((List.mem_cons.mp ?_).resolve_left hfd))
          exact (hin.resolve_left List.not_mem_nil).resolve_left List.not_mem_nil
  | copied fd tmp ready hpending hpc =>
    refine Or.inr ⟨_, _, h.copied hnow hpc freed, ?_⟩
    rw [hpc] at haims
    exact haims
  | moved pc hpending hmoves =>
    refine Or.inr ⟨_, _, h.moved hnow hmoves, ?_⟩
    have hnext := hmoves.aims hlists h.stands (fun hpc => htop hpc hpending) haims
    exact hnext

/-- In a state in which nothing has been picked up, the timer is in the round. -/
lemma Aims.in_round {ip : IpString} (h : Refines hostname s now pending timers)
    (haims : Aims ip time timers s s.pc pending) (hserving : s.pc.serving = none)
    (hnone : s.pending = none) : ∃ p ∈ timers,
      (∃ file, s.file p.2.fd = some file ∧ file.readable time = true) ∧
        (p.2.fd ∈ s.pc.ufds ∨ p ∈ s.pc.toScan timers ∨ p.2.fd ∈ s.pc.ready) := by
  have hpicked := h.picked
  rw [Picked, hserving] at hpicked
  rcases haims with ⟨id, hsome⟩ | ⟨p, hp, -, hfile, hin⟩
  · exact absurd (hsome.symm.trans (hpicked.trans hnone)) (Option.some_ne_none _)
  · exact ⟨p, hp, hfile, hin⟩

/-- A round begins. -/
lemma step_top (htop : s.pc = .top) (hnone : s.pending = none) (hnow : s.now ≤ time)
    (env : DetectorEnv) (freed : Node Timer) : s.step (.timer time env freed) =
      some { s with now := time, pc := .scan s.detector.timers.gHead [] } := by
  rw [PollLoop.step, if_pos hnow, stepTimer, hnone]
  dsimp only
  rw [next, htop]
  rfl

/-- **The timer thread removes a node whose timer has expired**, in one round from the top of its
loop. -/
lemma exists_run_removed {ip : IpString} (h : Refines hostname s now pending timers)
    (hin : s.InBounds timers) (hnow : s.now ≤ time) (htop : s.pc = .top) (hnone : s.pending = none)
    (hlock : env.lock .hashmapLock = true) (freed : Node Timer) {p : ℕ × Timer} (hp : p ∈ timers)
    (huser : p.2.userData = ip)
    (hfile : ∃ file, s.file p.2.fd = some file ∧ file.readable time = true) :
    ∃ as s', (∀ a ∈ as, OfTimerThread time env freed a) ∧ run PollLoop.step s as = some s' ∧
      (∃ now' pending', Refines hostname s' now' pending' timers) ∧ s'.InBounds timers ∧
      s'.now ≤ time ∧ ip ∉ ipKeys s'.detector.nodes := by
  have hstep : ∀ s, (∃ now' pending', Refines hostname s now' pending' timers ∧
        (ip ∉ ipKeys s.detector.nodes ∨ Aims ip time timers s s.pc pending')) ∧
      s.InBounds timers ∧ s.now ≤ time → ¬ ip ∉ ipKeys s.detector.nodes →
      ∃ a s', OfTimerThread time env freed a ∧ s.step a = some s' ∧
        ((∃ now' pending', Refines hostname s' now' pending' timers ∧
          (ip ∉ ipKeys s'.detector.nodes ∨ Aims ip time timers s' s'.pc pending')) ∧
        s'.InBounds timers ∧ s'.now ≤ time) ∧ s'.left timers < s.left timers := by
    rintro s ⟨⟨now, pending, h, haims⟩, hin, hnow⟩ hmem
    replace haims := haims.resolve_left hmem
    have hlists : s.detector.timers.Lists timers := h.inv.threads.timersOwned.lists
    have htop : s.pc = .top → s.pending ≠ none := by
      intro hpc hnone
      obtain ⟨q, -, -, hround⟩ := haims.in_round h (by rw [hpc]; rfl) hnone
      rw [hpc] at hround
      rcases hround with hmem | hmem | hmem <;> cases hmem
    have hreturns : s.pending = none → s.PollReturns time := by
      intro hnone since ufds hpc
      obtain ⟨q, -, ⟨file, hfile, hreadable⟩, hround⟩ := haims.in_round h (by rw [hpc]; rfl) hnone
      rw [hpc] at hround
      have hufds : q.2.fd ∈ ufds := by
        rcases hround with hmem | hmem | hmem
        · exact hmem
        · cases hmem
        · cases hmem
      refine Or.inl (List.any_eq_true.mpr ⟨q.2.fd, hufds, ?_⟩)
      rw [hfile]
      exact hreadable
    obtain ⟨s', hs'⟩ := h.exists_step hin hnow hreturns env freed
    obtain ⟨-, hdo⟩ := timerStep_of_step hs'
    refine ⟨_, s', ⟨time, le_rfl, rfl⟩, hs', ⟨?_, hdo.inBounds hin hlists h.stands,
      hdo.now_eq.le⟩, hdo.left_lt hlists h.stands htop⟩
    rcases h.aims hdo hnow hlock htop haims with hremoved | ⟨now', pending', hrefines, haims'⟩
    · rcases h.timer hs' with ⟨-, hrefines⟩ | ⟨b, pending', -, -, hrefines⟩
      · exact ⟨now, pending, hrefines, Or.inl hremoved⟩
      · exact ⟨time, pending', hrefines, Or.inl hremoved⟩
    · exact ⟨now', pending', hrefines, Or.inr haims'⟩
  -- the scan begins with all timers
  have hmoves : Moves s time freed s.pc (.scan s.detector.timers.gHead []) := htop ▸ .top
  have hlists : s.detector.timers.Lists timers := h.inv.threads.timersOwned.lists
  have hfirst := step_top htop hnone hnow env freed
  obtain ⟨-, hdo⟩ := timerStep_of_step hfirst
  have haims : Aims ip time timers { s with now := time, pc := .scan s.detector.timers.gHead [] }
      (.scan s.detector.timers.gHead []) pending := by
    refine Or.inr ⟨p, hp, huser, hfile, Or.inr (Or.inl ?_)⟩
    rw [PollPc.toScan, hlists.chain.startingAt_head]
    exact hp
  obtain ⟨as, s', has, hrun, ⟨⟨now', pending', hrefines, -⟩, hin', hnow'⟩, hremoved⟩ :=
    exists_run_to (fun s => (∃ now' pending', Refines hostname s now' pending' timers ∧
        (ip ∉ ipKeys s.detector.nodes ∨ Aims ip time timers s s.pc pending')) ∧
      s.InBounds timers ∧ s.now ≤ time) (fun s => ip ∉ ipKeys s.detector.nodes) (left timers) hstep
    ⟨⟨now, pending, h.moved hnow hmoves, Or.inr haims⟩, hdo.inBounds hin hlists h.stands, le_rfl⟩
  refine ⟨.timer time env freed :: as, s', fun a ha => ?_,
    run_cons_eq_some.mpr ⟨_, hfirst, hrun⟩, ⟨now', pending', hrefines⟩, hin', hnow', hremoved⟩
  rcases List.mem_cons.mp ha with rfl | ha
  · exact ⟨time, le_rfl, rfl⟩
  · exact has a ha

/-! ### A silent node -/

/-- What a step of the timer thread acts as is one as well. -/
lemma ActsAs.ofTimer {b : TimedAction} (hacts : ActsAs (.timer time env freed) b)
    (hlock : env.lock .hashmapLock = true) :
    TimedThreads.OfTimer b ∧ TimedThreads.CallbacksGranted b := by
  cases hacts with
  | pickUp _ _ _ fd =>
    refine ⟨fun env' input heq => ?_, fun env' heq => ?_⟩
    · cases heq
    · cases heq
  | callback =>
    refine ⟨fun env' input heq => ?_, fun env' heq => ?_⟩
    · cases heq
    · cases heq
      exact hlock

/-- The timer thread does not disturb itself. -/
lemma along_undisturbed_timer {as : List PollAction} (has : ∀ a ∈ as, ∃ t, a = .timer t env freed) :
    Along PollLoop.step Undisturbed s as := by
  rintro pre a post t rfl -
  obtain ⟨t', rfl⟩ := has a (List.mem_append_right _ List.mem_cons_self)
  exact undisturbed_timer _ _ _ _

/-- What the timer thread does by itself is a run of the two threads. -/
lemma Refines.exists_timerRun (h : Refines hostname s now pending timers)
    (hlock : env.lock .hashmapLock = true) {as : List PollAction}
    (has : ∀ a ∈ as, ∃ t, a = .timer t env freed) (hrun : run PollLoop.step s as = some s') :
    ∃ bs now' pending' timers', Refines hostname s' now' pending' timers' ∧
      run TimedThreads.step (s.abstract now pending) bs = some (s'.abstract now' pending') ∧
      Along TimedThreads.step (fun _ b => TimedThreads.OfTimer b ∧ TimedThreads.CallbacksGranted b)
        (s.abstract now pending) bs := by
  refine h.exists_run (P := fun _ a => ∃ t, a = .timer t env freed) ?_ ?_ hrun
  · rintro s now pending timers a b - ⟨t, rfl⟩ hacts
    exact hacts.ofTimer hlock
  · intro pre a post t heq hpre
    refine ⟨along_undisturbed_timer has pre a post t heq hpre, has a ?_⟩
    rw [heq]
    exact List.mem_append_right _ List.mem_cons_self

/-- What the timer thread leaves alone by itself. -/
lemma Refines.timerFrame (h : Refines hostname s now pending timers)
    (hlock : env.lock .hashmapLock = true) {as : List PollAction}
    (has : ∀ a ∈ as, ∃ t, a = .timer t env freed) (hrun : run PollLoop.step s as = some s') :
    TimedThreads.TimerFrame s.toTimedThreads s'.toTimedThreads := by
  obtain ⟨bs, now', pending', timers', -, hbs, halong⟩ := h.exists_timerRun hlock has hrun
  have hframe := TimedThreads.timerFrame_run h.inv (fun pre a post t heq hpre =>
    (halong pre a post t heq hpre).1) hbs
  exact ⟨hframe.running, hframe.keys, hframe.closed, hframe.starts, hframe.deadline⟩

/-- **The timer thread removes a node whose deadline has passed**: it completes the round in which
it is, and serves the timer of the node in the next one. -/
lemma exists_removed {ip : IpString} (h : Refines hostname s now pending timers)
    (hin : s.InBounds timers) (hip : ip ≠ hostname)
    (hwatched : TimedThreads.Watched ip (s.abstract now pending) timers)
    (halloc : ∀ ip, .startTimer 0 ip ∉ s.trace) (htime : s.now + pollTimeoutMs ≤ time)
    (hdeadline : s.deadline ip ≤ (time : WithTop ℚ)) (hlock : env.lock .hashmapLock = true)
    (freed : Node Timer) :
    ∃ as s', (∀ a ∈ as, OfTimerThread time env freed a) ∧ run PollLoop.step s as = some s' ∧
      (∃ now' pending', Refines hostname s' now' pending' timers) ∧ s'.InBounds timers ∧
      s'.now ≤ time ∧ ip ∉ ipKeys s'.detector.nodes := by
  obtain ⟨as₁, s₁, has₁, hrun₁, hrefines₁, hin₁, hnow₁, htop, hnone⟩ :=
    exists_run_top h hin htime env freed
  by_cases hmem : ip ∈ ipKeys s₁.detector.nodes
  · have htimer₁ : ∀ a ∈ as₁, ∃ t, a = .timer t env freed :=
      fun a ha => (has₁ a ha).imp fun _ ht => ht.2
    obtain ⟨bs, now', pending', timers', h₁, hbs, halong⟩ := h.exists_timerRun hlock htimer₁ hrun₁
    obtain ⟨now₁, pending₁, hrefines₁⟩ := hrefines₁
    obtain rfl := h₁.inv.threads.timersOwned.lists.chain.unique
      hrefines₁.inv.threads.timersOwned.lists.chain
    obtain ⟨timers₂, hinv₂, hwatched₁⟩ := hwatched.run_timer h.inv hip halloc halong hbs
    obtain rfl := hinv₂.threads.timersOwned.lists.chain.unique
      h₁.inv.threads.timersOwned.lists.chain
    have hsame : s₁.deadline ip = s.deadline ip :=
      congrFun (h.timerFrame hlock htimer₁ hrun₁).deadline ip
    obtain ⟨id, hid⟩ : ∃ id, s₁.detector.timerOf ip = some id :=
      Option.ne_none_iff_exists'.mp fun hnot => Detector.timerOf_eq_none.mp hnot hmem
    have hdue : s₁.deadline ip ≠ ⊤ := by
      intro hinf
      rw [← hsame, hinf] at hdeadline
      exact absurd (top_le_iff.mp hdeadline) WithTop.coe_ne_top
    have hidle : pending' = none := by
      have hpicked := h₁.picked
      rw [htop] at hpicked
      exact hpicked.trans hnone
    rcases hwatched₁ id hid hdue with hsome | ⟨timer, htimer, huser, ⟨spec, hspec, harmed⟩, heq⟩
    · exact absurd (hsome.symm.trans hidle) (Option.some_ne_none _)
    · have hspec' : s₁.detector.timers.fds timer.fd = some spec := hspec
      have hpassed : s₁.setAt timer.fd + spec.valueMs ≤ time := by
        have hle := heq.trans_le (hsame.trans_le hdeadline)
        rw [TimedThreads.due_of_mem h₁.inv.threads.timersOwned.lists htimer hspec,
          WithTop.coe_le_coe] at hle
        exact hle
      have hfile : ∃ file, s₁.file timer.fd = some file ∧ file.readable time = true := by
        rw [file, hspec', Option.map_some]
        exact ⟨_, rfl, decide_eq_true ⟨harmed, hpassed⟩⟩
      obtain ⟨as₂, s₂, has₂, hrun₂, hrefines₂, hin₂, hnow₂, hremoved⟩ :=
        exists_run_removed h₁ hin₁ hnow₁ htop hnone hlock freed htimer huser hfile
      refine ⟨as₁ ++ as₂, s₂, fun a ha => ?_, run_append_eq_some.mpr ⟨s₁, hrun₁, hrun₂⟩, hrefines₂,
        hin₂, hnow₂, hremoved⟩
      exact (List.mem_append.mp ha).elim (has₁ a) (has₂ a)
  · exact ⟨as₁, s₁, has₁, hrun₁, hrefines₁, hin₁, hnow₁, hmem⟩

/-! ### A node that joins -/

/-- No heartbeat disturbs the timer thread at the top of its loop. -/
lemma undisturbed_top (htop : s.pc = .top) (time : ℚ) (env : DetectorEnv) (input : Received) :
    s.Undisturbed (.receive time env input) := by
  refine ⟨fun _ heq => PollAction.noConfusion heq, ?_, fun _ _ _ => ?_⟩
  · rw [Untouched, htop]
    exact Classical.em _
  · rw [htop]
    exact List.not_mem_nil

/-- None overtakes an expiry there. -/
lemma notOvertaken_top (htop : s.pc = .top) (hnone : s.pending = none) (a : PollAction) :
    s.NotOvertaken a := by
  rintro ip - (⟨id, hsome⟩ | ⟨id, node, -, hserving, -⟩)
  · exact absurd (hsome.symm.trans hnone) (Option.some_ne_none _)
  · rw [htop] at hserving
    cases hserving

/-- **A node joins** while the timer thread is at the top of its loop. Its timer guards its deadline
from then on. -/
lemma exists_join (h : Refines hostname s now s.pending timers) (htop : s.pc = .top)
    (hrunning : s.detector.running = true) {peer : IpString} (hne : peer ≠ hostname)
    (hnew : peer ∉ ipKeys s.detector.nodes) (hnow : s.now ≤ env.currentTimeMs)
    (hlock : env.lock .hashmapLock = true)
    (halloc : TimerManager.Allocates env.toTimerEnv s.detector.timers)
    (hstarts : ∀ ip, .startTimer 0 ip ∉ s.trace) (received : CStr) :
    ∃ s' timers', s.step (.receive env.currentTimeMs env (.beacon peer received)) = some s' ∧
      TimedThreads.Joins s.toTimedThreads env peer s'.toTimedThreads ∧ s'.pc = .top ∧
      timers'.length = timers.length + 1 ∧
      Refines hostname s' env.currentTimeMs s'.pending timers' ∧
      TimedThreads.Watched peer (s'.abstract env.currentTimeMs s'.pending) timers' := by
  have hinv : TimedThreads.Inv hostname s.toTimedThreads timers :=
    ⟨h.inv.threads, h.inv.estimated, h.inv.absent⟩
  obtain ⟨hadds, threads, hthreads, hjoins⟩ :=
    TimedThreads.exists_join hinv hrunning hne hnew hnow hlock halloc received
  obtain ⟨s', hstep⟩ : ∃ s', s.step (.receive env.currentTimeMs env (.beacon peer received)) =
      some s' := by
    rw [PollLoop.step, h.running, if_neg Bool.false_ne_true, stepReceive, hthreads]
    exact ⟨_, rfl⟩
  have hreceive : s.stepReceive env.currentTimeMs env (.beacon peer received) = some s' := by
    rw [PollLoop.step, h.running] at hstep
    exact hstep
  obtain ⟨hsame, -, -, hpending, hpc, -⟩ := stepReceive_eq_some hreceive
  obtain rfl := Option.some.inj (hthreads.symm.trans hsame)
  obtain ⟨habstract, timers', hrefines⟩ := h.receive hstep (undisturbed_top htop _ _ _)
  obtain ⟨-, -, hplain, -⟩ := TimedThreads.step_eq_some hsame
  obtain ⟨timers₁, hinv₁, hlen⟩ := Threads.length_of_addsTimer hinv.threads hplain hadds
  obtain rfl := hinv₁.timersOwned.lists.chain.unique hrefines.inv.threads.timersOwned.lists.chain
  have hfresh : TimedThreads.Watched peer (s.abstract now s.pending) timers := by
    intro id hid
    have hnone : s.detector.timerOf peer = none := Detector.timerOf_eq_none.mpr hnew
    exact absurd (hid.symm.trans hnone) (Option.some_ne_none _)
  have hgranted : TimedThreads.CallbacksGranted
      ⟨env.currentTimeMs, .receive env (.beacon peer received)⟩ := by
    rintro env' ⟨⟩
  obtain ⟨timers₂, hinv₂, hwatched⟩ := hfresh.step h.inv habstract hne hgranted
    fun ip hstart => hstarts ip (hjoins.starts ip hstart)
  obtain rfl := hinv₂.threads.timersOwned.lists.chain.unique hinv₁.timersOwned.lists.chain
  rw [← hpending] at hrefines hwatched
  exact ⟨s', timers₂, hstep, hjoins, hpc.trans htop, hlen, hrefines, hwatched⟩

/-- No timer has been started when the receive loop starts. -/
lemma start_starts (hostname : IpString) (unset : NodeStruct) (currentNodeIp : IpBuffer)
    (lastLogged now : ℚ) (ip : IpString) :
    .startTimer 0 ip ∉ (start hostname unset currentNodeIp lastLogged now).trace := by
  intro hmem
  cases List.mem_singleton.mp hmem

/-- A beacon of another node at the time `0`. -/
def firstBeacon (peer : IpString) : PollAction := .receive 0 quietDetectorEnv (.beacon peer [])

/-- What holds after the first beacon of another node, where `timers` is the timer list. -/
structure Joined (hostname peer : IpString) (s₀ s : PollLoop) (timers : List (ℕ × Timer)) :
    Prop where
  run_eq : run PollLoop.step s₀ [firstBeacon peer] = some s
  joins : TimedThreads.Joins s₀.toTimedThreads quietDetectorEnv peer s.toTimedThreads
  top : s.pc = .top
  pending : s.pending = none
  length_eq : timers.length = 1
  starts : ∀ ip, .startTimer 0 ip ∉ s.trace
  refines : Refines hostname s 0 s.pending timers
  watched : TimedThreads.Watched peer (s.abstract 0 s.pending) timers

/-- A node may join when the receive loop starts. -/
lemma exists_joined (unset : NodeStruct) (currentNodeIp : IpBuffer) (lastLogged : ℚ)
    {peer : IpString} (hne : peer ≠ hostname) :
    ∃ s timers,
      Joined hostname peer (start hostname unset currentNodeIp lastLogged 0) s timers := by
  have hstarts := start_starts hostname unset currentNodeIp lastLogged 0
  have hnew : peer ∉ ipKeys (start hostname unset currentNodeIp lastLogged 0).detector.nodes :=
    fun hmem => hne (List.mem_singleton.mp hmem)
  have hnow : (start hostname unset currentNodeIp lastLogged 0).now ≤
      quietDetectorEnv.currentTimeMs := le_rfl
  obtain ⟨s, timers, hstep, hjoins, hpc, hlen, hrefines, hwatched⟩ :=
    exists_join (start_refines hostname unset currentNodeIp lastLogged 0) rfl rfl hne hnew hnow rfl
      ⟨rfl, 3, rfl, rfl⟩ hstarts []
  exact ⟨s, timers, run_singleton.trans hstep, hjoins, hpc, hjoins.pending, hlen,
    fun ip hstart => hstarts ip (hjoins.starts ip hstart), hrefines, hwatched⟩

/-- A node that has joined is removed if it is not heard from again. -/
lemma Joined.exists_removed {peer : IpString} {s₀ : PollLoop}
    (h : Joined hostname peer s₀ s timers) (hne : peer ≠ hostname) (freed : Node Timer) :
    ∃ as s', (∀ a ∈ as, OfTimerThread 100 quietDetectorEnv freed a) ∧
      run PollLoop.step s as = some s' ∧ peer ∉ ipKeys s'.detector.nodes := by
  have hin : s.InBounds timers := by
    refine ⟨h.length_eq.trans_le (by decide), ?_⟩
    rw [h.top]
    exact Nat.zero_le _
  have hzero : quietDetectorEnv.currentTimeMs = 0 := rfl
  have htime : s.now + pollTimeoutMs ≤ 100 := by
    rw [h.joins.now, hzero, zero_add]
    exact le_rfl
  have hdeadline : s.deadline peer ≤ ((100 : ℚ) : WithTop ℚ) := by
    rw [h.joins.deadline, hzero, zero_add]
  have hlock : quietDetectorEnv.lock .hashmapLock = true := rfl
  obtain ⟨as, s', has, hrun, -, -, -, hremoved⟩ := PollLoop.exists_removed h.refines hin hne
    h.watched h.starts htime hdeadline hlock freed
  exact ⟨as, s', has, hrun, hremoved⟩

end PollLoop

end FailureDetector
