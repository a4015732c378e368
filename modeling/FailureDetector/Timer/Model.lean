import FailureDetector.Lib.LinkedList
import FailureDetector.Utils

set_option relaxedAutoImplicit false
set_option autoImplicit false

/-!
# The timers (`timer.c`)

Timers are the nodes of a singly linked list. Each has a `timerfd` descriptor, which the timer
thread polls. A timer is known to the rest of the program by the address of its node; here
addresses are handed out in the order of allocation, so that two timers never share one.

Freeing a node makes its address undefined, and reading from an undefined address gives no result.
The callback of every timer is `handle_timeout`, and of its arguments only the address differs
between timers.

## Main definitions

* `FailureDetector.Timer`, `FailureDetector.TimerManager` — `timer_node` and the state of the
  module with the descriptors it has open.
* `FailureDetector.startTimer`, `FailureDetector.stopTimer` — `start_timer` and `stop_timer`.
* `FailureDetector.getTimerFromFd`, `FailureDetector.timerThreadRead` — `_get_timer_from_fd` and
  what `_timer_thread` does with a descriptor that is ready.
-/

namespace FailureDetector

open LinkedList

/-- `t_timer`. -/
inductive TTimer
  | timerSingleShot
  | timerPeriodic
  deriving DecidableEq

/-- `itimerspec`: the time until the next expiration and the period. -/
structure Itimerspec where
  valueSec : ℕ
  valueNsec : ℕ
  intervalSec : ℕ
  intervalNsec : ℕ

/-- A descriptor expires if the time until the next expiration is not zero. -/
def Itimerspec.armed (spec : Itimerspec) : Bool := spec.valueSec ≠ 0 ∨ spec.valueNsec ≠ 0

/-- The settings after an expiration has been read: the next period, if there is one. -/
def Itimerspec.rearm (spec : Itimerspec) : Itimerspec :=
  { spec with valueSec := spec.intervalSec, valueNsec := spec.intervalNsec }

/-- `timer_node`, apart from the callback and the next node. -/
structure Timer where
  fd : ℕ
  userData : IpString
  interval : ℕ
  type : TTimer

/-- The nodes, `g_head`, the open descriptors with their settings, and the number of nodes
allocated so far. -/
structure TimerManager where
  heap : Heap Timer
  gHead : ℕ
  fds : ℕ → Option Itimerspec
  started : ℕ

/-- What a call of `start_timer` depends on besides its arguments. -/
structure TimerEnv where
  /-- Whether `malloc` succeeds. -/
  malloc : Bool
  /-- The descriptor that `timerfd_create` returns, unless it fails. -/
  timerfd : Option ℕ

/-- No timers. -/
def TimerManager.init : TimerManager := ⟨fun _ => none, 0, fun _ => none, 0⟩

/-- The settings that `start_timer` makes. -/
def timerSpec (intervalMs : ℕ) (type : TTimer) : Itimerspec :=
  let intervalSec := intervalMs / 1000
  let intervalNsec := intervalMs % 1000 * 1000000
  match type with
  | .timerPeriodic => ⟨intervalSec, intervalNsec, intervalSec, intervalNsec⟩
  | .timerSingleShot => ⟨intervalSec, intervalNsec, 0, 0⟩

/-- `start_timer` once it has the memory for a node, at `newNode`: the id of the timer, or `0`. A
descriptor that is open is not returned by `timerfd_create`. -/
def startTimerNode (timerfd : Option ℕ) (newNode : ℕ) (t : TimerManager) (intervalMs : ℕ)
    (type : TTimer) (userData : IpString) : TimerManager × ℕ :=
  match timerfd.filter fun fd => (t.fds fd).isNone with
  | none => (t, 0)
  | some fd =>
    ({ heap := Function.update t.heap newNode (some ⟨⟨fd, userData, intervalMs, type⟩, t.gHead⟩)
       gHead := newNode
       fds := Function.update t.fds fd (some (timerSpec intervalMs type))
       started := t.started + 1 },
      newNode)

/-- `start_timer`, with the addresses in the order of allocation. -/
def startTimer (env : TimerEnv) (t : TimerManager) (intervalMs : ℕ) (type : TTimer)
    (userData : IpString) : TimerManager × ℕ :=
  if env.malloc = false then (t, 0)
  else startTimerNode env.timerfd (t.started + 1) t intervalMs type userData

/-- Link the node at `tmp`, if there is one, to the node at `next`. -/
def relink (heap : Heap Timer) (tmp next : ℕ) : Option (Heap Timer) :=
  if tmp = 0 then some heap
  else (heap tmp).map fun n => Function.update heap tmp (some ⟨n.data, next⟩)

/-- `stop_timer`. -/
def stopTimer (t : TimerManager) (timerId : ℕ) : Option TimerManager :=
  if timerId = 0 then some t
  else do
    let node ← t.heap timerId
    let gHead := if timerId = t.gHead then node.next else t.gHead
    -- the search goes on in the rest of the list after the head has been taken off
    let tmp ← search t.heap (fun n => n.next = timerId) t.started gHead
    let heap ← relink t.heap tmp node.next
    some { t with
      heap := Function.update heap timerId none
      gHead := gHead
      fds := Function.update t.fds node.data.fd none }

/-- `_get_timer_from_fd`: the address of the timer, or `0`. -/
def getTimerFromFd (t : TimerManager) (fd : ℕ) : Option ℕ :=
  search t.heap (fun n => n.data.fd = fd) t.started t.gHead

/-- What `_timer_thread` does with a descriptor that has expired: it reads the descriptor, which
starts the next period if there is one, and looks for the timer. The result is the timer's id and
a copy of its arguments, if there is one. -/
def timerThreadRead (t : TimerManager) (fd : ℕ) :
    Option (TimerManager × Option (ℕ × IpString)) := do
  let spec ← t.fds fd
  guard spec.armed
  let tmp ← getTimerFromFd t fd
  let t' := { t with fds := Function.update t.fds fd (some spec.rearm) }
  if tmp = 0 then some (t', none)
  else do
    let node ← t.heap tmp
    some (t', some (tmp, node.data.userData))

end FailureDetector
