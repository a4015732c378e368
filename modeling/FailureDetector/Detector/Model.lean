import Mathlib.Data.Rat.Floor
import FailureDetector.PaxosReplica.Model
import FailureDetector.Timer.Model

set_option relaxedAutoImplicit false
set_option autoImplicit false

/-!
# The failure detector (`failure_detector_main.c`)

The main thread receives beacons. A beacon from another node is a heartbeat: the node is added to
the nodes table or its timer is restarted, under `hashmap_lock`. When a timer expires the timer
thread calls `handle_timeout`, which removes the node, also under `hashmap_lock`. Both submit the
table to Paxos when they have changed it. A beacon whose payload is the node's own address is a
command of the orchestrator and switches the node's own beacons.

## Main definitions

* `FailureDetector.Detector`, `FailureDetector.DetectorEnv` — the state of the program, and what a
  step depends on besides its input.
* `FailureDetector.initNodesStruct`, `FailureDetector.startDetector` — `init_nodes_struct` and the
  state in which the receive loop starts.
* `FailureDetector.handleTimeout` — `handle_timeout`.
* `FailureDetector.heartbeat`, `FailureDetector.orchestrate`, `FailureDetector.receive` — an
  iteration of the receive loop.
-/

namespace FailureDetector

open CString

/-- The state of the program. -/
structure Detector where
  hostname : IpString
  nodes : List NodeStruct
  timers : TimerManager
  replica : FdReplica
  silenced : Bool
  /-- Whether the receive loop has not been left. -/
  running : Bool

/-- What one step depends on besides its input. -/
structure DetectorEnv extends PaxosEnv, TimerEnv where
  /-- The time at which a heartbeat arrives. -/
  currentTimeMs : ℚ
  /-- The address of the memory that is allocated for a node. -/
  node : ℕ
  /-- The memory that `init_adaptive_timeout_struct` leaves unset. -/
  unset : UnsetTimeoutMemory
  /-- What a `double` that is out of range becomes when it is converted to `unsigned int`. -/
  outOfRange : UInt32

/-- `init_nodes_struct`, when the mutex can be locked. Every field but the address keeps what is
in the memory of the new node. -/
def initNodesStruct (unset : NodeStruct) (nodes : List NodeStruct) (hostname : IpString) :
    List NodeStruct :=
  HashTable.add nodes { unset with ipaddress := hostname }

/-- The state in which the receive loop starts. -/
def startDetector (hostname : IpString) (unset : NodeStruct) (currentNodeIp : IpBuffer)
    (lastLoggedStateTimeMs : ℚ) : Detector where
  hostname := hostname
  nodes := initNodesStruct unset [] hostname
  timers := TimerManager.init
  replica := initReplica (currentNodeIp.set hostname) lastLoggedStateTimeMs
  silenced := false
  running := true

/-- `handle_timeout`, with the id of the timer and the address in its arguments. -/
def handleTimeout (env : DetectorEnv) (d : Detector) (_timerId : ℕ) (ipAddress : IpString) :
    Detector × List Event :=
  if env.lock .hashmapLock = false then
    (d, [.printf "ERROR: can't get mutex \n"])
  else
    match HashTable.find NodeStruct.ipaddress d.nodes ipAddress with
    | none => (d, [.lock .hashmapLock, .unlock .hashmapLock])
    | some node =>
      let nodes := HashTable.delete NodeStruct.ipaddress d.nodes ipAddress
      let (replica, nodes', events) :=
        paxosSerializeAndSubmit env.toPaxosEnv d.replica (some nodes)
      ({ d with nodes := nodes'.getD nodes, replica := replica },
        [.lock .hashmapLock, .timerExpired ipAddress node.timeoutMetadata.nextTimeout] ++ events ++
          [.unlock .hashmapLock])

/-- The conversion of a `double` to `unsigned int`. -/
def unsignedOfDouble (outOfRange : UInt32) (x : ℚ) : ℕ :=
  if -1 < x ∧ x < 4294967296 then ⌊x⌋.toNat else outOfRange.toNat

/-- The part of the receive loop that is under `hashmap_lock`. -/
def heartbeat (env : DetectorEnv) (d : Detector) (ipaddress : IpString) :
    Option (Detector × List Event) :=
  match HashTable.find NodeStruct.ipaddress d.nodes ipaddress with
  | none =>
    let metadata := estimateNextDelay (initAdaptiveTimeoutStruct env.unset env.currentTimeMs)
      env.currentTimeMs
    let timeout := unsignedOfDouble env.outOfRange metadata.nextTimeout
    let (timers, timerId) := startTimer env.toTimerEnv d.timers timeout .timerSingleShot ipaddress
    let nodes := HashTable.add d.nodes ⟨ipaddress, env.currentTimeMs, timerId, metadata⟩
    let (replica, nodes', events) := paxosSerializeAndSubmit env.toPaxosEnv d.replica (some nodes)
    some ({ d with nodes := nodes'.getD nodes, timers := timers, replica := replica },
      .startTimer timerId ipaddress :: events)
  | some node => do
    let timers ← stopTimer d.timers node.timerId
    let metadata := estimateNextDelay node.timeoutMetadata env.currentTimeMs
    let timeout := unsignedOfDouble env.outOfRange metadata.nextTimeout
    let (timers, timerId) := startTimer env.toTimerEnv timers timeout .timerSingleShot ipaddress
    let nodes := HashTable.update NodeStruct.ipaddress d.nodes ipaddress fun n =>
      ⟨n.ipaddress, env.currentTimeMs, timerId, metadata⟩
    some ({ d with nodes := nodes, timers := timers }, [.startTimer timerId ipaddress])

/-- The part of the receive loop that lets the orchestrator silence and restart the node. -/
def orchestrate (d : Detector) (received : CStr) : Detector × List Event :=
  if d.hostname.1 = received ∧ d.silenced = false then
    ({ d with silenced := true }, [.printf "Silencing.....\n", .silence])
  else if d.hostname.1 = received ∧ d.silenced = true then
    (d, [.printf "Restarting....\n", .publish])
  else (d, [])

/-- What `zstr_recvx` yields. -/
inductive Received
  /-- It fails. -/
  | failure
  /-- A beacon from the node `ipaddress` with the payload `received`. -/
  | beacon (ipaddress : IpString) (received : CStr)

/-- An iteration of the receive loop. -/
def receive (env : DetectorEnv) (d : Detector) : Received → Option (Detector × List Event)
  | .failure => some (d, [.printf "ERROR: message could not be read \n"])
  | .beacon ipaddress received =>
    if d.hostname = ipaddress then some (d, [])
    else if env.lock .hashmapLock = false then
      some ({ d with running := false }, [.printf "ERROR: can't get mutex \n"])
    else do
      let (d, events) ← heartbeat env d ipaddress
      let (d, events') := orchestrate d received
      some (d, .lock .hashmapLock :: events ++ [.unlock .hashmapLock] ++ events')

end FailureDetector
