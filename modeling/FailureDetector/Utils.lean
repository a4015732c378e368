import FailureDetector.AdaptiveDelay.Model
import FailureDetector.Lib.HashTable
import FailureDetector.Lib.Zlist
import FailureDetector.Tpl

set_option relaxedAutoImplicit false
set_option autoImplicit false

/-!
# The nodes table and membership messages (`utils.c`)

The nodes table is a `uthash` table of `node_struct`s with their IP addresses as keys.
`serialize_hash` sorts it and packs the addresses into a message, and `deserialize_hash` builds
the list of addresses in a received message.

Every function returns the values it computes, the new contents of what it modifies through its
pointers, and the externally visible actions it performs. The debug output is left out. The functions
on lists take those of any implementation of `zlist`.

## Main definitions

* `FailureDetector.IpString`, `FailureDetector.NodeStruct` — addresses and `node_struct`.
* `FailureDetector.Mutex`, `FailureDetector.Event` — mutexes and visible actions;
  `FailureDetector.submissions`, `FailureDetector.loggedStates` — the values submitted and the
  states logged by a sequence of actions.
* `FailureDetector.serializeHash`, `FailureDetector.deserializeHash` — `serialize_hash` and
  `deserialize_hash`.
* `FailureDetector.getMembershipGroupFromHash` — `get_membership_group_from_hash`.
* `FailureDetector.isEqualLists`, `FailureDetector.copyList` — `is_equal_lists` and `copy_list`.
-/

namespace FailureDetector

open CString Wire

/-- `MAX_SIZE_IP_ADDRESS_STRING`. -/
def maxSizeIpAddressString : ℕ := 16

/-- `ZUUID_LEN`. -/
def zuuidLen : ℕ := 16

instance : NeZero maxSizeIpAddressString := ⟨by decide⟩

/-- A buffer for an IP address. -/
abbrev IpBuffer := CharArray maxSizeIpAddressString

/-- A UUID. -/
abbrev Uuid := CharArray zuuidLen

/-- An IP address as a string that fits in an `IpBuffer`. -/
abbrev IpString := {s : CStr // s.length < maxSizeIpAddressString}

/-- Copy an IP address into a buffer. -/
def IpBuffer.set (dst : IpBuffer) (ip : IpString) : IpBuffer := strcpy dst ip.1 ip.2

/-- A buffer holds the address last copied into it. -/
@[simp] lemma IpBuffer.cstr_set (dst : IpBuffer) (ip : IpString) : (dst.set ip).cstr = ip.1 :=
  cstr_strcpy dst ip.1 ip.2

/-- `node_struct`. The bytes after the end of the address are never read. -/
structure NodeStruct where
  ipaddress : IpString
  lastHeartbeatMs : ℚ
  timerId : ℕ
  timeoutMetadata : AdaptiveTimeoutStruct

/-- The mutexes of the program. -/
inductive Mutex
  | hashmapLock
  | paxosListenerMutex
  | detectedStatesHashmapLock
  deriving DecidableEq

/-- The actions of the program that others can see. -/
inductive Event
  /-- A successful `pthread_mutex_lock`. -/
  | lock (m : Mutex)
  /-- `pthread_mutex_unlock`. -/
  | unlock (m : Mutex)
  /-- Text written to the standard output. -/
  | printf (text : String)
  /-- `start_timer` of the timer `timerId` with the address in its arguments. -/
  | startTimer (timerId : ℕ) (ipAddress : IpString)
  /-- The log entry of an expired timer. -/
  | timerExpired (ipAddress : IpString) (nextTimeout : ℚ)
  /-- The log entry of a detected change of state. -/
  | detectedChange (uuid : CStr)
  /-- `evpaxos_replica_submit`. -/
  | submit (value : Bytes)
  /-- The log entry of a detected state that reached consensus. -/
  | reachedConsensus (uuid : CStr) (timeMs : ℚ)
  /-- `log_state_list`. -/
  | logStateList (list : List CStr) (timePassed : ℚ)
  /-- `PUBLISH` sent to the speaker. -/
  | publish
  /-- `SILENCE` sent to the speaker. -/
  | silence
  deriving DecidableEq

/-- The values handed to `evpaxos_replica_submit`. -/
def submissions (events : List Event) : List Bytes :=
  events.filterMap fun event => match event with
    | .submit value => some value
    | _ => none

/-- The lists that `log_state_list` is called with. -/
def loggedStates (events : List Event) : List (List CStr) :=
  events.filterMap fun event => match event with
    | .logStateList list _ => some list
    | _ => none

/-- The keys of a nodes table. -/
abbrev ipKeys (nodes : List NodeStruct) : List IpString := HashTable.keys NodeStruct.ipaddress nodes

/-- `ip_address_hash_sort_function`. -/
def ipAddressHashSortFunction (a b : NodeStruct) : ℤ := strcmp a.ipaddress.1 b.ipaddress.1

/-- The packing loop of `serialize_hash`. Every address is copied into the same buffer. -/
def packIpAddresses {a b : ℕ} :
    List NodeStruct → IpBuffer → TplImage a b maxSizeIpAddressString →
      TplImage a b maxSizeIpAddressString
  | [], _, tn => tn
  | n :: ns, ipaddress, tn =>
    let ipaddress := ipaddress.set n.ipaddress
    packIpAddresses ns ipaddress (tplPackArray tn ipaddress)

/-- `serialize_hash`: the message, if the return value is `0`, and the sorted table. The last
argument is what its local buffer contains at first. -/
def serializeHash (nodes : Option (List NodeStruct)) (currentNodeIp : IpBuffer) (uuid : Uuid)
    (ipaddress : IpBuffer) : Option Bytes × Option (List NodeStruct) × List Event :=
  match nodes with
  | none | some [] => (none, nodes, [.printf "ERROR: NULL nodes structure \n"])
  | some (n :: ns) =>
    let nodes := HashTable.sort ipAddressHashSortFunction (n :: ns)
    let tn := tplMap zuuidLen maxSizeIpAddressString maxSizeIpAddressString
    -- the root is packed twice, once for each of its arrays
    let tn := tplPackRoot tn uuid currentNodeIp
    let tn := tplPackRoot tn uuid currentNodeIp
    let tn := packIpAddresses nodes ipaddress tn
    (some (tplDump tn), some nodes, [])

section Lists

variable {L : Type} [ZlistImpl L CStr]

/-- The loop of `get_membership_group_from_hash`. -/
def pushIpAddresses : List NodeStruct → IpBuffer → L → L
  | [], _, result => result
  | n :: ns, temp, result =>
    let temp := temp.set n.ipaddress
    pushIpAddresses ns temp (zlistPush result temp.cstr)

/-- `get_membership_group_from_hash`: the sorted table and the list. The last argument is what its
local buffer contains at first. -/
def getMembershipGroupFromHash (nodes : List NodeStruct) (result : L) (temp : IpBuffer) :
    List NodeStruct × L :=
  let nodes := HashTable.sort ipAddressHashSortFunction nodes
  (nodes, pushIpAddresses nodes temp result)

/-- The loop of `is_equal_lists`, from the items under the cursors on. -/
def isEqualListsLoop (l1 l2 : L) : Bool × L × L :=
  match _h : zlistItem l1, zlistItem l2 with
  | some strL1, some strL2 =>
    if strcmp strL1 strL2 ≠ 0 then (false, l1, l2)
    else isEqualListsLoop (zlistNext l1) (zlistNext l2)
  | none, none => (true, l1, l2)
  | _, _ => (false, l1, l2)
termination_by (ZlistImpl.cursor l1).length
decreasing_by exact ZlistImpl.length_cursor_next _h

/-- `is_equal_lists`. It moves the cursors of both lists. -/
def isEqualLists (l1 l2 : L) : Bool × L × L :=
  if zlistSize l1 = 0 ∨ zlistSize l2 = 0 then (false, l1, l2)
  else if zlistSize l1 ≠ zlistSize l2 then (false, l1, l2)
  else isEqualListsLoop (zlistFirst l1) (zlistFirst l2)

/-- What `deserialize_hash` writes through its pointers. -/
structure HashMessage (L : Type) where
  result : L
  senderIp : IpBuffer
  uuid : Uuid

/-- The unpacking loop of `deserialize_hash`. -/
def unpackIpAddresses {a b : ℕ} (tn : TplNode a b maxSizeIpAddressString) (result : L) : L :=
  match _h : tplUnpackArray tn with
  | none => result
  | some (temp, tn') => unpackIpAddresses tn' (zlistPush result temp.cstr)
termination_by tn.cur.length
decreasing_by exact length_cur_tplUnpackArray _h

/-- `deserialize_hash`: what it has read, if the return value is `0`. -/
def deserializeHash (buffer : Bytes) (result : L) : Option (HashMessage L) × List Event :=
  match tplLoad zuuidLen maxSizeIpAddressString maxSizeIpAddressString buffer with
  | none =>
    (none, [.printf "ERROR: Loading buffer in deserialize function unsuccessful\n"])
  | some tn =>
    -- the root is unpacked twice, once for each of its arrays
    let (_, _, tn) := tplUnpackRoot tn
    let (uuid, senderIp, tn) := tplUnpackRoot tn
    (some ⟨unpackIpAddresses tn result, senderIp, uuid⟩, [])

/-- The loop of `copy_list`, from the item under the cursor on. -/
def copyListLoop (source dest : L) : L × L :=
  match _h : zlistItem source with
  | none => (source, dest)
  | some str => copyListLoop (zlistNext source) (zlistAppend dest str)
termination_by (ZlistImpl.cursor source).length
decreasing_by exact ZlistImpl.length_cursor_next _h

/-- `copy_list`: the source, with its cursor moved, and the copy. -/
def copyList (source dest : L) : L × L := copyListLoop (zlistFirst source) (zlistPurge dest)

end Lists

end FailureDetector
