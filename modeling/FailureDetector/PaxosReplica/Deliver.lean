import FailureDetector.PaxosReplica.Submit

set_option relaxedAutoImplicit false
set_option autoImplicit false

/-!
# The exits of `on_deliver`

A call of `on_deliver` is refused the listener's mutex, rejects the value, handles a value that the
node itself has sent, or handles one that another node has sent. What is known of a call is read
off these cases.

## Main definitions

* `FailureDetector.DeliverStep` — the exits, with the replica and the actions of each.

## Main results

* `FailureDetector.onDeliver_step` — every call takes one of them.
* `FailureDetector.onDeliver_view` — a call, seen from outside.
-/

namespace FailureDetector

open CString Wire

/-- The exits of `on_deliver`. The scratch list of received addresses is left as it may be. -/
inductive DeliverStep (env : PaxosEnv) (replica : FdReplica) (iid : ℕ) (value : Bytes) :
    FdReplica × List Event → Prop
  | refused (hlistener : env.lock .paxosListenerMutex = false) :
    DeliverStep env replica iid value
      (replica, [.printf "ERROR: can't get Paxos listener mutex \n"])
  | rejected (received : Zlist CStr)
      (hlistener : env.lock .paxosListenerMutex = true) (hdecode : decode value = none) :
    DeliverStep env replica iid value
      ({ replica with paxosReceivedStateArray := received },
        [.lock .paxosListenerMutex,
          .printf "ERROR: Loading buffer in deserialize function unsuccessful\n",
          .unlock .paxosListenerMutex])
  | ownRefused (m : Message) (received : Zlist CStr)
      (hlistener : env.lock .paxosListenerMutex = true) (hdecode : decode value = some m)
      (hown : m.sender = replica.currentNodeIp.cstr)
      (hstates : env.lock .detectedStatesHashmapLock = false) :
    DeliverStep env replica iid value
      ({ replica with paxosReceivedStateArray := received },
        [.lock .paxosListenerMutex, .printf "ERROR: can't get mutex \n"])
  | ownUnknown (m : Message) (received : Zlist CStr)
      (hlistener : env.lock .paxosListenerMutex = true) (hdecode : decode value = some m)
      (hown : m.sender = replica.currentNodeIp.cstr)
      (hstates : env.lock .detectedStatesHashmapLock = true)
      (hfind : findDetectedState replica.detectedStates (zuuidStr m.uuid) = none) :
    DeliverStep env replica iid value
      ({ replica with paxosReceivedStateArray := received },
        [.lock .paxosListenerMutex, .lock .detectedStatesHashmapLock,
          .unlock .detectedStatesHashmapLock, .unlock .paxosListenerMutex])
  | ownKnown (m : Message) (received : Zlist CStr) (x : ℕ)
      (hlistener : env.lock .paxosListenerMutex = true) (hdecode : decode value = some m)
      (hown : m.sender = replica.currentNodeIp.cstr)
      (hstates : env.lock .detectedStatesHashmapLock = true)
      (hfind : findDetectedState replica.detectedStates (zuuidStr m.uuid) = some x) :
    DeliverStep env replica iid value
      ({ replica with
          paxosReceivedStateArray := received
          detectedStates := freeDetectedState replica.detectedStates x env.freed },
        [.lock .paxosListenerMutex, .lock .detectedStatesHashmapLock,
          .reachedConsensus (replica.detectedStates.data x).uuid
            (env.timeMs - (replica.detectedStates.data x).timeDiscovered),
          .unlock .detectedStatesHashmapLock, .unlock .paxosListenerMutex])
  | same (m : Message) (received current : Zlist CStr)
      (hlistener : env.lock .paxosListenerMutex = true) (hdecode : decode value = some m)
      (hown : m.sender ≠ replica.currentNodeIp.cstr)
      (hequal : m.members = replica.paxosStateArray.items)
      (hcurrent : current.items = replica.paxosStateArray.items) :
    DeliverStep env replica iid value
      ({ replica with paxosReceivedStateArray := received, paxosStateArray := current },
        [.lock .paxosListenerMutex, .unlock .paxosListenerMutex])
  | changed (m : Message) (received current : Zlist CStr)
      (hlistener : env.lock .paxosListenerMutex = true) (hdecode : decode value = some m)
      (hown : m.sender ≠ replica.currentNodeIp.cstr)
      (hdiffer : m.members ≠ [] → m.members ≠ replica.paxosStateArray.items)
      (hcurrent : current.items = m.members) :
    DeliverStep env replica iid value
      ({ replica with
          paxosReceivedStateArray := received
          paxosStateArray := current
          lastLoggedStateTimeMs := env.timeMs
          instanceId := iid },
        [.lock .paxosListenerMutex,
          .logStateList current.items (env.timeMs - replica.lastLoggedStateTimeMs),
          .unlock .paxosListenerMutex])

/-- `deserialize_hash` fails with a message, or succeeds without one. -/
lemma deserializeHash_cases {L : Type} [ZlistImpl L CStr] (value : Bytes) (result : L) :
    deserializeHash value result =
        (none, [.printf "ERROR: Loading buffer in deserialize function unsuccessful\n"]) ∨
      ∃ message, deserializeHash value result = (some message, []) := by
  unfold deserializeHash
  split
  · exact Or.inl rfl
  · exact Or.inr ⟨_, rfl⟩

/-- **Every call of `on_deliver`** takes one of its exits. -/
lemma onDeliver_step (env : PaxosEnv) (replica : FdReplica) (iid : ℕ) (value : Bytes) :
    DeliverStep env replica iid value (onDeliver env replica iid value) := by
  have hpurge : zlistPurge replica.paxosReceivedStateArray = Zlist.new := rfl
  unfold onDeliver
  rw [hpurge]
  cases hlistener : env.lock .paxosListenerMutex with
  | false =>
    rw [if_pos rfl]
    exact .refused hlistener
  | true =>
    rw [if_neg (by decide)]
    rcases deserializeHash_cases value Zlist.new with hvalue | ⟨message, hvalue⟩
    · have hdecode : decode value = none := by rw [decode, hvalue, Option.map_none]
      rw [hvalue]
      exact .rejected _ hlistener hdecode
    · have hdecode : decode value =
          some ⟨message.senderIp.cstr, message.uuid, message.result.items⟩ := by
        rw [decode, hvalue, Option.map_some]
      rw [hvalue]
      dsimp only
      by_cases hown : message.senderIp.cstr = replica.currentNodeIp.cstr
      · rw [if_pos (strcmp_eq_zero.mpr hown)]
        unfold onDeliverOwn
        cases hstates : env.lock .detectedStatesHashmapLock with
        | false =>
          rw [if_pos rfl]
          exact .ownRefused _ message.result hlistener hdecode hown hstates
        | true =>
          rw [if_neg (by decide)]
          cases hfind : findDetectedState replica.detectedStates (zuuidStr message.uuid) with
          | none => exact .ownUnknown _ message.result hlistener hdecode hown hstates hfind
          | some x =>
            exact .ownKnown _ message.result x hlistener hdecode hown hstates hfind
      · rw [if_neg fun h => hown (strcmp_eq_zero.mp h)]
        have hequal : (isEqualLists message.result replica.paxosStateArray).1 = true ↔
            message.result.items ≠ [] ∧ message.result.items = replica.paxosStateArray.items :=
          isEqualLists_iff message.result replica.paxosStateArray
        have hitems := isEqualLists_items message.result replica.paxosStateArray
        unfold onDeliverForeign
        dsimp only
        generalize isEqualLists message.result replica.paxosStateArray = result at hequal hitems ⊢
        obtain ⟨equal, received, current⟩ := result
        cases equal with
        | true => exact .same _ received current hlistener hdecode hown (hequal.mp rfl).2 hitems.2
        | false =>
          have hdiffer : message.result.items ≠ [] →
              message.result.items ≠ replica.paxosStateArray.items := by
            intro hne heq
            exact Bool.false_ne_true (hequal.mpr ⟨hne, heq⟩)
          have hcopy : (copyList received current).2.items = message.result.items :=
            (copyList_items received current).2.trans hitems.1
          exact .changed _ _ _ hlistener hdecode hown hdiffer hcopy

/-! ### The replica, seen from outside -/

section View

variable {L : Type} [ZlistImpl L CStr]

/-- A message from the same node, seen from outside. -/
lemma onDeliverOwn_view (env : PaxosEnv) (replica : FdReplicaOf L) (uuid : Uuid) :
    onDeliverOwn env replica.view uuid =
      (onDeliverOwn env replica uuid).map FdReplicaOf.view id := by
  unfold onDeliverOwn
  dsimp only [FdReplicaOf.view]
  split
  · rfl
  · cases findDetectedState replica.detectedStates (zuuidStr uuid) with
    | none => rfl
    | some x => rfl

/-- A message from another node, seen from outside. -/
lemma onDeliverForeign_view (env : PaxosEnv) (replica : FdReplicaOf L) (iid : ℕ) :
    onDeliverForeign env replica.view iid =
      (onDeliverForeign env replica iid).map FdReplicaOf.view id := by
  unfold onDeliverForeign
  dsimp only [FdReplicaOf.view]
  rw [isEqualLists_view]
  generalize isEqualLists replica.paxosReceivedStateArray replica.paxosStateArray = result
  obtain ⟨equal, received, current⟩ := result
  cases equal with
  | true => rfl
  | false =>
    dsimp only [Prod.map, id]
    rw [if_neg Bool.false_ne_true, if_neg Bool.false_ne_true, copyList_view]
    rfl

/-- **`on_deliver`**, seen from outside. -/
lemma onDeliver_view (env : PaxosEnv) (replica : FdReplicaOf L) (iid : ℕ) (value : Bytes) :
    onDeliver env replica.view iid value =
      (onDeliver env replica iid value).map FdReplicaOf.view id := by
  have hvalue := deserializeHash_view value (zlistPurge replica.paxosReceivedStateArray)
  rw [ZlistImpl.view_purge] at hvalue
  unfold onDeliver
  split
  · rfl
  · rw [show replica.view.paxosReceivedStateArray =
      ZlistImpl.view replica.paxosReceivedStateArray from rfl, hvalue]
    rcases deserializeHash_cases value (zlistPurge replica.paxosReceivedStateArray) with
      heq | ⟨message, heq⟩
    · rw [heq, ← ZlistImpl.view_purge]
      rfl
    · rw [heq]
      have hown := onDeliverOwn_view env
        { replica with paxosReceivedStateArray := message.result } message.uuid
      have hforeign := onDeliverForeign_view env
        { replica with paxosReceivedStateArray := message.result } iid
      dsimp only [Prod.map, Option.map, id, FdReplicaOf.view] at hown hforeign ⊢
      split
      · rw [hown]
      · rw [hforeign]

end View

end FailureDetector
