import VcpMediaServer.MapScan
import VcpMediaServer.StreamManager

/-!
# Receivers

Who plays a stream is a receiver of its hub. A receiver is registered with the hub of the stream it
names, if there is one, and is looked for by its id in the hubs of **all** streams.

* `ReceiverHub`, `ReceiverManager` — the hub and the manager, with the receivers.
* `ReceiverManager.receiver` — the receiver of a stream under an id; what each call does to it.
* `ReceiverManager.Separate` — an id is known to one stream at most.
* `ReceiverManager.Extends` — without the receivers, the manager is the `StreamManager`.
-/

namespace VcpMediaServer

open MapScan

/-- `StreamSinkMode`. -/
inductive StreamSinkMode where
  | pull
  | push
  deriving DecidableEq, Repr

/-- `ReceiverStatus`. -/
inductive ReceiverStatus where
  | idle
  | connecting
  | playing
  | paused
  | error (message : String)
  | stopped
  deriving DecidableEq, Repr

/-- `ReceiverId`. -/
abbrev ReceiverId := String

/-- `StreamReceiver`. -/
structure StreamReceiver where
  /-- Its id. -/
  id : ReceiverId
  /-- The stream it plays. -/
  streamId : StreamId
  /-- Whether a client pulls or the server pushes. -/
  mode : StreamSinkMode
  /-- The protocol it plays by. -/
  protocol : StreamProtocol
  /-- The address of the client that pulls. -/
  clientAddr : Option String
  /-- Its status. -/
  status : ReceiverStatus
  /-- The address that the server pushes to. -/
  pushAddr : Option String
  deriving DecidableEq, Repr

namespace StreamReceiver

/-- `StreamReceiver::new`, with the first part of the UUID that it generates. -/
def new (uuid : String) (streamId : StreamId) (mode : StreamSinkMode) (protocol : StreamProtocol) :
    StreamReceiver :=
  { id := streamId ++ "_" ++ uuid, streamId, mode, protocol, clientAddr := none, status := .idle,
    pushAddr := none }

/-- `with_client_addr`. -/
def withClientAddr (r : StreamReceiver) (addr : String) : StreamReceiver :=
  { r with clientAddr := some addr }

/-- `with_push_addr`. -/
def withPushAddr (r : StreamReceiver) (addr : String) : StreamReceiver :=
  { r with pushAddr := some addr }

end StreamReceiver

/-- `StreamHub`, with its receivers. -/
structure ReceiverHub extends StreamHub where
  /-- The receivers by id. -/
  receivers : AList fun _ : ReceiverId => StreamReceiver

namespace ReceiverHub

/-- `StreamHub::with_stream`. -/
def withStream (stream : Stream) : ReceiverHub :=
  { StreamHub.withStream stream with receivers := ∅ }

/-- `StreamHub::add_receiver`. -/
def addReceiver (h : ReceiverHub) (r : StreamReceiver) : ReceiverHub × StreamReceiver :=
  ({ h with receivers := h.receivers.insert r.id r }, r)

/-- `StreamHub::remove_receiver`. -/
def removeReceiver (h : ReceiverHub) (id : ReceiverId) : ReceiverHub × Option StreamReceiver :=
  ({ h with receivers := h.receivers.erase id }, h.receivers.lookup id)

/-- `StreamHub::get_receiver`. -/
def getReceiver (h : ReceiverHub) (id : ReceiverId) : Option StreamReceiver := h.receivers.lookup id

/-- `StreamHub::list_receiver_ids`. -/
def listReceiverIds (h : ReceiverHub) : List ReceiverId := h.receivers.keys

/-- `StreamHub::set_receiver_status`: the hub and the status before. -/
def setReceiverStatus (h : ReceiverHub) (id : ReceiverId) (status : ReceiverStatus) :
    ReceiverHub × Option ReceiverStatus :=
  match h.receivers.lookup id with
  | some r => ({ h with receivers := h.receivers.insert id { r with status } }, some r.status)
  | none => (h, none)

variable {h : ReceiverHub} {id i : ReceiverId}

theorem mem_listReceiverIds_iff : id ∈ h.listReceiverIds ↔ ∃ r, h.receivers.lookup id = some r := by
  rw [listReceiverIds, ← AList.mem_keys, ← AList.lookup_isSome, Option.isSome_iff_exists]

theorem fst_removeReceiver_of_none (hid : (h.removeReceiver id).2 = none) :
    (h.removeReceiver id).1 = h := by
  have hnot : id ∉ h.receivers := AList.lookup_eq_none.mp hid
  have herase : h.receivers.erase id = h.receivers := AList.ext (List.kerase_of_notMem_keys hnot)
  rw [removeReceiver, herase]

theorem snd_setReceiverStatus (h : ReceiverHub) (id : ReceiverId) (status : ReceiverStatus) :
    (h.setReceiverStatus id status).2 = (h.getReceiver id).map StreamReceiver.status := by
  rw [setReceiverStatus, getReceiver]
  split
  · next hr => rw [hr, Option.map_some]
  · next hr => rw [hr, Option.map_none]

theorem fst_setReceiverStatus_of_none {status : ReceiverStatus}
    (hid : (h.setReceiverStatus id status).2 = none) : (h.setReceiverStatus id status).1 = h := by
  rw [setReceiverStatus] at hid ⊢
  split at hid
  · cases hid
  · rfl

theorem known_of_setReceiverStatus {status : ReceiverStatus}
    (hid : (h.setReceiverStatus id status).2.isSome) : ∃ r, h.receivers.lookup id = some r := by
  rw [snd_setReceiverStatus, Option.isSome_map] at hid
  exact Option.isSome_iff_exists.mp hid

/-- Only the receiver under the id gets the status. -/
theorem getReceiver_setReceiverStatus (h : ReceiverHub) (id i : ReceiverId)
    (status : ReceiverStatus) :
    (h.setReceiverStatus id status).1.getReceiver i =
      if i = id then (h.getReceiver i).map fun r => { r with status } else h.getReceiver i := by
  rw [setReceiverStatus, getReceiver, getReceiver]
  by_cases hi : i = id
  · obtain rfl := hi
    rw [if_pos rfl]
    split
    · next r hr =>
      rw [hr, Option.map_some]
      exact AList.lookup_insert _
    · next hr => rw [hr, Option.map_none]
  · rw [if_neg hi]
    split
    · exact AList.lookup_insert_ne hi
    · rfl

theorem toStreamHub_setReceiverStatus (h : ReceiverHub) (id : ReceiverId)
    (status : ReceiverStatus) :
    (h.setReceiverStatus id status).1.toStreamHub = h.toStreamHub := by
  rw [setReceiverStatus]
  split <;> rfl

end ReceiverHub

/-- `StreamManager`, with the receivers of its hubs. -/
structure ReceiverManager where
  /-- The hubs by stream name. -/
  hubs : AList fun _ : StreamId => ReceiverHub

namespace ReceiverManager

/-- `StreamManager::new`. -/
def new : ReceiverManager := ⟨∅⟩

/-- `StreamManager::get_hub`. -/
def getHub (m : ReceiverManager) (s : StreamId) : Option ReceiverHub := m.hubs.lookup s

/-- `StreamManager::create_stream`. -/
def createStream (m : ReceiverManager) (s : StreamId) (source : StreamSourceMode)
    (protocol : StreamProtocol) (pullUrl : Option String) : ReceiverManager × Stream :=
  match m.getHub s with
  | some existing => (m, existing.stream)
  | none =>
    let stream : Stream :=
      { id := s, tracks := [], status := .created, playbackStatus := .idle, source, protocol,
        pullUrl, sps := none
        pps := none }
    (⟨m.hubs.insert s (ReceiverHub.withStream stream)⟩, stream)

/-- `StreamManager::remove_stream`. -/
def removeStream (m : ReceiverManager) (s : StreamId) : ReceiverManager × Option Stream :=
  (⟨m.hubs.erase s⟩, (m.getHub s).map fun h => h.stream)

/-- What `create_receiver` and its siblings share: the receiver is added to the hub of its stream,
if there is one. -/
def register (m : ReceiverManager) (r : StreamReceiver) : ReceiverManager × StreamReceiver :=
  match m.getHub r.streamId with
  | some h => (⟨m.hubs.insert r.streamId (h.addReceiver r).1⟩, r)
  | none => (m, r)

/-- `StreamManager::create_receiver`. -/
def createReceiver (m : ReceiverManager) (uuid : String) (s : StreamId) (mode : StreamSinkMode)
    (protocol : StreamProtocol) : ReceiverManager × StreamReceiver :=
  m.register (.new uuid s mode protocol)

/-- `StreamManager::create_pull_receiver`. -/
def createPullReceiver (m : ReceiverManager) (uuid : String) (s : StreamId)
    (protocol : StreamProtocol) (clientAddr : String) : ReceiverManager × StreamReceiver :=
  m.register ((StreamReceiver.new uuid s .pull protocol).withClientAddr clientAddr)

/-- `StreamManager::create_push_receiver`. -/
def createPushReceiver (m : ReceiverManager) (uuid : String) (s : StreamId)
    (protocol : StreamProtocol) (pushAddr : String) : ReceiverManager × StreamReceiver :=
  m.register ((StreamReceiver.new uuid s .push protocol).withPushAddr pushAddr)

/-- `StreamManager::remove_receiver`. -/
def removeReceiver (m : ReceiverManager) (id : ReceiverId) :
    ReceiverManager × Option StreamReceiver :=
  let (hubs, receiver) := findMapMut (fun h => h.removeReceiver id) m.hubs
  (⟨hubs⟩, receiver)

/-- `StreamManager::get_receiver`. -/
def getReceiver (m : ReceiverManager) (id : ReceiverId) : Option StreamReceiver :=
  findMap (fun h => h.getReceiver id) m.hubs

/-- `StreamManager::list_receivers`. -/
def listReceivers (m : ReceiverManager) : List ReceiverId :=
  flatKeys ReceiverHub.listReceiverIds m.hubs

/-- `StreamManager::set_receiver_status`. -/
def setReceiverStatus (m : ReceiverManager) (id : ReceiverId) (status : ReceiverStatus) :
    ReceiverManager × Except String Unit :=
  let (hubs, oldStatus) := findMapMut (fun h => h.setReceiverStatus id status) m.hubs
  match oldStatus with
  | some _ => (⟨hubs⟩, .ok ())
  | none => (⟨hubs⟩, .error ("Receiver " ++ id ++ " not found"))

variable {m : ReceiverManager} {s k : StreamId} {id i : ReceiverId} {r : StreamReceiver}

/-! ## Views -/

/-- The receiver of a stream under an id. -/
def receiver (m : ReceiverManager) (s : StreamId) (id : ReceiverId) : Option StreamReceiver :=
  (m.getHub s).bind fun h => h.getReceiver id

/-- The hub of a stream, without its receivers. -/
def bareHub (m : ReceiverManager) (s : StreamId) : Option StreamHub :=
  (m.getHub s).map ReceiverHub.toStreamHub

/-- An id is known to one stream at most. -/
def Separate (m : ReceiverManager) : Prop :=
  ∀ s s' id r r', m.receiver s id = some r → m.receiver s' id = some r' → s = s'

theorem receiver_eq_some_iff :
    m.receiver s id = some r ↔ ∃ h, m.hubs.lookup s = some h ∧ h.receivers.lookup id = some r :=
  Option.bind_eq_some_iff

theorem mem_listReceivers_iff : id ∈ m.listReceivers ↔ ∃ s r, m.receiver s id = some r := by
  rw [listReceivers, mem_flatKeys]
  constructor
  · rintro ⟨s, h, hs, hid⟩
    obtain ⟨r, hr⟩ := ReceiverHub.mem_listReceiverIds_iff.mp hid
    exact ⟨s, r, receiver_eq_some_iff.mpr ⟨h, hs, hr⟩⟩
  · rintro ⟨s, r, hr⟩
    obtain ⟨h, hs, hr⟩ := receiver_eq_some_iff.mp hr
    exact ⟨s, h, hs, ReceiverHub.mem_listReceiverIds_iff.mpr ⟨r, hr⟩⟩

/-- An answer that only those hubs have that know the id comes from one hub at most. -/
theorem Separate.of_known (hsep : m.Separate) {p : ReceiverHub → Prop}
    (hp : ∀ h, p h → ∃ r, h.receivers.lookup id = some r) : MapScan.Separate p m.hubs := by
  intro s s' h h' hs hs' hh hh'
  obtain ⟨r, hr⟩ := hp h hh
  obtain ⟨r', hr'⟩ := hp h' hh'
  exact hsep s s' id r r' (receiver_eq_some_iff.mpr ⟨h, hs, hr⟩)
    (receiver_eq_some_iff.mpr ⟨h', hs', hr'⟩)

/-- Ids are listed once. -/
theorem nodup_listReceivers (hsep : m.Separate) : m.listReceivers.Nodup :=
  nodup_flatKeys (fun h => h.receivers.keys_nodup) fun _ => hsep.of_known fun _ =>
    ReceiverHub.mem_listReceiverIds_iff.mp

/-- The search through all hubs finds the receiver. -/
theorem getReceiver_eq_some_iff (hsep : m.Separate) :
    m.getReceiver id = some r ↔ ∃ s, m.receiver s id = some r := by
  have hknown : MapScan.Separate (fun h => (h.getReceiver id).isSome) m.hubs :=
    hsep.of_known fun _ => Option.isSome_iff_exists.mp
  refine (findMap_eq_some_iff hknown).trans ?_
  exact exists_congr fun s => receiver_eq_some_iff.symm

/-! ## Making and removing streams -/

theorem getHub_createStream_of_ne {source : StreamSourceMode} {protocol : StreamProtocol}
    {url : Option String} (h : k ≠ s) :
    (m.createStream s source protocol url).1.getHub k = m.getHub k := by
  rw [createStream]
  split
  · rfl
  · exact AList.lookup_insert_ne h

theorem isSome_getHub_createStream (m : ReceiverManager) (s k : StreamId)
    (source : StreamSourceMode) (protocol : StreamProtocol) (url : Option String) :
    ((m.createStream s source protocol url).1.getHub k).isSome ↔ k = s ∨ (m.getHub k).isSome := by
  by_cases hk : k = s
  · obtain rfl := hk
    refine iff_of_true ?_ (.inl rfl)
    rw [createStream]
    split
    · next h => rw [h]; rfl
    · exact AList.lookup_isSome.mpr ((AList.mem_insert _).mpr (.inl rfl))
  · rw [getHub_createStream_of_ne hk]
    exact (or_iff_right hk).symm

/-- A stream that exists keeps its receivers, and a new one has none. -/
theorem receiver_createStream (m : ReceiverManager) (s k : StreamId) (id : ReceiverId)
    (source : StreamSourceMode) (protocol : StreamProtocol) (url : Option String) :
    (m.createStream s source protocol url).1.receiver k id = m.receiver k id := by
  by_cases hk : k = s
  · obtain rfl := hk
    rw [createStream]
    split
    · rfl
    · next h =>
      -- the new hub has no receivers, as the missing one had none
      rw [receiver, receiver, h, getHub, AList.lookup_insert]
      rfl
  · rw [receiver, getHub_createStream_of_ne hk, receiver]

theorem getHub_removeStream (m : ReceiverManager) (s k : StreamId) :
    (m.removeStream s).1.getHub k = if k = s then none else m.getHub k := by
  by_cases hk : k = s
  · rw [if_pos hk, hk]
    exact AList.lookup_erase _ _
  · rw [if_neg hk]
    exact AList.lookup_erase_ne hk

/-- A stream goes with its receivers. -/
theorem receiver_removeStream (m : ReceiverManager) (s k : StreamId) (id : ReceiverId) :
    (m.removeStream s).1.receiver k id = if k = s then none else m.receiver k id := by
  rw [receiver, getHub_removeStream]
  split <;> rfl

/-! ## Making receivers -/

theorem getHub_register_of_ne (h : k ≠ r.streamId) : (m.register r).1.getHub k = m.getHub k := by
  rw [register]
  split
  · exact AList.lookup_insert_ne h
  · rfl

theorem getHub_register_self (m : ReceiverManager) (r : StreamReceiver) :
    (m.register r).1.getHub r.streamId = (m.getHub r.streamId).map fun h =>
        (h.addReceiver r).1 := by
  rw [register]
  split
  · next h hs =>
    rw [hs]
    exact AList.lookup_insert _
  · next hs => rw [hs, Option.map_none]

/-- A hub stays what it is apart from its receivers. -/
theorem bareHub_register (m : ReceiverManager) (r : StreamReceiver) (k : StreamId) :
    (m.register r).1.bareHub k = m.bareHub k := by
  by_cases hk : k = r.streamId
  · rw [hk, bareHub, getHub_register_self, Option.map_map, bareHub]
    rfl
  · rw [bareHub, getHub_register_of_ne hk, bareHub]

/-- A receiver is registered with its stream, if the stream exists. -/
theorem receiver_register (m : ReceiverManager) (r : StreamReceiver) (k : StreamId)
    (i : ReceiverId) :
    (m.register r).1.receiver k i =
      if k = r.streamId ∧ i = r.id ∧ (m.getHub k).isSome then some r else m.receiver k i := by
  by_cases hk : k = r.streamId
  · rw [hk, receiver, getHub_register_self, receiver]
    cases m.getHub r.streamId with
    | none => simp
    | some h =>
      rw [Option.map_some, Option.bind_some, Option.bind_some]
      by_cases hi : i = r.id
      · rw [if_pos ⟨rfl, hi, rfl⟩, hi]
        exact AList.lookup_insert _
      · rw [if_neg fun h => hi h.2.1]
        exact AList.lookup_insert_ne hi
  · rw [if_neg fun h => hk h.1, receiver, getHub_register_of_ne hk, receiver]

/-! ## Removing and changing receivers -/

/-- A call that goes through all hubs for an id, where one at most knows it, changes what it does to
a hub. -/
theorem getHub_findMapMut {β : Type} {f : ReceiverHub → ReceiverHub × Option β} (hsep : m.Separate)
    (hknown : ∀ h, (f h).2.isSome → ∃ r, h.receivers.lookup id = some r)
    (hsame : ∀ h, (f h).2 = none → (f h).1 = h) (k : StreamId) :
    AList.lookup k (findMapMut f m.hubs).1 = (m.getHub k).map fun h => (f h).1 :=
  lookup_findMapMut (hsep.of_known hknown) hsame k

theorem getHub_removeReceiver (hsep : m.Separate) (id : ReceiverId) (k : StreamId) :
    (m.removeReceiver id).1.getHub k = (m.getHub k).map fun h => (h.removeReceiver id).1 :=
  getHub_findMapMut hsep (fun _ => Option.isSome_iff_exists.mp)
    (fun _ => ReceiverHub.fst_removeReceiver_of_none) k

theorem receiver_removeReceiver (hsep : m.Separate) (id : ReceiverId) (k : StreamId)
    (i : ReceiverId) :
    (m.removeReceiver id).1.receiver k i = if i = id then none else m.receiver k i := by
  rw [receiver, getHub_removeReceiver hsep, receiver]
  cases m.getHub k with
  | none => rw [Option.map_none, Option.bind_none, ite_self]
  | some h =>
    rw [Option.map_some, Option.bind_some, Option.bind_some]
    by_cases hi : i = id
    · rw [if_pos hi, hi]
      exact AList.lookup_erase _ _
    · rw [if_neg hi]
      exact AList.lookup_erase_ne hi

theorem getHub_setReceiverStatus (hsep : m.Separate) (id : ReceiverId) (status : ReceiverStatus)
    (k : StreamId) :
    (m.setReceiverStatus id status).1.getHub k = (m.getHub k).map fun h =>
        (h.setReceiverStatus id status).1 := by
  rw [← getHub_findMapMut hsep (fun _ => ReceiverHub.known_of_setReceiverStatus)
    (fun _ => ReceiverHub.fst_setReceiverStatus_of_none) k, setReceiverStatus]
  dsimp only
  split <;> rfl

theorem receiver_setReceiverStatus (hsep : m.Separate) (id : ReceiverId) (status : ReceiverStatus)
    (k : StreamId) (i : ReceiverId) :
    (m.setReceiverStatus id status).1.receiver k i =
      if i = id then (m.receiver k i).map fun r => { r with status } else m.receiver k i := by
  rw [receiver, getHub_setReceiverStatus hsep, receiver]
  cases m.getHub k with
  | none => rw [Option.map_none, Option.bind_none, Option.map_none, ite_self]
  | some h =>
    rw [Option.map_some, Option.bind_some, Option.bind_some]
    exact h.getReceiver_setReceiverStatus id i status

theorem bareHub_removeReceiver (hsep : m.Separate) (id : ReceiverId) (k : StreamId) :
    (m.removeReceiver id).1.bareHub k = m.bareHub k := by
  rw [bareHub, getHub_removeReceiver hsep, Option.map_map, bareHub]
  rfl

theorem bareHub_setReceiverStatus (hsep : m.Separate) (id : ReceiverId) (status : ReceiverStatus)
    (k : StreamId) :
    (m.setReceiverStatus id status).1.bareHub k = m.bareHub k := by
  rw [bareHub, getHub_setReceiverStatus hsep, Option.map_map, bareHub]
  congr 1
  funext h
  exact h.toStreamHub_setReceiverStatus id status

/-! ## Without the receivers -/

/-- Without the receivers, the manager is another. -/
def Extends (m : ReceiverManager) (sm : StreamManager) : Prop := ∀ k, m.bareHub k = sm.getHub k

variable {sm : StreamManager}

theorem extends_new : new.Extends StreamManager.new := fun _ => rfl

theorem Extends.createStream (h : m.Extends sm) (s : StreamId) (source : StreamSourceMode)
    (protocol : StreamProtocol) (url : Option String) :
    (m.createStream s source protocol url).1.Extends (sm.createStream s source protocol url).1 ∧
      (m.createStream s source protocol url).2 = (sm.createStream s source protocol url).2 := by
  have hs := h s
  rw [ReceiverManager.createStream, StreamManager.createStream]
  rw [bareHub] at hs
  cases hm : m.getHub s with
  | some hub =>
    rw [hm, Option.map_some] at hs
    rw [← hs]
    exact ⟨h, rfl⟩
  | none =>
    rw [hm, Option.map_none] at hs
    rw [← hs]
    refine ⟨fun k => ?_, rfl⟩
    by_cases hk : k = s
    · rw [hk, bareHub, getHub, AList.lookup_insert, StreamManager.getHub, AList.lookup_insert]
      rfl
    · rw [bareHub, getHub, AList.lookup_insert_ne hk, StreamManager.getHub,
        AList.lookup_insert_ne hk]
      exact h k

theorem Extends.removeStream (h : m.Extends sm) (s : StreamId) :
    (m.removeStream s).1.Extends (sm.removeStream s).1 ∧ (m.removeStream s).2 =
        (sm.removeStream s).2 := by
  refine ⟨fun k => ?_, ?_⟩
  · rw [bareHub, getHub_removeStream, StreamManager.getHub_removeStream, ← h k]
    split <;> rfl
  · rw [ReceiverManager.removeStream, StreamManager.removeStream, ← h s, bareHub, Option.map_map]
    rfl

/-- A call on receivers changes nothing then. -/
theorem Extends.congr {m' : ReceiverManager} (h : m.Extends sm)
    (hbare : ∀ k, m'.bareHub k = m.bareHub k) :
    m'.Extends sm := fun k => (hbare k).trans (h k)

end ReceiverManager

end VcpMediaServer
