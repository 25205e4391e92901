import VcpMediaServer.Lts
import VcpMediaServer.WebrtcSession

/-!
# Keyframe requests

`webrtc/publish_signaling.rs` and the WebRTC sessions that call it: a registry with **one entry for
a stream**, which says on what channels its publisher is asked for a keyframe. A session puts its
own channel into the entry when its publication is ready, each of its video tracks puts the peer
connection in, and the end of a publication takes the entry away, **whosever** it is.

* `registerPublishSignaling`, `registerPublishPli`, `unregisterPublishSignaling`,
  `requestPublisherKeyframe` — the registry.
* `Signaling.step` — sessions, tracks, viewers and other parties, one step of one of them at a time.
* `Signaling.Reaches` — a request for a stream gets to the session that holds its slot, and to no
  other one.
* `keyframe_requests_iff` — the runs in which every step keeps that.
-/

namespace VcpMediaServer

open Lts Ownership StreamManager

/-! ## The registry -/

/-- `Entry`. A session stands for its signaling channel, a peer connection for the channel of the
task that sends PLI packets on it. -/
structure KeyframeEntry where
  /-- The session that is asked. -/
  tx : Option ℕ
  /-- The peer connection that is to send a PLI. -/
  pliTx : Option ℕ
  /-- The number of the last request. -/
  lastRequest : Option ℕ
  deriving DecidableEq, Repr

/-- `map`. -/
abbrev KeyframeEntries := StreamId → Option KeyframeEntry

/-- What a request comes to. -/
structure KeyframeRequest where
  /-- The peer connection that was told to send a PLI. -/
  pli : Option ℕ
  /-- The session that `need_keyframe` was sent to. -/
  signaling : Option ℕ
  /-- The result of the call. -/
  requested : Bool
  deriving DecidableEq, Repr

namespace KeyframeEntries

/-- The entry of a stream, an empty one if there is none. -/
def entry (entries : KeyframeEntries) (s : StreamId) : KeyframeEntry :=
  (entries s).getD ⟨none, none, none⟩

/-- `register_publish_signaling`. -/
def registerPublishSignaling (entries : KeyframeEntries) (s : StreamId) (session : ℕ) :
    KeyframeEntries :=
  Function.update entries s (some { entries.entry s with tx := some session })

/-- `register_publish_pli`. The task it spawns lives as long as its channel is in an entry. -/
def registerPublishPli (entries : KeyframeEntries) (s : StreamId) (pc : ℕ) : KeyframeEntries :=
  Function.update entries s (some { entries.entry s with pliTx := some pc })

/-- `unregister_publish_signaling`. -/
def unregisterPublishSignaling (entries : KeyframeEntries) (s : StreamId) : KeyframeEntries :=
  Function.update entries s none

/-- `request_publisher_keyframe`. A session receives as long as it is open. -/
def requestPublisherKeyframe (entries : KeyframeEntries) (isOpen : ℕ → Bool) (requestId : ℕ)
    (s : StreamId) :
    KeyframeEntries × KeyframeRequest :=
  let entry := entries.entry s
  let signaling := entry.tx.filter isOpen
  (Function.update entries s (some { entry with lastRequest := some requestId }),
    { pli := entry.pliTx, signaling, requested := entry.pliTx.isSome || signaling.isSome })

variable {entries : KeyframeEntries} {s t : StreamId} {k : ℕ}

theorem entry_update (entry : Option KeyframeEntry) :
    KeyframeEntries.entry (Function.update entries s entry) t =
      if t = s then entry.getD ⟨none, none, none⟩ else entries.entry t := by
  rw [KeyframeEntries.entry, Function.update_apply]
  split <;> rfl

@[simp] theorem entry_registerPublishSignaling : (entries.registerPublishSignaling s k).entry t =
    if t = s then { entries.entry s with tx := some k } else entries.entry t := entry_update _

@[simp] theorem entry_registerPublishPli : (entries.registerPublishPli s k).entry t =
    if t = s then { entries.entry s with pliTx := some k } else entries.entry t := entry_update _

@[simp] theorem entry_unregisterPublishSignaling : (entries.unregisterPublishSignaling s).entry t =
    if t = s then ⟨none, none, none⟩ else entries.entry t := entry_update _

/-- A request leaves the channels where they are. -/
theorem channels_requestPublisherKeyframe (entries : KeyframeEntries) (isOpen : ℕ → Bool)
    (requestId : ℕ) (s t : StreamId) :
    ((entries.requestPublisherKeyframe isOpen requestId s).1.entry t).tx = (entries.entry t).tx ∧
      ((entries.requestPublisherKeyframe isOpen requestId s).1.entry t).pliTx =
          (entries.entry t).pliTx := by
  rw [requestPublisherKeyframe, entry_update]
  split
  · next heq => exact heq ▸ ⟨rfl, rfl⟩
  · exact ⟨rfl, rfl⟩

end KeyframeEntries

/-! ## The sessions -/

/-- A publication that is registered. -/
structure Publication where
  /-- The stream. -/
  streamId : StreamId
  /-- The id it is published under. -/
  publisherId : String
  /-- Its peer connection. -/
  peer : ℕ
  deriving DecidableEq, Repr

/-- What a session reads when it may have to clean up. -/
inductive SessionSignal where
  /-- A `Publish` signal; the number is for its publisher id. -/
  | publish (s : StreamId) (number : UInt64)
  /-- A `StopPublish` signal. -/
  | stopPublish (s : StreamId)
  /-- The end of the WebSocket. -/
  | disconnect
  deriving DecidableEq, Repr

/-- Where a session is. -/
inductive SignalPhase where
  /-- It reads the next signal. -/
  | reading
  /-- It has taken an entry away, for a signal that it goes on with. -/
  | cleaning (signal : SessionSignal)
  /-- The peer connection is being made. -/
  | connecting (s : StreamId) (p : String)
  /-- The slot is taken, and the descriptions are being set. -/
  | negotiating (publication : Publication)
  /-- The publication is ready, and about to be registered. -/
  | registering (publication : Publication)
  | closed
  deriving DecidableEq, Repr

/-- The id that a peer connection is being made for. -/
def SignalPhase.draws : SignalPhase → Option String
  | .connecting _ p => some p
  | _ => none

/-- The publication that is about to be registered. -/
def SignalPhase.registers : SignalPhase → Option Publication
  | .registering publication => some publication
  | _ => none

/-- A session. -/
structure SignalSession where
  /-- Its state. -/
  state : Webrtc.SessionState
  /-- Where it is. -/
  phase : SignalPhase
  /-- What it has registered, and not taken away again. -/
  publications : List Publication
  deriving DecidableEq, Repr

/-- A publishing peer connection. -/
structure PublishPeer where
  /-- The stream. -/
  streamId : StreamId
  /-- A video track has come. -/
  video : Bool
  deriving DecidableEq, Repr

/-- The sessions, the registry and the streams. -/
structure Signaling where
  /-- The streams. -/
  manager : StreamManager
  /-- The registry. -/
  entries : KeyframeEntries
  /-- The sessions, in the order of their connections. -/
  sessions : List SignalSession
  /-- The publishing peer connections, in the order of their making. -/
  peers : List PublishPeer
  /-- `REQUEST_ID`. -/
  requestId : ℕ

/-- What happens in a session. -/
inductive SessionEvent where
  /-- A signal is read that may begin with a cleanup, and an entry taken away if it does. -/
  | signal (signal : SessionSignal)
  /-- The rest of the cleanup: the slot is given back. -/
  | release
  /-- The peer connection is made, or cannot be. -/
  | peerConnection (offer : Option Webrtc.PublishOffer)
  /-- Both descriptions are set, or one cannot be. -/
  | answer (ok : Bool)
  /-- The publication is registered. -/
  | register
  /-- A `Play` signal is read; `ok` says how its peer connection turns out. -/
  | play (s : StreamId) (ok : Bool)
  /-- A `StopPlay` signal is read. -/
  | stopPlay
  deriving DecidableEq, Repr

/-- What happens. -/
inductive SignalingEvent where
  /-- Another party, or the task of a track, calls the manager. -/
  | other (op : ManagerOp)
  /-- A WebSocket is accepted. -/
  | accept
  /-- A session goes on. -/
  | session (k : ℕ) (event : SessionEvent)
  /-- A peer connection has a video track. -/
  | track (peer : ℕ)
  /-- A viewer, or whoever reads the stream, asks for a keyframe. -/
  | request (s : StreamId)
  deriving DecidableEq, Repr

namespace SignalSession

/-- A session that was just accepted. -/
def new : SignalSession := ⟨.new, .reading, []⟩

/-- The stream whose entry is taken away for a signal. -/
def cleans (session : SignalSession) : SessionSignal → Option StreamId
  | .publish s _ =>
    if session.state.hasPublish then some (session.state.publishStreamId.getD s) else none
  | .stopPublish s => some s
  | .disconnect =>
    if session.state.hasPublish then some (session.state.publishStreamId.getD "unknown") else none

/-- The publications that are registered, and the one that is on its way. -/
def all (session : SignalSession) : List Publication :=
  match session.phase with
  | .negotiating publication => publication :: session.publications
  | .registering publication => publication :: session.publications
  | _ => session.publications

end SignalSession

namespace Signaling

/-- Nothing has happened yet. -/
def start (m : StreamManager) : Signaling := ⟨m, fun _ => none, [], [], 1⟩

/-- The session is there, and its channel is received from. -/
def isOpen (x : Signaling) (k : ℕ) : Bool :=
  (x.sessions[k]?).any fun session => session.phase ≠ .closed

/-- A request for a keyframe. -/
def requestKeyframe (x : Signaling) (s : StreamId) : Signaling × KeyframeRequest :=
  let (entries, request) := x.entries.requestPublisherKeyframe x.isOpen x.requestId s
  ({ x with entries, requestId := x.requestId + 1 }, request)

/-- A session goes on, and the streams with it. -/
def put (x : Signaling) (k : ℕ) (session : SignalSession) (manager : StreamManager) : Signaling :=
  { x with manager, sessions := x.sessions.set k session }

/-- What a signal does behind the registry: the rest of `cleanup_publish_session`, if there is a
publication, and what comes after it. -/
def release (x : Signaling) (k : ℕ) (session : SignalSession) : SessionSignal → Signaling
  | .publish s number =>
    let (manager, state) := Webrtc.publish x.manager session.state s
    x.put k { session with state, phase := .connecting s (Webrtc.webrtcPublisherId s number) }
      manager
  | .stopPublish s =>
    let (manager, state) := Webrtc.stopPublish x.manager session.state s
    x.put k { session with state, phase := .reading } manager
  | .disconnect =>
    let (manager, state) := Webrtc.cleanupSession x.manager session.state
    x.put k { session with state, phase := .closed } manager

/-- A signal is read. A cleanup begins with the registry. -/
def signal (x : Signaling) (k : ℕ) (session : SignalSession) (signal : SessionSignal) : Signaling :=
  match session.cleans signal with
  | some s =>
    { x with entries := x.entries.unregisterPublishSignaling s }.put k
      { session with
        phase := .cleaning signal
        publications := session.publications.filter fun publication =>
          publication.streamId ≠ s } x.manager
  | none => x.release k session signal

/-- The peer connection of a `Publish` signal is made. -/
def connect (x : Signaling) (k : ℕ) (session : SignalSession) (s : StreamId) (p : String)
    (offer : Webrtc.PublishOffer) : Signaling :=
  match Webrtc.openPublish x.manager s p offer with
  | (manager, .ok ()) =>
    { x with peers := x.peers ++ [PublishPeer.mk s false] }.put k
      { session with phase := .negotiating ⟨s, p, x.peers.length⟩ } manager
  | (manager, .error _) => x.put k { session with phase := .reading } manager

/-- The end of `start_publish`. The state is written with it: the session reads nothing before the
publication is registered. -/
def answer (x : Signaling) (k : ℕ) (session : SignalSession) (publication : Publication)
    (ok : Bool) : Signaling :=
  let (manager, state) :=
    Webrtc.closePublish x.manager session.state publication.streamId publication.publisherId ok
  x.put k { session with state, phase := if ok then .registering publication else .reading } manager

/-- The publication is registered. -/
def register (x : Signaling) (k : ℕ) (session : SignalSession) (publication : Publication) :
    Signaling :=
  { x with entries := x.entries.registerPublishSignaling publication.streamId k }.put k
    { session with phase := .reading, publications := publication :: session.publications }
      x.manager

/-- One event of a session; `none` if it cannot happen. -/
def onSession (x : Signaling) (k : ℕ) (session : SignalSession) : SessionEvent → Option Signaling
  | .signal signal => if session.phase = .reading then some (x.signal k session signal) else none
  | .release =>
    match session.phase with
    | .cleaning signal => some (x.release k session signal)
    | _ => none
  | .peerConnection offer =>
    match session.phase, offer with
    | .connecting _ _, none => some (x.put k { session with phase := .reading } x.manager)
    | .connecting s p, some offer => some (x.connect k session s p offer)
    | _, _ => none
  | .answer ok =>
    match session.phase with
    | .negotiating publication => some (x.answer k session publication ok)
    | _ => none
  | .register =>
    match session.phase with
    | .registering publication => some (x.register k session publication)
    | _ => none
  | .play s ok =>
    if session.phase = .reading then
      let state := (Webrtc.play x.manager session.state s ok).1
      some ((x.requestKeyframe s).1.put k { session with state } x.manager)
    else none
  | .stopPlay =>
    if session.phase = .reading then
      some (x.put k { session with state := session.state.stopPlaySession } x.manager)
    else none

/-- A video track of a peer connection. -/
def track (x : Signaling) (q : ℕ) (s : StreamId) : Signaling :=
  { x with
    entries := x.entries.registerPublishPli s q
    peers := x.peers.modify q fun peer => { peer with video := true } }

/-- One event; `none` if it cannot happen, or the push of a frame never returns. -/
def step (x : Signaling) : SignalingEvent → Option Signaling
  | .other op => (op.apply x.manager).map fun manager => { x with manager }
  | .accept => some { x with sessions := x.sessions ++ [.new] }
  | .session k event => (x.sessions[k]?).bind fun session => x.onSession k session event
  | .track q => (x.peers[q]?).map fun peer => x.track q peer.streamId
  | .request s => some (x.requestKeyframe s).1

/-! ## Requests reach the owner -/

/-- The open sessions that own the slot of a stream and have registered themselves for it, each with
its publication. -/
def owners (x : Signaling) (s : StreamId) : List (ℕ × Publication) :=
  x.sessions.zipIdx.flatMap fun (session, k) =>
    if session.phase = .closed then []
    else (session.publications.filter fun publication =>
      publication.streamId = s ∧ Holds x.manager.slots s publication.publisherId).map (k, ·)

/-- The channel for PLI packets on a peer connection: there is one as soon as there is a video
track. -/
def pli (x : Signaling) (q : ℕ) : Option ℕ := ((x.peers[q]?).filter PublishPeer.video).map fun _ =>
    q

/-- A request for the stream is sent on the channels of the owner, and **on no others**. -/
def Reached (x : Signaling) (s : StreamId) (owner : ℕ × Publication) : Prop :=
  (x.requestKeyframe s).2.signaling = some owner.1 ∧
    (x.requestKeyframe s).2.pli = x.pli owner.2.peer

instance (x : Signaling) (s : StreamId) (owner : ℕ × Publication) : Decidable (x.Reached s owner) :=
  inferInstanceAs (Decidable (_ ∧ _))

/-- Keyframe requests reach the publisher. -/
def Reaches (x : Signaling) : Prop := ∀ s, ∀ owner ∈ x.owners s, x.Reached s owner

/-- They do so after the event. -/
def KeepsReach (x : Signaling) (e : SignalingEvent) : Prop := ∀ x', x.step e = some x' → x'.Reaches

/-- The streams that the session has no rival for. -/
def OnlyOwner (x : Signaling) (k : ℕ) (s : StreamId) : Prop := ∀ owner ∈ x.owners s, owner.1 = k

instance (x : Signaling) (k : ℕ) (s : StreamId) : Decidable (x.OnlyOwner k s) :=
  inferInstanceAs (Decidable (∀ owner ∈ x.owners s, owner.1 = k))

/-- What a session does to the registry is nobody else's matter. A signal takes away the entry of a
stream that no other session owns; a session that registers itself has no rival either, and if it
still has the slot, it finds no peer connection in the entry but its own. -/
def SessionClean (x : Signaling) (k : ℕ) (session : SignalSession) : SessionEvent → Prop
  | .signal signal => session.phase = .reading → ∀ s ∈ session.cleans signal, x.OnlyOwner k s
  | .register => ∀ publication ∈ session.phase.registers,
      x.OnlyOwner k publication.streamId ∧
        (Holds x.manager.slots publication.streamId publication.publisherId →
          (x.entries.entry publication.streamId).pliTx = x.pli publication.peer)
  | _ => True

instance (x : Signaling) (k : ℕ) (session : SignalSession) :
    ∀ event, Decidable (x.SessionClean k session event)
  | .signal signal =>
    inferInstanceAs
      (Decidable (session.phase = .reading → ∀ s ∈ session.cleans signal, x.OnlyOwner k s))
  | .register => inferInstanceAs (Decidable (∀ publication ∈ session.phase.registers, _ ∧ (_ → _)))
  | .release | .peerConnection _ | .answer _ | .play _ _ | .stopPlay => isTrue trivial

/-- The condition. A video track comes only for a stream whose owner has its peer connection, if
there is an owner. -/
def Clean (x : Signaling) : SignalingEvent → Prop
  | .session k event => ∀ session ∈ x.sessions[k]?, x.SessionClean k session event
  | .track q => ∀ peer ∈ x.peers[q]?, ∀ owner ∈ x.owners peer.streamId, owner.2.peer = q
  | _ => True

instance (x : Signaling) : ∀ e, Decidable (x.Clean e)
  | .session k event =>
    inferInstanceAs (Decidable (∀ session ∈ x.sessions[k]?, x.SessionClean k session event))
  | .track q =>
    inferInstanceAs
      (Decidable (∀ peer ∈ x.peers[q]?, ∀ owner ∈ x.owners peer.streamId, owner.2.peer = q))
  | .other _ | .accept | .request _ => isTrue trivial

/-- A publication under the id is registered. -/
def Publishes (x : Signaling) (p : String) : Prop :=
  ∃ session ∈ x.sessions, ∃ publication ∈ session.publications, publication.publisherId = p

instance (x : Signaling) (p : String) : Decidable (x.Publishes p) :=
  inferInstanceAs (Decidable (∃ session ∈ x.sessions, ∃ publication ∈ session.publications, _))

/-- The publisher ids are **drawn apart**: nobody else acts under the id of a publication, and no
session draws it again. -/
def Fresh (x : Signaling) : SignalingEvent → Prop
  | .other op => ∀ p ∈ op.publisherId, ¬ x.Publishes p
  | .session k (.peerConnection _) => ∀ session ∈ x.sessions[k]?, ∀ p ∈ session.phase.draws,
    ¬ x.Publishes p
  | _ => True

instance (x : Signaling) : ∀ e, Decidable (x.Fresh e)
  | .other op => inferInstanceAs (Decidable (∀ p ∈ op.publisherId, ¬ x.Publishes p))
  | .session k (.peerConnection _) =>
    inferInstanceAs
      (Decidable (∀ session ∈ x.sessions[k]?, ∀ p ∈ session.phase.draws, ¬ x.Publishes p))
  | .session _ (.signal _) | .session _ .release | .session _ (.answer _) | .session _ .register
  | .session _ (.play _ _) | .session _ .stopPlay | .accept | .track _ | .request _ =>
    isTrue trivial

/-! ## The owners -/

variable {x x' : Signaling} {k j q : ℕ} {s t : StreamId} {session session' : SignalSession}
  {publication : Publication} {video : Bool} {m : StreamManager}

theorem mem_owners : (k, publication) ∈ x.owners s ↔
    ∃ session, x.sessions[k]? = some session ∧ session.phase ≠ .closed ∧
      publication ∈ session.publications ∧
      publication.streamId = s ∧ Holds x.manager.slots s publication.publisherId := by
  rw [owners, List.mem_flatMap]
  constructor
  · rintro ⟨⟨session, i⟩, hmem, h⟩
    have hi := List.mem_zipIdx_iff_getElem?.mp hmem
    dsimp only at h hi
    split_ifs at h with hphase
    · cases h
    · obtain ⟨pub, hpub, heq⟩ := List.mem_map.mp h
      obtain ⟨rfl, rfl⟩ := Prod.mk.inj heq
      obtain ⟨hpub, hholds⟩ := List.mem_filter.mp hpub
      exact ⟨session, hi, hphase, hpub, of_decide_eq_true hholds⟩
  · rintro ⟨session, hsession, hphase, hpub, hholds⟩
    refine ⟨(session, k), List.mem_zipIdx_iff_getElem?.mpr hsession, ?_⟩
    dsimp only
    rw [if_neg hphase]
    exact List.mem_map_of_mem (List.mem_filter.mpr ⟨hpub, decide_eq_true hholds⟩)

/-- A request for a stream is sent on the channels of its entry, if the session there is open. -/
theorem reached_iff (h : (k, publication) ∈ x.owners s) : x.Reached s (k, publication) ↔
    (x.entries.entry s).tx = some k ∧ (x.entries.entry s).pliTx = x.pli publication.peer := by
  obtain ⟨session, hsession, hphase, -⟩ := mem_owners.mp h
  have hopen : x.isOpen k = true := by
    rw [isOpen, hsession]
    exact decide_eq_true hphase
  have hsignaling : (x.requestKeyframe s).2.signaling = (x.entries.entry s).tx.filter x.isOpen :=
    rfl
  have htx : (x.entries.entry s).tx.filter x.isOpen = some k ↔ (x.entries.entry s).tx = some k := by
    rw [Option.filter_eq_some_iff]
    exact and_iff_left hopen
  rw [Reached, hsignaling, htx]
  exact Iff.rfl

/-- The publication has a peer connection for its stream. -/
def HasPeer (x : Signaling) (publication : Publication) : Prop :=
  ∃ video, x.peers[publication.peer]? = some ⟨publication.streamId, video⟩

/-- What is kept: the entries serve the owners, and publications have their peer connections. -/
structure Inv (x : Signaling) : Prop where
  serves : ∀ s k publication, (k, publication) ∈ x.owners s →
    (x.entries.entry s).tx = some k ∧ (x.entries.entry s).pliTx = x.pli publication.peer
  peers : ∀ session ∈ x.sessions, ∀ publication ∈ session.all, x.HasPeer publication

theorem inv_iff : x.Inv ↔ x.Reaches ∧ ∀ session ∈ x.sessions, ∀ publication ∈ session.all,
    x.HasPeer publication := by
  constructor
  · exact fun h => ⟨fun s owner hmem => (reached_iff hmem).mpr (h.serves s _ _ hmem), h.peers⟩
  · exact fun h => ⟨fun s k publication hmem => (reached_iff hmem).mp (h.1 s _ hmem), h.2⟩

theorem inv_start (m : StreamManager) : (start m).Inv where
  serves s k publication h := by
    obtain ⟨session, hsession, -⟩ := mem_owners.mp h
    simp [start] at hsession
  peers session h := absurd h List.not_mem_nil

/-! ## What a step keeps -/

theorem publications_subset_all (session : SignalSession) {publication : Publication}
    (h : publication ∈ session.publications) : publication ∈ session.all := by
  rw [SignalSession.all]
  split
  · exact List.mem_cons_of_mem _ h
  · exact List.mem_cons_of_mem _ h
  · exact h

/-- A session that goes on owns what it owned, or less. -/
theorem mem_owners_put (hsession : x.sessions[k]? = some session) (hphase : session.phase ≠ .closed)
    (hpublications : ∀ publication ∈ session'.publications, publication ∈ session.publications)
    (hslots : ∀ s p, x.Publishes p → Holds m.slots s p → Holds x.manager.slots s p)
    (h : (j, publication) ∈ (x.put k session' m).owners s) :
    (j, publication) ∈ x.owners s ∧ (j = k → publication ∈ session'.publications) := by
  obtain ⟨found, hfound, hopen, hmem, hstream, hholds⟩ := mem_owners.mp h
  replace hfound : (x.sessions.set k session')[j]? = some found := hfound
  rw [List.getElem?_set] at hfound
  split_ifs at hfound with hj
  · obtain rfl := Option.some.inj hfound
    subst hj
    have hold := hpublications publication hmem
    have hpublishes : x.Publishes publication.publisherId :=
      ⟨session, List.mem_of_getElem? hsession, publication, hold, rfl⟩
    exact ⟨mem_owners.mpr ⟨session, hsession, hphase, hold, hstream, hslots s _ hpublishes hholds⟩,
      fun _ => hmem⟩
  · have hpublishes : x.Publishes publication.publisherId :=
      ⟨found, List.mem_of_getElem? hfound, publication, hmem, rfl⟩
    exact ⟨mem_owners.mpr ⟨found, hfound, hopen, hmem, hstream, hslots s _ hpublishes hholds⟩,
      fun heq => absurd heq.symm hj⟩

/-- A session goes on without the registry. -/
theorem Inv.put (h : x.Inv) (hsession : x.sessions[k]? = some session)
    (hphase : session.phase ≠ .closed)
    (hpublications : ∀ publication ∈ session'.publications, publication ∈ session.publications)
    (hpeers : ∀ publication ∈ session'.all, x.HasPeer publication)
    (hslots : ∀ s p, x.Publishes p → Holds m.slots s p → Holds x.manager.slots s p) :
    (x.put k session' m).Inv where
  serves s j publication hmem :=
    h.serves s j publication (mem_owners_put hsession hphase hpublications hslots hmem).1
  peers found hfound := by
    rcases List.mem_or_eq_of_mem_set hfound with hfound | rfl
    · exact h.peers found hfound
    · exact hpeers

/-- An entry that nobody needs is taken away. -/
theorem Inv.unregister (h : x.Inv) (hnone : ∀ owner, owner ∉ x.owners s) :
    Inv { x with entries := x.entries.unregisterPublishSignaling s } where
  serves t k publication hmem := by
    rw [KeyframeEntries.entry_unregisterPublishSignaling, if_neg]
    · exact h.serves t k publication hmem
    · rintro rfl
      exact hnone _ hmem
  peers := h.peers

/-- The rest of a cleanup takes the session on without a new publication, and gives no slot to
anybody. -/
theorem Inv.release (h : x.Inv) (hsession : x.sessions[k]? = some session)
    (hphase : session.phase ≠ .closed) (signal : SessionSignal) :
    (x.release k session signal).Inv := by
  have hpeers := h.peers session (List.mem_of_getElem? hsession)
  have hpublications := fun publication hmem =>
    hpeers publication (publications_subset_all session hmem)
  cases signal with
  | publish s number =>
    have hacts : Acts (fun _ => true = true) none none x.manager.slots
        (Webrtc.publish x.manager session.state s).1.slots := Webrtc.acts_publish s fun _ _ => rfl
    exact h.put hsession hphase (fun _ => id) hpublications fun _ _ _ => hacts.holds
  | stopPublish s =>
    have hacts : Acts (fun _ => true = true) none none x.manager.slots
        (Webrtc.stopPublish x.manager session.state s).1.slots :=
          Webrtc.acts_stopPublish s fun _ _ => rfl
    exact h.put hsession hphase (fun _ => id) hpublications fun _ _ _ => hacts.holds
  | disconnect =>
    have hacts : Acts (fun _ => true = true) none none x.manager.slots
        (Webrtc.cleanupSession x.manager session.state).1.slots :=
          Webrtc.acts_cleanupSession fun _ _ => rfl
    exact h.put hsession hphase (fun _ => id) hpublications fun _ _ _ => hacts.holds

/-- A signal is read, which takes away an entry that no other session needs. -/
theorem Inv.signal (h : x.Inv) (hsession : x.sessions[k]? = some session)
    (hphase : session.phase ≠ .closed) {signal : SessionSignal}
    (hclean : ∀ s ∈ session.cleans signal, x.OnlyOwner k s) :
    (x.signal k session signal).Inv := by
  rw [Signaling.signal]
  split
  · next s hs =>
    have hpublications :
      ∀ publication ∈ session.publications.filter (fun publication => publication.streamId ≠ s),
        publication ∈ session.publications := fun _ => List.mem_of_mem_filter
    refine Inv.unregister
      (h.put hsession hphase hpublications (fun publication hmem => ?_) fun _ _ _ => id) ?_
    · exact h.peers session (List.mem_of_getElem? hsession) _
        (publications_subset_all session (hpublications publication hmem))
    · rintro ⟨j, publication⟩ hmem
      obtain ⟨hold, hown⟩ := mem_owners_put hsession hphase hpublications (fun _ _ _ => id) hmem
      have hstream := (List.mem_filter.mp (hown (hclean s hs _ hold))).2
      obtain ⟨-, -, -, -, rfl, -⟩ := mem_owners.mp hold
      exact of_decide_eq_true hstream rfl
  · exact h.release hsession hphase signal

/-- Making a peer connection takes a slot under an id that no publication has. -/
theorem Inv.connect (h : x.Inv) (hsession : x.sessions[k]? = some session)
    (hphase : session.phase ≠ .closed) {s : StreamId} {p : String} (hfresh : ¬ x.Publishes p)
    (offer : Webrtc.PublishOffer) :
    (x.connect k session s p offer).Inv := by
  have hacts : Acts (fun q => (q == p) = true) (some s) (some s) x.manager.slots
      (Webrtc.openPublish x.manager s p offer).1.slots :=
        Webrtc.acts_openPublish (by exact beq_self_eq_true p) offer
  rw [Signaling.connect]
  generalize Webrtc.openPublish x.manager s p offer = opened at hacts
  obtain ⟨manager, result⟩ := opened
  have hslots : ∀ t q, x.Publishes q → Holds manager.slots t q → Holds x.manager.slots t q := by
    intro t q hq hholds
    refine (hacts.gains t q hholds).resolve_right fun hgained => hfresh ?_
    exact eq_of_beq hgained.1 ▸ hq
  have hpeers := fun publication hmem =>
    h.peers session (List.mem_of_getElem? hsession) publication
      (publications_subset_all session hmem)
  rcases result with e | ⟨⟨⟩⟩
  · exact h.put hsession hphase (fun _ => id) hpeers hslots
  · have hnew : ∀ publication, x.HasPeer publication →
        HasPeer { x with peers := x.peers ++ [PublishPeer.mk s false] } publication := by
      rintro publication ⟨video, hpeer⟩
      exact ⟨video, (List.getElem?_append_left (List.getElem?_eq_some_iff.mp hpeer).1).trans hpeer⟩
    have hadded : Inv { x with peers := x.peers ++ [PublishPeer.mk s false] } := by
      refine ⟨fun t j publication hmem => ?_, fun found hfound publication hmem => ?_⟩
      · obtain ⟨found, hfound, -, hpublication, -⟩ := mem_owners.mp hmem
        obtain ⟨video, hpeer⟩ := h.peers found (List.mem_of_getElem? hfound) publication
          (publications_subset_all found hpublication)
        have hpli : pli { x with peers := x.peers ++ [PublishPeer.mk s false] } publication.peer =
            x.pli publication.peer := by
          rw [pli, pli, List.getElem?_append_left (List.getElem?_eq_some_iff.mp hpeer).1]
        rw [hpli]
        exact h.serves t j publication hmem
      · exact hnew publication (h.peers found hfound publication hmem)
    refine hadded.put hsession hphase (fun _ => id) (fun publication hmem => ?_) hslots
    rcases List.mem_cons.mp hmem with rfl | hmem
    · exact ⟨false, List.getElem?_concat_length⟩
    · exact hnew publication (hpeers publication hmem)

/-- The end of `start_publish` gives no slot to anybody. -/
theorem Inv.answer (h : x.Inv) (hsession : x.sessions[k]? = some session)
    (hphase : session.phase = .negotiating publication) (ok : Bool) :
    (x.answer k session publication ok).Inv := by
  have hopen : session.phase ≠ .closed := by
    rw [hphase]
    exact SignalPhase.noConfusion
  have hpeers := h.peers session (List.mem_of_getElem? hsession)
  have hacts : Acts (fun _ => true = true) none none x.manager.slots
    (Webrtc.closePublish x.manager session.state
      publication.streamId publication.publisherId ok).1.slots := Webrtc.acts_closePublish ok rfl
  have hall : session.all = publication :: session.publications := by
    rw [SignalSession.all, hphase]
  rw [hall] at hpeers
  refine h.put hsession hopen (fun _ => id) (fun pub hmem => ?_) fun _ _ _ => hacts.holds
  cases ok with
  | false => exact hpeers pub (List.mem_cons_of_mem _ hmem)
  | true => exact hpeers pub hmem

/-- A request changes no channel. -/
theorem Inv.requestKeyframe (h : x.Inv) (s : StreamId) : (x.requestKeyframe s).1.Inv where
  serves t k publication hmem := by
    obtain ⟨htx, hpli⟩ := x.entries.channels_requestPublisherKeyframe x.isOpen x.requestId s t
    obtain ⟨htx', hpli'⟩ := h.serves t k publication hmem
    exact ⟨htx.trans htx', hpli.trans hpli'⟩
  peers := h.peers

/-- Who owns a stream behind a registration: the one that registers itself, or an owner from before.
-/
theorem mem_owners_register (hsession : x.sessions[k]? = some session)
    (hphase : session.phase ≠ .closed) {owner : Publication}
    (h : (j, owner) ∈ (x.register k session publication).owners s) :
    (j, owner) ∈ x.owners s ∨
      j = k ∧ owner = publication ∧ publication.streamId = s ∧
          Holds x.manager.slots s publication.publisherId := by
  obtain ⟨found, hfound, hopen, hmem, hstream, hholds⟩ := mem_owners.mp h
  replace hfound : (x.sessions.set k { session with
    phase := .reading, publications := publication :: session.publications })[j]? =
      some found := hfound
  rw [List.getElem?_set] at hfound
  split_ifs at hfound with hj
  · obtain rfl := Option.some.inj hfound
    rcases List.mem_cons.mp hmem with rfl | hmem
    · exact .inr ⟨hj.symm, rfl, hstream, hholds⟩
    · exact .inl (mem_owners.mpr ⟨session, hj ▸ hsession, hphase, hmem, hstream, hholds⟩)
  · exact .inl (mem_owners.mpr ⟨found, hfound, hopen, hmem, hstream, hholds⟩)

/-- A session without a rival registers itself, in an entry that is its own. -/
theorem Inv.register (h : x.Inv) (hsession : x.sessions[k]? = some session)
    (hphase : session.phase = .registering publication) (honly : x.OnlyOwner k publication.streamId)
    (hpli : Holds x.manager.slots publication.streamId publication.publisherId →
      (x.entries.entry publication.streamId).pliTx = x.pli publication.peer) :
    (x.register k session publication).Inv := by
  have hopen : session.phase ≠ .closed := by
    rw [hphase]
    exact SignalPhase.noConfusion
  have hentry : ∀ s, (x.register k session publication).entries.entry s =
      if s = publication.streamId then { x.entries.entry publication.streamId with tx := some k }
      else x.entries.entry s := fun _ => KeyframeEntries.entry_registerPublishSignaling
  constructor
  · intro s j owner hmem
    rw [hentry]
    rcases mem_owners_register hsession hopen hmem with hold | ⟨rfl, rfl, rfl, hholds⟩
    · split_ifs with hs
      · subst hs
        exact ⟨congrArg some (honly _ hold).symm, (h.serves _ j owner hold).2⟩
      · exact h.serves s j owner hold
    · rw [if_pos rfl]
      exact ⟨rfl, hpli hholds⟩
  · intro found hfound pub hmem
    rcases List.mem_or_eq_of_mem_set hfound with hfound | rfl
    · exact h.peers found hfound pub hmem
    · have hall : session.all = publication :: session.publications := by
        rw [SignalSession.all, hphase]
      exact h.peers session (List.mem_of_getElem? hsession) pub (hall ▸ hmem)

theorem pli_track (hpeer : x.peers[q]? = some ⟨s, video⟩) (r : ℕ) :
    (x.track q s).pli r = if r = q then some q else x.pli r := by
  rw [pli, pli, track]
  split_ifs with hr
  · subst hr
    simp [hpeer]
  · simp [Ne.symm hr]

/-- A track of the owner's peer connection, if there is an owner. -/
theorem Inv.track (h : x.Inv) (hpeer : x.peers[q]? = some ⟨s, video⟩)
    (hclean : ∀ owner ∈ x.owners s, owner.2.peer = q) : (x.track q s).Inv := by
  have hentry : ∀ t, (x.track q s).entries.entry t =
      if t = s then { x.entries.entry s with pliTx := some q } else x.entries.entry t :=
    fun _ => KeyframeEntries.entry_registerPublishPli
  constructor
  · intro t k publication hmem
    replace hmem : (k, publication) ∈ x.owners t := hmem
    rw [hentry, pli_track hpeer]
    obtain ⟨htx, hpli⟩ := h.serves t k publication hmem
    split_ifs with ht hq hq
    · exact ⟨ht ▸ htx, rfl⟩
    · exact absurd (hclean _ (ht ▸ hmem)) hq
    · obtain ⟨session, hsession, -, hpublication, rfl, -⟩ := mem_owners.mp hmem
      obtain ⟨v, hfound⟩ := h.peers session (List.mem_of_getElem? hsession) publication
        (publications_subset_all session hpublication)
      rw [hq, hpeer] at hfound
      exact absurd (congrArg PublishPeer.streamId (Option.some.inj hfound)).symm ht
    · exact ⟨htx, hpli⟩
  · intro session hsession publication hmem
    obtain ⟨v, hfound⟩ := h.peers session hsession publication hmem
    have hmodified : (x.track q s).peers[publication.peer]? =
        (x.peers[publication.peer]?).map fun peer =>
            if q = publication.peer then { peer with video := true } else peer :=
      List.getElem?_modify ..
    rw [hfound] at hmodified
    by_cases hq : q = publication.peer
    · exact ⟨true, hmodified.trans (congrArg some (if_pos hq))⟩
    · exact ⟨v, hmodified.trans (congrArg some (if_neg hq))⟩

/-- Other parties do not act under the ids of publications. -/
theorem Inv.other (h : x.Inv) {op : ManagerOp} (hfresh : x.Fresh (.other op))
    (hop : op.apply x.manager = some m) :
    Inv { x with manager := m } where
  serves s k publication hmem := by
    obtain ⟨session, hsession, hphase, hpublication, hstream, hholds⟩ := mem_owners.mp hmem
    have hpublishes : x.Publishes publication.publisherId :=
      ⟨session, List.mem_of_getElem? hsession, publication, hpublication, rfl⟩
    have hrespects : Respects x.Publishes x.manager.slots m.slots :=
      ManagerOp.respects_apply hfresh hop
    have hbefore := (hrespects s _ hpublishes).1 hholds
    exact h.serves s k publication
      (mem_owners.mpr ⟨session, hsession, hphase, hpublication, hstream, hbefore⟩)
  peers := h.peers

theorem Inv.accept (h : x.Inv) : Inv { x with sessions := x.sessions ++ [.new] } where
  serves s k publication hmem := by
    obtain ⟨session, hsession, hphase, hpublication, hrest⟩ := mem_owners.mp hmem
    replace hsession : (x.sessions ++ [SignalSession.new])[k]? = some session := hsession
    rw [List.getElem?_append] at hsession
    split_ifs at hsession
    · exact h.serves s k publication
        (mem_owners.mpr ⟨session, hsession, hphase, hpublication, hrest⟩)
    · obtain rfl := List.mem_singleton.mp (List.mem_of_getElem? hsession)
      cases hpublication
  peers session hsession publication hmem := by
    rcases List.mem_append.mp hsession with hsession | hsession
    · exact h.peers session hsession publication hmem
    · obtain rfl := List.mem_singleton.mp hsession
      cases hmem

/-- A step of a session keeps the invariant, if it keeps to the registry's part that is its own. -/
theorem Inv.onSession (h : x.Inv) (hsession : x.sessions[k]? = some session) {event : SessionEvent}
    (hfresh : x.Fresh (.session k event)) (hclean : x.SessionClean k session event)
    (hstep : x.onSession k session event = some x') : x'.Inv := by
  have hopen : ∀ {phase : SignalPhase}, session.phase = phase → phase ≠ .closed →
      session.phase ≠ .closed :=
    fun hphase hne heq => hne (hphase.symm.trans heq)
  have hpublications := fun publication hmem =>
    h.peers session (List.mem_of_getElem? hsession) publication
      (publications_subset_all session hmem)
  cases event with
  | signal signal =>
    obtain ⟨hphase, hstep⟩ := Option.ite_none_right_eq_some.mp hstep
    obtain rfl := Option.some.inj hstep
    exact h.signal hsession (hopen hphase SignalPhase.noConfusion) (hclean hphase)
  | release =>
    rw [Signaling.onSession] at hstep
    split at hstep
    · next signal hphase =>
      obtain rfl := Option.some.inj hstep
      exact h.release hsession (hopen hphase SignalPhase.noConfusion) signal
    · cases hstep
  | peerConnection offer =>
    simp only [Signaling.onSession] at hstep
    split at hstep
    · next s p hphase =>
      obtain rfl := Option.some.inj hstep
      exact h.put hsession (hopen hphase SignalPhase.noConfusion)
        (fun _ => id) hpublications fun _ _ _ => id
    · next s p offer hphase =>
      obtain rfl := Option.some.inj hstep
      have hdrawn := hfresh session hsession p (congrArg SignalPhase.draws hphase)
      exact h.connect hsession (hopen hphase SignalPhase.noConfusion) hdrawn offer
    · cases hstep
  | answer ok =>
    rw [Signaling.onSession] at hstep
    split at hstep
    · next publication hphase =>
      obtain rfl := Option.some.inj hstep
      exact h.answer hsession hphase ok
    · cases hstep
  | register =>
    rw [Signaling.onSession] at hstep
    split at hstep
    · next publication hphase =>
      obtain rfl := Option.some.inj hstep
      obtain ⟨honly, hpli⟩ := hclean publication (congrArg SignalPhase.registers hphase)
      exact h.register hsession hphase honly hpli
    · cases hstep
  | play s ok =>
    obtain ⟨hphase, hstep⟩ := Option.ite_none_right_eq_some.mp hstep
    obtain rfl := Option.some.inj hstep
    have hall : session.all = session.publications := by
      rw [SignalSession.all, hphase]
    exact (h.requestKeyframe s).put hsession (hopen hphase SignalPhase.noConfusion) (fun _ => id)
      (h.peers session (List.mem_of_getElem? hsession)) fun _ _ _ => id
  | stopPlay =>
    obtain ⟨hphase, hstep⟩ := Option.ite_none_right_eq_some.mp hstep
    obtain rfl := Option.some.inj hstep
    exact h.put hsession (hopen hphase SignalPhase.noConfusion) (fun _ => id)
      (h.peers session (List.mem_of_getElem? hsession)) fun _ _ _ => id

/-- A clean step **keeps** the invariant. -/
theorem Inv.step (h : x.Inv) {e : SignalingEvent} (hfresh : x.Fresh e) (hclean : x.Clean e)
    (hstep : x.step e = some x') : x'.Inv := by
  cases e with
  | other op =>
    obtain ⟨m, hop, rfl⟩ := Option.map_eq_some_iff.mp hstep
    exact h.other hfresh hop
  | accept =>
    obtain rfl := Option.some.inj hstep
    exact h.accept
  | session k event =>
    obtain ⟨session, hsession, hstep⟩ := Option.bind_eq_some_iff.mp hstep
    exact h.onSession hsession hfresh (hclean session hsession) hstep
  | track q =>
    obtain ⟨peer, hpeer, rfl⟩ := Option.map_eq_some_iff.mp hstep
    exact h.track hpeer (hclean peer hpeer)
  | request s =>
    obtain rfl := Option.some.inj hstep
    exact h.requestKeyframe s

/-! ## What an unclean step breaks -/

/-- Another session owns what it owned. -/
theorem mem_owners_of_ne (hsessions : x'.sessions = x.sessions.set k session')
    (hmanager : x'.manager = x.manager) (hj : j ≠ k) (h : (j, publication) ∈ x.owners s) :
    (j, publication) ∈ x'.owners s := by
  obtain ⟨session, hsession, hrest⟩ := mem_owners.mp h
  rw [mem_owners, hsessions, hmanager]
  exact ⟨session, (List.getElem?_set_ne hj.symm).trans hsession, hrest⟩

theorem eq_of_pli (h : x.pli q = some k) : q = k := by
  obtain ⟨peer, -, rfl⟩ := Option.map_eq_some_iff.mp h
  rfl

theorem onlyOwner_of_signal {signal : SessionSignal} (hs : session.cleans signal = some s)
    (h : (x.signal k session signal).Reaches) : x.OnlyOwner k s := by
  rintro ⟨j, publication⟩ howner
  by_contra hj
  have hsignal : x.signal k session signal =
    { x with entries := x.entries.unregisterPublishSignaling s }.put k
      { session with
        phase := .cleaning signal
        publications := session.publications.filter fun publication =>
            publication.streamId ≠ s } x.manager := by
    rw [Signaling.signal, hs]
  have hmanager : (x.signal k session signal).manager = x.manager := by
    rw [hsignal]
    rfl
  have hmem := mem_owners_of_ne (congrArg Signaling.sessions hsignal) hmanager hj howner
  have htx := ((reached_iff hmem).mp (h s _ hmem)).1
  have hentry : (x.signal k session signal).entries.entry s = ⟨none, none, none⟩ := by
    rw [hsignal]
    exact KeyframeEntries.entry_unregisterPublishSignaling.trans (if_pos rfl)
  rw [hentry] at htx
  cases htx

theorem clean_of_register (hsession : x.sessions[k]? = some session)
    (h : (x.register k session publication).Reaches) :
    x.OnlyOwner k publication.streamId ∧
      (Holds x.manager.slots publication.streamId publication.publisherId →
        (x.entries.entry publication.streamId).pliTx = x.pli publication.peer) := by
  have hentry : (x.register k session publication).entries.entry publication.streamId =
      { x.entries.entry publication.streamId with tx := some k } :=
    KeyframeEntries.entry_registerPublishSignaling.trans (if_pos rfl)
  constructor
  · rintro ⟨j, owner⟩ howner
    by_contra hj
    have hmem : (j, owner) ∈ (x.register k session publication).owners publication.streamId :=
      mem_owners_of_ne rfl rfl hj howner
    have htx := ((reached_iff hmem).mp (h _ _ hmem)).1
    exact hj (Option.some.inj ((congrArg KeyframeEntry.tx hentry).symm.trans htx)).symm
  · intro hholds
    have hself : (x.register k session publication).sessions[k]? = some { session with
        phase := .reading, publications := publication :: session.publications } :=
      List.getElem?_set_self (List.getElem?_eq_some_iff.mp hsession).1
    have hmem := mem_owners.mpr ⟨_, hself, SignalPhase.noConfusion, List.mem_cons_self, rfl, hholds⟩
    have hpli := ((reached_iff hmem).mp (h _ _ hmem)).2
    exact (congrArg KeyframeEntry.pliTx hentry).symm.trans hpli

theorem clean_of_track (h : (x.track q s).Reaches) :
    ∀ owner ∈ x.owners s, owner.2.peer = q := by
  rintro ⟨j, owner⟩ howner
  have hpli := ((reached_iff (x := x.track q s) howner).mp (h s _ howner)).2
  have hentry : ((x.track q s).entries.entry s).pliTx = some q :=
    congrArg KeyframeEntry.pliTx (KeyframeEntries.entry_registerPublishPli.trans (if_pos rfl))
  exact eq_of_pli (hpli.symm.trans hentry)

/-- **Exactly** the clean steps keep the requests on their way. -/
theorem keepsReach_iff_clean (hI : x.Inv) {e : SignalingEvent} (hfresh : x.Fresh e) :
    x.KeepsReach e ↔ x.Clean e := by
  refine ⟨fun hkeeps => ?_, fun hclean x' hstep => (inv_iff.mp (hI.step hfresh hclean hstep)).1⟩
  cases e with
  | other op => trivial
  | accept => trivial
  | request s => trivial
  | track q =>
    intro peer hpeer
    have hstep : x.step (.track q) = some (x.track q peer.streamId) := by
      rw [Signaling.step, hpeer]
      rfl
    exact clean_of_track (hkeeps _ hstep)
  | session k event =>
    intro session hsession
    have hstep : x.step (.session k event) = x.onSession k session event := by
      rw [Signaling.step, hsession]
      rfl
    cases event with
    | signal signal =>
      intro hphase s hs
      exact onlyOwner_of_signal hs (hkeeps _ (hstep.trans (if_pos hphase)))
    | register =>
      intro publication hregisters
      refine clean_of_register hsession (hkeeps _ (hstep.trans ?_))
      rw [onSession]
      cases hphase : session.phase with
      | registering found =>
        rw [hphase] at hregisters
        rw [Option.some.inj hregisters]
      | reading | cleaning _ | connecting _ _ | negotiating _ | closed =>
        rw [hphase] at hregisters
        cases hregisters
    | release => trivial
    | peerConnection offer => trivial
    | answer ok => trivial
    | play s ok => trivial
    | stopPlay => trivial

/-- Where publisher ids are drawn apart, keyframe requests reach the publishers in every run of
clean steps, and in **no other**. -/
theorem keyframe_requests_iff (m : StreamManager) (es : List SignalingEvent)
    (hfresh : Always Signaling.step Fresh (start m) es) :
    Always Signaling.step KeepsReach (start m) es ↔ Always Signaling.step Clean (start m) es :=
  always_iff_of_always (fun _ _ hI hfresh => keepsReach_iff_clean hI hfresh)
    (fun _ _ _ hI hfresh hclean hstep => hI.step hfresh hclean hstep) (inv_start m) hfresh

/-- A session publishes a stream, and its video track comes before it is registered. -/
def publishCam : List SignalingEvent :=
  [.accept, .session 0 (.signal (.publish "cam" 1)),
    .session 0 (.peerConnection (some ⟨[], none, none⟩)), .session 0 (.answer true), .track 0,
    .session 0 .register, .request "cam"]

theorem keyframe_requests_publishCam : Always Signaling.step KeepsReach (start .new) publishCam :=
  (keyframe_requests_iff .new publishCam (by decide +kernel)).mpr (by decide +kernel)

/-- Another session, which publishes nothing, stops the stream: the slot is still held, but a
request gets nowhere. -/
theorem not_keyframe_requests_stop : ¬ Always Signaling.step KeepsReach (start .new)
    (publishCam ++ [.accept] ++ [.session 1 (.signal (.stopPublish "cam"))]) := by
  intro h
  obtain ⟨x, hx, hreached⟩ : ∃ x, exec Signaling.step (start .new)
      (publishCam ++ [.accept] ++ [.session 1 (.signal (.stopPublish "cam"))]) = some x ∧
      ¬ ∀ owner ∈ x.owners "cam", x.Reached "cam" owner := ⟨_, rfl, by decide +kernel⟩
  obtain ⟨before, hbefore, hlast⟩ := exec_concat.mp hx
  exact hreached (always_iff.mp h _ _ (List.prefix_refl _) before hbefore x hlast "cam")

end Signaling

end VcpMediaServer
