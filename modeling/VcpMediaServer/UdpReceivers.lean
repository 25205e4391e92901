import Mathlib.Data.List.AList
import Mathlib.Data.Finset.Insert
import VcpMediaServer.Lts
import VcpMediaServer.RtspServerSession

/-!
# The receivers of a session

A track over UDP has a socket, and while the client publishes, a task that reads the socket. The
session keeps the sockets by track, and beside them **the tracks of which a task was ever started**.
Of a track in that set no second task is started, and nothing ever leaves it; a task reads the
socket and publishes to the stream that were there when it was started.

* `UdpSession.processRequest` — a request, with what it does to sockets and tasks.
* `UdpSession.FollowsSession` — the tasks are those that the session should have.
* `UdpSession.Undisturbed` — the condition: a request does nothing that a task should notice.
* `followsSession_run` — in every run that meets the condition, the tasks follow the session.
-/

namespace VcpMediaServer

open Lts

/-- The task of `start_udp_receiver_for_track`: it reads its socket and publishes to its stream for
as long as the socket can be read. -/
structure UdpReceiverTask where
  /-- The track that its packets are taken for. -/
  trackId : TrackId
  /-- The socket that it reads. -/
  rtpSocket : ℕ
  /-- The stream that it publishes to. -/
  streamId : StreamId
  deriving DecidableEq, Repr

/-- What a `RtspServerSession` keeps for UDP. Sockets are numbered as they are opened. -/
structure UdpSession where
  /-- The session. -/
  session : RtspSession
  /-- The RTP socket of each track. -/
  udpTracks : AList fun _ : TrackId => ℕ
  /-- The tracks of which a task was started. -/
  udpReceiverTracks : Finset TrackId
  /-- The tasks that run. -/
  receivers : List UdpReceiverTask
  /-- The sockets that were opened. -/
  sockets : ℕ

/-- A request on the connection, and what it meets. -/
structure UdpRequest where
  /-- The request. -/
  request : RtspRequest
  /-- `extract_track_id` of its URL, as a byte. -/
  trackId : TrackId
  /-- What `rand_id` draws. -/
  newId : String
  /-- The streams, whatever the other connections have made of them. -/
  manager : StreamManager
  /-- Both ports that are drawn can be bound. -/
  bound : Bool

/-- The reply is one of success. -/
def RtspReply.succeeds : RtspReply → Bool
  | .ok _ _ => true
  | .error _ _ _ => false

namespace UdpSession

/-- The session of a new connection. -/
def new : UdpSession :=
  { session := .new, udpTracks := ∅, udpReceiverTracks := ∅, receivers := [], sockets := 0 }

/-- `start_udp_receiver_for_track`. -/
def startUdpReceiverForTrack (u : UdpSession) (trackId : TrackId) (rtpSocket : ℕ) : UdpSession :=
  if trackId ∈ u.udpReceiverTracks then u
  else
    match u.session.streamId with
    -- the track is put into the set and taken out again
    | none => u
    | some streamId =>
      { u with
        udpReceiverTracks := insert trackId u.udpReceiverTracks
        receivers := u.receivers ++ [{ trackId, rtpSocket, streamId }] }

/-- `setup_udp_track`: without both sockets it changes nothing. -/
def setupUdpTrack (u : UdpSession) (trackId : TrackId) (bound : Bool) : UdpSession :=
  if bound then
    let rtpSocket := u.sockets
    let u := { u with
      udpTracks := u.udpTracks.insert trackId rtpSocket
      sockets := u.sockets + 1
      session := { u.session with transportMode := .udp } }
    if u.session.publishing then u.startUdpReceiverForTrack trackId rtpSocket else u
  else u

/-- `ensure_udp_receivers_started`. The order of the tracks is that of a hash map; it is the order
of the tasks in the list, and nothing else. -/
def ensureUdpReceiversStarted (u : UdpSession) : UdpSession :=
  u.udpTracks.entries.foldl (fun u entry => u.startUdpReceiverForTrack entry.1 entry.2) u

/-- The request is one that opens sockets: a `SETUP` over UDP with the ports of the client. -/
def opensSockets (r : UdpRequest) : Bool :=
  r.request.method = "SETUP" && !r.request.transportIsTcp && r.request.clientPort.isSome && r.bound

/-- What `process_request` does before the request is processed. -/
def prepare (u : UdpSession) (r : UdpRequest) : UdpSession :=
  if r.request.method = "SETUP" && !r.request.transportIsTcp && r.request.clientPort.isSome then
    u.setupUdpTrack r.trackId r.bound
  else if r.request.method = "TEARDOWN" then { u with udpTracks := ∅ }
  else u

/-- `process_request` of the connection from `peerAddr`. -/
def processRequest (peerAddr : String) (u : UdpSession) (r : UdpRequest) : UdpSession × RtspReply :=
  let u := u.prepare r
  let (_, session, reply) := processRtspRequest r.manager u.session r.request peerAddr r.newId
  let u := { u with session }
  (if r.request.method = "RECORD" ∧ session.transportMode = .udp then u.ensureUdpReceiversStarted
    else u, reply)

/-- A request on the connection is always processed. -/
def step (peerAddr : String) (u : UdpSession) (r : UdpRequest) : Option UdpSession :=
  some (u.processRequest peerAddr r).1

/-! ## Following the session -/

/-- The tasks that a session should have: after a `RECORD` over UDP that succeeds, every track has
**one** task, which reads its socket and publishes to the stream of the session; after a `TEARDOWN`
there are none. -/
def Follows (r : UdpRequest) (u : UdpSession) (reply : RtspReply) : Prop :=
  (r.request.Is "RECORD" → reply.succeeds → u.session.transportMode = .udp →
    ∀ track ∈ u.udpTracks.entries, ∃ streamId ∈ u.session.streamId,
      u.receivers.filter (fun receiver => receiver.trackId = track.1) =
        [{ trackId := track.1, rtpSocket := track.2, streamId }]) ∧
  (r.request.Is "TEARDOWN" → u.receivers = [])

/-- A request leaves the tasks that the session should have. -/
def FollowsSession (peerAddr : String) (u : UdpSession) (r : UdpRequest) : Prop :=
  Follows r (u.processRequest peerAddr r).1 (u.processRequest peerAddr r).2

/-- The condition on a request: it does nothing that a task should notice. -/
structure Undisturbed (peerAddr : String) (u : UdpSession) (r : UdpRequest) : Prop where
  /-- No track with a task is given another socket. -/
  setup : opensSockets r → r.trackId ∉ u.udpReceiverTracks
  /-- No task was started before a `TEARDOWN`. -/
  teardown : r.request.Is "TEARDOWN" → u.udpReceiverTracks = ∅
  /-- No stream other than that of the session is announced, once a task was started. -/
  announce : r.request.Is "ANNOUNCE" →
    r.manager.Accepts (rtspPublisherId peerAddr) r.request.streamId →
    u.udpReceiverTracks ≠ ∅ → u.session.streamId = some r.request.streamId
  /-- A `RECORD` over UDP with tracks comes to a session that has a stream. -/
  record : r.request.Is "RECORD" → u.session.transportMode = .udp → u.udpTracks ≠ ∅ →
    u.session.streamId ≠ none

/-- What holds of the tasks between two requests. -/
structure Running (u : UdpSession) : Prop where
  /-- A track has at most one. -/
  unique : (u.receivers.map UdpReceiverTask.trackId).Nodup
  /-- The set is that of their tracks. -/
  tracks : ∀ t, t ∈ u.udpReceiverTracks ↔ t ∈ u.receivers.map UdpReceiverTask.trackId
  /-- They publish to the stream of the session. -/
  stream : ∀ receiver ∈ u.receivers, u.session.streamId = some receiver.streamId
  /-- They read the socket of their track, if it has one. -/
  socket : ∀ receiver ∈ u.receivers, ∀ rtpSocket ∈ u.udpTracks.lookup receiver.trackId,
    receiver.rtpSocket = rtpSocket

/-- What starting tasks leaves alone. -/
structure Starts (u' u : UdpSession) : Prop where
  session : u'.session = u.session
  udpTracks : u'.udpTracks = u.udpTracks
  tracks : u.udpReceiverTracks ⊆ u'.udpReceiverTracks

/-- Where a key is found once, one element has it. -/
theorem filter_eq_singleton {α β : Type} [DecidableEq β] {f : α → β} {xs : List α}
    (hunique : (xs.map f).Nodup) {x : α} (hx : x ∈ xs) : xs.filter (fun y => f y = f x) = [x] := by
  induction xs with
  | nil => cases hx
  | cons y ys ih =>
    rw [List.map_cons, List.nodup_cons] at hunique
    obtain ⟨hnot, hunique⟩ := hunique
    rcases List.mem_cons.mp hx with rfl | hx
    · have hnone : ys.filter (fun z => f z = f x) = [] := by
        refine List.filter_eq_nil_iff.mpr fun z hz hkey => hnot ?_
        exact List.mem_map.mpr ⟨z, hz, of_decide_eq_true hkey⟩
      rw [List.filter_cons_of_pos (by simp), hnone]
    · have hne : f y ≠ f x := fun h => hnot (h ▸ List.mem_map_of_mem hx)
      rw [List.filter_cons_of_neg (by simpa using hne), ih hunique hx]

theorem Starts.refl (u : UdpSession) : Starts u u := ⟨rfl, rfl, Finset.Subset.refl _⟩

variable {u : UdpSession} {peerAddr : String} {r : UdpRequest}

namespace Running

theorem init : Running new where
  unique := .nil
  tracks := by simp [new]
  stream := by simp [new]
  socket := by simp [new]

theorem receivers_eq_nil (hu : Running u) (h : u.udpReceiverTracks = ∅) : u.receivers = [] := by
  refine List.eq_nil_iff_forall_not_mem.mpr fun receiver hreceiver => ?_
  have hmem := (hu.tracks receiver.trackId).mpr (List.mem_map_of_mem hreceiver)
  simp [h] at hmem

/-- The task of a track that has a socket. -/
theorem filter_eq (hu : Running u) {t : TrackId} {rtpSocket : ℕ} (ht : t ∈ u.udpReceiverTracks)
    (hsocket : rtpSocket ∈ u.udpTracks.lookup t) :
    ∃ streamId ∈ u.session.streamId,
      u.receivers.filter (fun receiver => receiver.trackId = t) =
          [{ trackId := t, rtpSocket, streamId }] := by
  obtain ⟨receiver, hreceiver, rfl⟩ := List.mem_map.mp ((hu.tracks t).mp ht)
  have hstream := hu.stream receiver hreceiver
  obtain rfl := hu.socket receiver hreceiver rtpSocket hsocket
  exact ⟨receiver.streamId, hstream, filter_eq_singleton hu.unique hreceiver⟩

/-- A task is started for a track with its socket. -/
theorem start (hu : Running u) {t : TrackId} {rtpSocket : ℕ}
    (hsocket : rtpSocket ∈ u.udpTracks.lookup t) :
    Running (u.startUdpReceiverForTrack t rtpSocket) ∧
      Starts (u.startUdpReceiverForTrack t rtpSocket) u ∧
      (u.session.streamId ≠ none →
          t ∈ (u.startUdpReceiverForTrack t rtpSocket).udpReceiverTracks) := by
  rw [startUdpReceiverForTrack]
  split
  · next ht => exact ⟨hu, .refl u, fun _ => ht⟩
  next ht =>
  have hnone : t ∉ u.receivers.map UdpReceiverTask.trackId := fun h => ht ((hu.tracks t).mpr h)
  split
  · next hstream => exact ⟨hu, .refl u, fun h => absurd hstream h⟩
  next streamId hstream =>
  refine ⟨⟨?_, fun t' => ?_, ?_, ?_⟩, ⟨rfl, rfl, Finset.subset_insert _ _⟩,
    fun _ => Finset.mem_insert_self _ _⟩
  · rw [List.map_append]
    exact hu.unique.append (List.nodup_singleton _) (by simpa using hnone)
  · rw [List.map_append, List.mem_append, Finset.mem_insert, hu.tracks t']
    simp [or_comm]
  · intro receiver hreceiver
    rcases List.mem_append.mp hreceiver with h | h
    · exact hu.stream receiver h
    · obtain rfl := List.mem_singleton.mp h
      exact hstream
  · intro receiver hreceiver rtpSocket' hsocket'
    rcases List.mem_append.mp hreceiver with h | h
    · exact hu.socket receiver h rtpSocket' hsocket'
    · obtain rfl := List.mem_singleton.mp h
      exact Option.some.inj (hsocket.symm.trans hsocket')

/-- Tasks are started for tracks with their sockets, one after the other. -/
theorem startAll (hu : Running u) {entries : List (Sigma fun _ : TrackId => ℕ)}
    (hentries : ∀ entry ∈ entries, entry.2 ∈ u.udpTracks.lookup entry.1) :
    let u' := entries.foldl (fun u entry => u.startUdpReceiverForTrack entry.1 entry.2) u
    Running u' ∧ Starts u' u ∧
      (u.session.streamId ≠ none → ∀ entry ∈ entries, entry.1 ∈ u'.udpReceiverTracks) := by
  induction entries generalizing u with
  | nil => exact ⟨hu, .refl u, fun _ => by simp⟩
  | cons entry entries ih =>
    obtain ⟨hstart, hsame, hstarted⟩ := hu.start (hentries entry List.mem_cons_self)
    have hrest : ∀ e ∈ entries, e.2 ∈
        (u.startUdpReceiverForTrack entry.1 entry.2).udpTracks.lookup e.1 := by
      intro e he
      rw [hsame.udpTracks]
      exact hentries e (List.mem_cons_of_mem _ he)
    obtain ⟨hrunning, hsame', hstarted'⟩ := ih hstart hrest
    refine ⟨hrunning, ⟨hsame'.session.trans hsame.session, hsame'.udpTracks.trans hsame.udpTracks,
      hsame.tracks.trans hsame'.tracks⟩, fun hstream e he => ?_⟩
    rcases List.mem_cons.mp he with rfl | he
    · exact hsame'.tracks (hstarted hstream)
    · exact hstarted' (by rwa [hsame.session]) e he

/-- `RECORD` sees to it that every track has its task. -/
theorem ensure (hu : Running u) :
    Running u.ensureUdpReceiversStarted ∧ Starts u.ensureUdpReceiversStarted u ∧
      (u.session.streamId ≠ none → ∀ t, ∀ rtpSocket ∈ u.udpTracks.lookup t,
        t ∈ u.ensureUdpReceiversStarted.udpReceiverTracks) := by
  obtain ⟨hrunning, hsame, hstarted⟩ := hu.startAll fun entry => AList.mem_lookup_iff.mpr
  refine ⟨hrunning, hsame, fun hstream t rtpSocket hsocket => ?_⟩
  exact hstarted hstream ⟨t, rtpSocket⟩ (AList.mem_lookup_iff.mp hsocket)

/-- A track is given a new socket. -/
theorem insert (hu : Running u) {t : TrackId} (ht : t ∉ u.udpReceiverTracks) (rtpSocket sockets : ℕ)
    {session : RtspSession} (hsession : session.streamId = u.session.streamId) :
    Running { u with udpTracks := u.udpTracks.insert t rtpSocket, sockets, session } where
  unique := hu.unique
  tracks := hu.tracks
  stream receiver hreceiver := hsession.trans (hu.stream receiver hreceiver)
  socket receiver hreceiver rtpSocket' hsocket := by
    have hne : receiver.trackId ≠ t := by
      rintro rfl
      exact ht ((hu.tracks _).mpr (List.mem_map_of_mem hreceiver))
    rw [AList.lookup_insert_ne hne] at hsocket
    exact hu.socket receiver hreceiver rtpSocket' hsocket

/-- What is done before the request is processed. -/
theorem prepare (hu : Running u) (hr : Undisturbed peerAddr u r) :
    Running (u.prepare r) ∧ (u.prepare r).session.streamId = u.session.streamId ∧
      (r.request.method ≠ "SETUP" → (u.prepare r).udpReceiverTracks = u.udpReceiverTracks) := by
  rw [UdpSession.prepare]
  split
  · next hsetup =>
    have hmethod : r.request.method = "SETUP" := by simp_all
    rw [setupUdpTrack]
    split
    · next hbound =>
      have ht : r.trackId ∉ u.udpReceiverTracks :=
        hr.setup (by rw [opensSockets, hsetup, hbound]; rfl)
      have hinsert : Running { u with
          udpTracks := u.udpTracks.insert r.trackId u.sockets
          sockets := u.sockets + 1
          session := { u.session with transportMode := .udp } } :=
        hu.insert ht u.sockets (u.sockets + 1) rfl
      dsimp only
      split
      · obtain ⟨hrunning, hsame, -⟩ := hinsert.start (AList.lookup_insert _)
        exact ⟨hrunning, by rw [hsame.session], fun h => absurd hmethod h⟩
      · exact ⟨hinsert, rfl, fun h => absurd hmethod h⟩
    · exact ⟨hu, rfl, fun _ => rfl⟩
  · split
    · exact ⟨⟨hu.unique, hu.tracks, hu.stream, nofun⟩, rfl, fun _ => rfl⟩
    · exact ⟨hu, rfl, fun _ => rfl⟩

/-- The request is processed. -/
theorem handled (hu : Running u) (hr : Undisturbed peerAddr u r) {m' : StreamManager}
    {session' : RtspSession}
    (h : RtspHandled (rtspPublisherId peerAddr) r.manager
    (u.prepare r).session r.request m' session') :
    Running { u.prepare r with session := session' } := by
  obtain ⟨hprepare, hstream, htracks⟩ := hu.prepare hr
  have hfollows :
      (∀ receiver ∈ (u.prepare r).receivers, session'.streamId = some receiver.streamId) →
      Running { u.prepare r with session := session' } :=
    fun hstream' => ⟨hprepare.unique, hprepare.tracks, hstream', hprepare.socket⟩
  have hsame : session'.streamId = (u.prepare r).session.streamId →
      Running { u.prepare r with session := session' } :=
    fun hsame => hfollows fun receiver hreceiver => hsame.trans (hprepare.stream receiver hreceiver)
  cases h with
  | quiet same => exact hsame same.streamId
  | names request unset =>
    -- a task needs a stream
    refine hfollows fun receiver hreceiver => ?_
    have hsome := hprepare.stream receiver hreceiver
    rw [unset] at hsome
    cases hsome
  | rejects request taken same => exact hsame same.streamId
  | announces request free streamId =>
    have heq := htracks (by rw [request.2]; decide)
    by_cases hnone : u.udpReceiverTracks = ∅
    · have hnil := hprepare.receivers_eq_nil (heq.trans hnone)
      exact hfollows (by simp [hnil])
    · exact hsame (streamId.trans ((hr.announce request free hnone).symm.trans hstream.symm))
  | records request unset free streamId => exact hsame streamId
  | ends request =>
    have heq := htracks (by rw [request.2]; decide)
    have hnil := hprepare.receivers_eq_nil (heq.trans (hr.teardown request))
    exact hfollows (by simp [hnil])

end Running

theorem processRtspRequest_record {m : StreamManager} {session : RtspSession} {req : RtspRequest}
    (h : req.Is "RECORD") (peerAddr newId : String) :
    processRtspRequest m session req peerAddr newId = record m session req peerAddr newId := by
  rw [processRtspRequest, if_neg (Nat.not_lt.mpr h.1), h.2]
  simp

/-- A `RECORD` changes neither the stream nor the transport of the session. -/
theorem same_record (m : StreamManager) (session : RtspSession) (req : RtspRequest)
    (peerAddr newId : String) :
    (record m session req peerAddr newId).2.1.streamId = session.streamId ∧
      (record m session req peerAddr newId).2.1.transportMode = session.transportMode := by
  rw [record]
  dsimp only
  split
  · split <;> exact ⟨rfl, rfl⟩
  · exact ⟨rfl, rfl⟩

theorem prepare_of_record (h : r.request.method = "RECORD") (u : UdpSession) : u.prepare r = u := by
  rw [prepare, h, if_neg (by simp), if_neg (by decide)]

theorem receivers_prepare_of_teardown (h : r.request.method = "TEARDOWN") (u : UdpSession) :
    (u.prepare r).receivers = u.receivers := by
  rw [prepare, h, if_neg (by simp), if_pos rfl]

/-- **Every request** that meets the condition keeps what holds of the tasks, and they follow. -/
theorem Running.step (hu : Running u) (hr : Undisturbed peerAddr u r) :
    Running (u.processRequest peerAddr r).1 ∧ FollowsSession peerAddr u r := by
  have hhandled := hu.handled hr
    (processRtspRequest_handled r.manager (u.prepare r).session r.request peerAddr r.newId)
  have hrecord : r.request.Is "RECORD" →
      (processRtspRequest r.manager (u.prepare r).session r.request peerAddr r.newId).2.1.streamId =
        u.session.streamId ∧
      (processRtspRequest r.manager
        (u.prepare r).session r.request peerAddr r.newId).2.1.transportMode =
        u.session.transportMode := by
    intro hreq
    rw [prepare_of_record hreq.2, processRtspRequest_record hreq]
    exact same_record _ _ _ _ _
  rw [FollowsSession, Follows, processRequest]
  dsimp only
  generalize (processRtspRequest r.manager (u.prepare r).session r.request peerAddr r.newId).2.1 =
    session'
    at hhandled hrecord ⊢
  split
  · next hif =>
    obtain ⟨hmethod, hmode⟩ := hif
    obtain ⟨hrunning, hsame, hstarted⟩ := hhandled.ensure
    refine ⟨hrunning, fun hreq _ _ track htrack => ?_, fun hreq => ?_⟩
    · obtain ⟨hstream, htransport⟩ := hrecord hreq
      have hsocket := AList.mem_lookup_iff.mpr htrack
      rw [hsame.udpTracks] at hsocket
      have htracks : u.udpTracks ≠ ∅ := by
        intro hnone
        rw [prepare_of_record hmethod, hnone] at hsocket
        simp at hsocket
      have hsome : session'.streamId ≠ none := by
        rw [hstream]
        exact hr.record hreq (htransport.symm.trans hmode) htracks
      exact hrunning.filter_eq (hstarted hsome track.1 track.2 hsocket)
        (AList.mem_lookup_iff.mpr htrack)
    · exact absurd hmethod (by rw [hreq.2]; decide)
  · next hif =>
    refine ⟨hhandled, fun hreq _ hmode => absurd ⟨hreq.2, hmode⟩ hif, fun hreq => ?_⟩
    rw [receivers_prepare_of_teardown hreq.2]
    exact hu.receivers_eq_nil (hr.teardown hreq)

/-- In every run of requests that meet the condition, on a new connection, the tasks follow the
session. -/
theorem followsSession_run (peerAddr : String) {rs : List UdpRequest}
    (hundisturbed : Always (step peerAddr) (Undisturbed peerAddr) new rs) :
    Always (step peerAddr) (FollowsSession peerAddr) new rs := by
  refine always_of_inv (I := Running) (fun u r hu hr => (hu.step hr).2)
    (fun u r u' hu hr h => ?_) Running.init
    hundisturbed
  obtain rfl := Option.some.inj h
  exact (hu.step hr).1

instance (r : UdpRequest) (u : UdpSession) (reply : RtspReply) : Decidable (Follows r u reply) :=
  inferInstanceAs
    (Decidable ((r.request.Is "RECORD" → reply.succeeds → u.session.transportMode = .udp →
      ∀ track ∈ u.udpTracks.entries, ∃ streamId ∈ u.session.streamId,
        u.receivers.filter (fun receiver => receiver.trackId = track.1) =
          [{ trackId := track.1, rtpSocket := track.2, streamId }]) ∧
    (r.request.Is "TEARDOWN" → u.receivers = [])))

instance (peerAddr : String) (u : UdpSession) (r : UdpRequest) :
    Decidable (FollowsSession peerAddr u r) :=
  inferInstanceAs (Decidable (Follows _ _ _))

instance (peerAddr : String) (u : UdpSession) (r : UdpRequest) :
    Decidable (Undisturbed peerAddr u r) :=
  decidable_of_iff ((opensSockets r → r.trackId ∉ u.udpReceiverTracks) ∧
      (r.request.Is "TEARDOWN" → u.udpReceiverTracks = ∅) ∧
      (r.request.Is "ANNOUNCE" → r.manager.Accepts (rtspPublisherId peerAddr) r.request.streamId →
        u.udpReceiverTracks ≠ ∅ → u.session.streamId = some r.request.streamId) ∧
      (r.request.Is "RECORD" → u.session.transportMode = .udp → u.udpTracks.entries ≠ [] →
        u.session.streamId ≠ none))
    ⟨fun ⟨h₁, h₂, h₃, h₄⟩ => ⟨h₁, h₂, h₃, fun hr hu ht => h₄ hr hu fun hn => ht (AList.ext hn)⟩,
      fun ⟨h₁, h₂, h₃, h₄⟩ => ⟨h₁, h₂, h₃, fun hr hu ht => h₄ hr hu fun hn => ht (by rw [hn]; rfl)⟩⟩

/-- A request of a publisher over UDP, for its first track. -/
def udpRequest (method : String) (streamId : StreamId) : UdpRequest where
  request :=
    { parts := 3, method, streamId, cseq := "1", transportIsTcp := false,
      clientPort := some (6000, 6001)
      tracks := [], sps := none, pps := none }
  trackId := 0
  newId := "id"
  manager := .new
  bound := true

/-- A publisher begins. -/
def published : List UdpRequest :=
  [udpRequest "ANNOUNCE" "cam", udpRequest "SETUP" "cam", udpRequest "RECORD" "cam"]

theorem followsSession_published :
    Always (step "peer") (Undisturbed "peer") new published ∧
      Always (step "peer") (FollowsSession "peer") new published := by
  have hundisturbed : Always (step "peer") (Undisturbed "peer") new published := by decide +kernel
  exact ⟨hundisturbed, followsSession_run "peer" hundisturbed⟩

/-- A task goes on after a `TEARDOWN`; and it goes on with its old socket, or its old stream, when
the track is set up again, or another stream is announced. -/
theorem not_followsSession :
    ¬Always (step "peer") (FollowsSession "peer") new (published ++ [udpRequest "TEARDOWN" "cam"]) ∧
    ¬Always (step "peer") (FollowsSession "peer") new
      (published ++ [udpRequest "SETUP" "cam", udpRequest "RECORD" "cam"]) ∧
    ¬Always (step "peer") (FollowsSession "peer") new
      (published ++ [udpRequest "ANNOUNCE" "door", udpRequest "RECORD" "door"]) := by
  decide +kernel

end UdpSession

end VcpMediaServer
