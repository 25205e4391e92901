import VcpMediaServer.AacAggregation
import VcpMediaServer.UdpReceivers

/-!
# The rate that was announced

The clock rate of a packet of audio is looked up in **the tracks of the session**, over TCP when it
comes and over UDP when its task is started. An `ANNOUNCE` gives its tracks to the stream, and
nothing gives any to the session.

* `RecordingRun` — a connection with its tasks, and what it announced.
* `tracks_announce` — where the announced tracks go.
* `Untracked` — between two events no tracks are anywhere to look up.
* `honoured_run_iff` — the rates are as they were announced exactly where the default was announced.
-/

namespace VcpMediaServer

open Lts StreamManager

/-! ## Runs -/

/-- The rate that tracks have for a packet on a track: that of the track, or of its payload type. -/
def trackRate (tracks : List Track) (trackId : TrackId) (rtp : List UInt8) : UInt32 :=
  ((tracks.find? fun t => t.id = trackId ∨ t.payloadType = rtp.getD 1 0 &&& 0x7F).map
    Track.clockRate).getD AAC_DEFAULT_CLOCK_RATE

/-- A packet of another track than video, with what its frame is made from. -/
structure AudioPacket where
  /-- The tracks in which the rate is looked up. -/
  tracks : List Track
  /-- The stream that it is published to. -/
  streamId : StreamId
  /-- The track. -/
  trackId : TrackId
  /-- The packet. -/
  rtp : List UInt8
  /-- What is kept of it with the frame. -/
  rtpData : Option (List UInt8)

/-- The frame that it is published as, if there is an access unit in it. -/
def AudioPacket.frame (p : AudioPacket) : Option MediaFrame :=
  aacFrame p.tracks p.streamId p.trackId p.rtp p.rtpData

/-- A connection: the session with its sockets, the tasks with what they captured when they were
started, and the tracks of the last `ANNOUNCE` of each stream that succeeded. -/
structure RecordingRun where
  /-- The session. -/
  udp : UdpSession
  /-- The tasks. -/
  tasks : List UdpReceiver
  /-- The tracks that were announced. -/
  announced : StreamId → Option (List Track)

/-- What comes to a connection. -/
inductive RecordingEvent where
  /-- A request. -/
  | request (r : UdpRequest)
  /-- A packet over TCP, with its four bytes of framing. -/
  | tcp (data : List UInt8) (channel : UInt8)
  /-- A packet at the socket of a task. -/
  | udp (i : ℕ) (rtp : List UInt8)

/-- The tasks that are started on the way from one session to another, when it has these tracks. -/
def startedTasks (u u' : UdpSession) (tracks : List Track) : List UdpReceiver :=
  (u'.receivers.drop u.receivers.length).map fun task => .new task.streamId task.trackId tracks true

namespace RecordingRun

/-- A new connection. -/
def new : RecordingRun := { udp := .new, tasks := [], announced := fun _ => none }

/-- A request. Tasks are started before it is processed and behind it. -/
def request (peerAddr : String) (run : RecordingRun) (r : UdpRequest) : RecordingRun :=
  let prepared := run.udp.prepare r
  let (u, reply) := run.udp.processRequest peerAddr r
  { udp := u
    tasks := run.tasks ++ startedTasks run.udp prepared run.udp.session.tracks ++
      startedTasks prepared u u.session.tracks
    announced :=
      if r.request.Is "ANNOUNCE" ∧ reply.succeeds then
        Function.update run.announced r.request.streamId (some r.request.tracks)
      else run.announced }

/-- An event. -/
def step (peerAddr : String) (run : RecordingRun) : RecordingEvent → Option RecordingRun
  | .request r => some (run.request peerAddr r)
  | .tcp _ _ | .udp _ _ => some run

/-- The packet of audio that an event brings. -/
def audioPacket (run : RecordingRun) : RecordingEvent → Option AudioPacket
  | .request _ => none
  | .tcp data channel =>
    match run.udp.session.streamId with
    | none => none
    | some streamId =>
      if (data.drop 4).length < 12 ∨ channel / 2 = 0 then none
      else
        some
          { tracks := run.udp.session.tracks, streamId, trackId := channel / 2, rtp := data.drop 4
            rtpData := some data }
  | .udp i rtp =>
    match run.tasks[i]? with
    | some (.audio streamId trackId tracks keepsPacket) =>
      if rtp.length < 12 ∨ isRtcpPacket rtp then none
      else some { tracks, streamId, trackId, rtp, rtpData := if keepsPacket then some rtp
        else none }
    | _ => none

/-- The frame of a packet has the rate that was announced for its stream, if one was. -/
def Honoured (run : RecordingRun) (e : RecordingEvent) : Prop :=
  ∀ p ∈ run.audioPacket e, ∀ frame ∈ p.frame, ∀ tracks ∈ run.announced p.streamId,
    frame.clockRate = some (trackRate tracks p.trackId p.rtp)

/-- The condition on an event: it brings no access unit for which another rate than the default was
announced. -/
def AnnouncedDefault (run : RecordingRun) (e : RecordingEvent) : Prop :=
  ∀ p ∈ run.audioPacket e, hasAacUnit p.rtp → ∀ tracks ∈ run.announced p.streamId,
    trackRate tracks p.trackId p.rtp = AAC_DEFAULT_CLOCK_RATE

end RecordingRun

/-! ## What is published -/

theorem clockRate_aacFrame {tracks : List Track} {s : StreamId} {trackId : TrackId}
    {rtp : List UInt8} {rtpData : Option (List UInt8)} {frame : MediaFrame}
    (h : aacFrame tracks s trackId rtp rtpData = some frame) :
    frame.clockRate = some (trackRate tracks trackId rtp) := by
  rw [aacFrame] at h
  split at h
  · cases h
  · rw [Option.ite_none_left_eq_some] at h
    rw [← Option.some.inj h.2]
    rfl

namespace RecordingRun

variable {run : RecordingRun}

/-- Over TCP the frame of the packet is published. -/
theorem handleRtpData_audioPacket (m : StreamManager) {ss : RtspServerSession}
    (hsession : ss.session = run.udp.session) (data : List UInt8) {channel : UInt8}
    (hchannel : channel / 2 ≠ 0) :
    ss.handleRtpData m data channel =
      (exec publishFrame m
          ((run.audioPacket (.tcp data channel)).bind AudioPacket.frame).toList).map fun m =>
        (m, ss) := by
  rw [audioPacket, ← hsession]
  cases hstream : ss.session.streamId with
  | none =>
    rw [RtspServerSession.handleRtpData, hstream]
    rfl
  | some s =>
    dsimp only
    by_cases hlen : (data.drop 4).length < 12
    · rw [RtspServerSession.handleRtpData, hstream, if_pos (.inl hlen)]
      exact if_pos hlen
    · rw [handleRtpData_audio m hstream (Nat.le_of_not_gt hlen) hchannel,
        if_neg (not_or.mpr ⟨hlen, hchannel⟩)]
      rfl

/-- Over UDP the frame of the packet is published by its task. -/
theorem receive_audioPacket (m : StreamManager) {i : ℕ} {s : StreamId} {trackId : TrackId}
    {tracks : List Track} {keepsPacket : Bool}
    (htask : run.tasks[i]? = some (.audio s trackId tracks keepsPacket)) (rtp : List UInt8) :
    UdpReceiver.receive m (.audio s trackId tracks keepsPacket) rtp =
      (exec publishFrame m ((run.audioPacket (.udp i rtp)).bind AudioPacket.frame).toList).map
        fun m => (m, .audio s trackId tracks keepsPacket) := by
  rw [audioPacket, htask]
  dsimp only
  by_cases h : rtp.length < 12 ∨ isRtcpPacket rtp
  · rw [UdpReceiver.receive, if_pos h, if_pos h]
    rfl
  · rw [receive_audio m s trackId tracks keepsPacket h, if_neg h]
    rfl

end RecordingRun

/-! ## Where the tracks go -/

/-- What leaves the tracks of a hub leaves those of the stream. -/
theorem tracks_updateHub (m : StreamManager) (s : StreamId) {g : StreamHub → StreamHub}
    (hg : ∀ h, (g h).stream.tracks = h.stream.tracks) :
    ((m.updateHub s g).getStream s).map Stream.tracks = (m.getStream s).map Stream.tracks := by
  rw [getStream, getStream, getHub_updateHub_self]
  cases m.getHub s with
  | none => rfl
  | some hub => exact congrArg some (hg hub)

theorem tracks_setStreamTracks {m : StreamManager} {s : StreamId} (hhub : (m.getHub s).isSome)
    (tracks : List Track) :
    ((m.setStreamTracks s tracks).getStream s).map Stream.tracks = some tracks := by
  obtain ⟨hub, hhub⟩ := Option.isSome_iff_exists.mp hhub
  rw [getStream, setStreamTracks, getHub_updateHub_self, hhub]
  rfl

theorem tracks_storeAnnounced (m : StreamManager) (req : RtspRequest) :
    ((storeAnnounced m req).getStream req.streamId).map Stream.tracks =
      (m.getStream req.streamId).map Stream.tracks := by
  rw [storeAnnounced]
  split
  · exact tracks_updateHub m _ fun _ => rfl
  · rfl

theorem tracks_setUnpublished (m : StreamManager) (s : StreamId) :
    ((m.setUnpublished s).1.getStream s).map Stream.tracks = (m.getStream s).map Stream.tracks := by
  rw [setUnpublished, setStatus]
  split
  · exact tracks_updateHub m s fun _ => rfl
  · rfl

/-- Behind an `ANNOUNCE` that succeeds the **stream** has the tracks, or those of a live stream if
there are none. -/
theorem tracks_announce {m : StreamManager} {session : RtspSession} {req : RtspRequest}
    {peerAddr : String} (h : (announce m session req peerAddr).2.2.succeeds) :
    ((announce m session req peerAddr).1.getStream req.streamId).map Stream.tracks =
      some (if req.tracks = [] then defaultLiveTracks else req.tracks) := by
  rw [announce] at h ⊢
  dsimp only at h ⊢
  generalize (m.createStream req.streamId .push .rtsp none).1 = m at h ⊢
  by_cases hav : Ownership.Available m.slots req.streamId (rtspPublisherId peerAddr)
  · rw [acquirePublisher_of_available hav]
    dsimp only
    obtain ⟨hub, hhub, -⟩ := available_iff_getHub.mp hav
    rw [tracks_setUnpublished, tracks_storeAnnounced, tracks_setStreamTracks]
    simp [getHub_resetStreamMedia, hhub]
  · obtain ⟨e, he⟩ := acquirePublisher_of_not_available hav
    rw [he] at h
    cases h

/-- No request gives tracks to the **session**. -/
theorem tracks_processRtspRequest (m : StreamManager) (session : RtspSession) (req : RtspRequest)
    (peerAddr newId : String) :
    (processRtspRequest m session req peerAddr newId).2.1.tracks = session.tracks := by
  have hannounce : (announce m session req peerAddr).2.1.tracks = session.tracks := by
    rw [announce]
    dsimp only
    split <;> rfl
  have hrecord : (record m session req peerAddr newId).2.1.tracks = session.tracks := by
    rw [record]
    dsimp only
    split
    · split <;> rfl
    · rfl
  have hdescribe : (describe m session req).1.tracks = session.tracks := by
    rw [describe]
    split <;> rfl
  have hplay : (rtspPlay session req).1.tracks = session.tracks := by
    rw [rtspPlay]
    split <;> rfl
  have hpause : (pause session req).1.tracks = session.tracks := by
    rw [pause]
    split <;> rfl
  rw [processRtspRequest]
  split
  · rfl
  · split
    · rfl
    · exact hdescribe
    · rfl
    · exact hplay
    · exact hpause
    · rfl
    · exact hannounce
    · exact hrecord
    · rfl

/-! ## Between two events -/

namespace UdpSession

/-- Starting a task leaves the session. -/
theorem session_startUdpReceiverForTrack (u : UdpSession) (trackId : TrackId) (rtpSocket : ℕ) :
    (u.startUdpReceiverForTrack trackId rtpSocket).session = u.session := by
  rw [startUdpReceiverForTrack]
  split
  · rfl
  · split <;> rfl

theorem session_ensureUdpReceiversStarted (u : UdpSession) :
    u.ensureUdpReceiversStarted.session = u.session := by
  rw [ensureUdpReceiversStarted]
  induction u.udpTracks.entries generalizing u with
  | nil => rfl
  | cons entry entries ih =>
    rw [List.foldl_cons, ih]
    exact session_startUdpReceiverForTrack u entry.1 entry.2

/-- What is done before a request gives no tracks to the session. -/
theorem tracks_prepare (u : UdpSession) (r : UdpRequest) :
    (u.prepare r).session.tracks = u.session.tracks := by
  rw [prepare]
  split
  · rw [setupUdpTrack]
    split
    · dsimp only
      split
      · rw [session_startUdpReceiverForTrack]
      · rfl
    · rfl
  · split <;> rfl

theorem tracks_processRequest (peerAddr : String) (u : UdpSession) (r : UdpRequest) :
    (u.processRequest peerAddr r).1.session.tracks = u.session.tracks := by
  have hprocessed :=
    tracks_processRtspRequest r.manager (u.prepare r).session r.request peerAddr r.newId
  rw [tracks_prepare] at hprocessed
  rw [processRequest]
  dsimp only
  split
  · rw [session_ensureUdpReceiversStarted]
    exact hprocessed
  · exact hprocessed

end UdpSession

namespace RecordingRun

variable {run : RecordingRun} {peerAddr : String}

/-- Neither the session nor a task has tracks. -/
structure Untracked (run : RecordingRun) : Prop where
  session : run.udp.session.tracks = []
  tasks : ∀ s trackId tracks keepsPacket, .audio s trackId tracks keepsPacket ∈ run.tasks →
    tracks = []

theorem untracked_new : Untracked new where
  session := rfl
  tasks := by simp [new]

/-- A task that is started has the tracks of the session. -/
theorem tracks_startedTasks {u u' : UdpSession} {tracks tracks' : List Track} {s : StreamId}
    {trackId : TrackId} {keepsPacket : Bool}
    (h : .audio s trackId tracks keepsPacket ∈ startedTasks u u' tracks') : tracks = tracks' := by
  obtain ⟨task, -, htask⟩ := List.mem_map.mp h
  rw [UdpReceiver.new] at htask
  split at htask
  · cases htask
  · exact (UdpReceiver.audio.inj htask).2.2.1.symm

theorem Untracked.request (h : Untracked run) (r : UdpRequest) :
    Untracked (run.request peerAddr r) where
  session := (UdpSession.tracks_processRequest peerAddr run.udp r).trans h.session
  tasks := by
    intro s trackId tracks keepsPacket hmem
    rcases List.mem_append.mp hmem with hmem | hmem
    · rcases List.mem_append.mp hmem with hmem | hmem
      · exact h.tasks s trackId tracks keepsPacket hmem
      · exact (tracks_startedTasks hmem).trans h.session
    · refine (tracks_startedTasks hmem).trans ?_
      exact (UdpSession.tracks_processRequest peerAddr run.udp r).trans h.session

/-- The rate of a packet is looked up nowhere. -/
theorem Untracked.tracks_audioPacket (h : Untracked run) {e : RecordingEvent} {p : AudioPacket}
    (hp : run.audioPacket e = some p) : p.tracks = [] := by
  cases e with
  | request r => cases hp
  | tcp data channel =>
    rw [audioPacket] at hp
    split at hp
    · cases hp
    · rw [Option.ite_none_left_eq_some] at hp
      rw [← Option.some.inj hp.2]
      exact h.session
  | udp i rtp =>
    rw [audioPacket] at hp
    split at hp
    · next s trackId tracks keepsPacket htask =>
      rw [Option.ite_none_left_eq_some] at hp
      rw [← Option.some.inj hp.2]
      exact h.tasks s trackId tracks keepsPacket (List.mem_of_getElem? htask)
    · cases hp

/-- So a frame has the rate that was announced exactly if that is the default. -/
theorem honoured_iff (h : Untracked run) (e : RecordingEvent) :
    run.Honoured e ↔ run.AnnouncedDefault e := by
  refine forall_congr' fun p => forall_congr' fun hp => ?_
  have hrate : ∀ frame ∈ p.frame, frame.clockRate = some AAC_DEFAULT_CLOCK_RATE := by
    intro frame hframe
    rw [clockRate_aacFrame hframe, h.tracks_audioPacket hp]
    rfl
  have hunit : (∃ frame, frame ∈ p.frame) ↔ hasAacUnit p.rtp = true := by
    have hnone := aacFrame_eq_none_iff p.tracks p.streamId p.trackId p.rtp p.rtpData
    rw [← Bool.not_eq_false, ← hnone, ← ne_eq, Option.ne_none_iff_exists']
    rfl
  constructor
  · intro hhonoured hhas tracks htracks
    obtain ⟨frame, hframe⟩ := hunit.mpr hhas
    have hsame := hhonoured frame hframe tracks htracks
    rw [hrate frame hframe] at hsame
    exact (Option.some.inj hsame).symm
  · intro hdefault frame hframe tracks htracks
    rw [hrate frame hframe, hdefault (hunit.mp ⟨frame, hframe⟩) tracks htracks]

end RecordingRun

/-- An `ANNOUNCE` gives its tracks to the stream. In every run of a connection the frames of audio
have the rates that were announced **exactly if** there are access units for the default rate only.
-/
theorem honoured_run_iff (peerAddr : String) (es : List RecordingEvent) :
    (∀ m session req, (announce m session req peerAddr).2.2.succeeds →
        ((announce m session req peerAddr).1.getStream req.streamId).map Stream.tracks =
          some (if req.tracks = [] then defaultLiveTracks else req.tracks)) ∧
      (Always (RecordingRun.step peerAddr) RecordingRun.Honoured .new es ↔
        Always (RecordingRun.step peerAddr) RecordingRun.AnnouncedDefault .new es) := by
  refine ⟨fun m session req => tracks_announce, ?_⟩
  refine always_iff_of_inv (I := RecordingRun.Untracked)
    (fun run e h => RecordingRun.honoured_iff h e)
    (fun run e run' h _ hstep => ?_) RecordingRun.untracked_new
  cases e with
  | request r =>
    obtain rfl := Option.some.inj hstep
    exact h.request r
  | tcp data channel =>
    obtain rfl := Option.some.inj hstep
    exact h
  | udp i rtp =>
    obtain rfl := Option.some.inj hstep
    exact h

instance (run : RecordingRun) (e : RecordingEvent) : Decidable (run.Honoured e) :=
  inferInstanceAs
    (Decidable (∀ p ∈ run.audioPacket e, ∀ frame ∈ p.frame, ∀ tracks ∈ run.announced p.streamId,
    frame.clockRate = some (trackRate tracks p.trackId p.rtp)))

/-- Video, and audio at 48 kHz. -/
def announce48 : UdpRequest where
  request :=
    { parts := 3, method := "ANNOUNCE", streamId := "live", cseq := "1", transportIsTcp := false,
      clientPort := none
      tracks := [⟨0, .h264, 96, 90000⟩, ⟨1, .aac, 97, 48000⟩], sps := none, pps := none }
  trackId := 0
  newId := "1"
  manager := .new
  bound := false

/-- The audio is set up over UDP. -/
def setupAudio : UdpRequest where
  request :=
    { parts := 3, method := "SETUP", streamId := "live", cseq := "2", transportIsTcp := false
      clientPort := some (5000, 5001), tracks := [], sps := none, pps := none }
  trackId := 1
  newId := "1"
  manager := .new
  bound := true

/-- The client records. -/
def recordLive : UdpRequest where
  request :=
    { parts := 3, method := "RECORD", streamId := "live", cseq := "3", transportIsTcp := false,
      clientPort := none
      tracks := [], sps := none, pps := none }
  trackId := 0
  newId := "1"
  manager := .new
  bound := false

/-- Over TCP and over UDP the rate of an access unit is **44100**. -/
theorem not_honoured_announce48 :
    ¬ Always (RecordingRun.step "10.0.0.1:4000") RecordingRun.Honoured .new
        [.request announce48, .request recordLive,
          .tcp ([0x24, 2, 0, 18] ++ (hbrPacket oneUnit).toBytes) 2] ∧
      ¬ Always (RecordingRun.step "10.0.0.1:4000") RecordingRun.Honoured .new
        [.request announce48, .request setupAudio, .request recordLive,
            .udp 0 (hbrPacket oneUnit).toBytes] := by
  decide +kernel

end VcpMediaServer
