import VcpMediaServer.RtmpConnection
import VcpMediaServer.RtspServerSession
import Mathlib.Data.List.Infix

/-!
# Pullers

`rtmp/puller.rs` and `rtsp/puller.rs`: tasks that play a stream of another server
and relay it to a local stream. They **never look at the slot** of that stream, and
a stream that is there already is taken over as it is. The receiver of UDP packets
is here too, which the RTSP server and the RTSP puller start alike.

* `UdpReceiver` — a task that takes the packets of one track, for one stream.
* `RtmpPull.step` — an RTMP puller, from the stream it makes to its last message.
* `RtspPull.step` — an RTSP puller, over TCP or UDP.
-/

namespace VcpMediaServer

open Ownership StreamManager

/-! ## UDP -/

/-- `is_rtcp_packet`. -/
def isRtcpPacket (data : List UInt8) : Bool :=
  2 ≤ data.length && data.getD 1 0 ∈ ([200, 201, 202, 203] : List UInt8)

/-- A task that receives the packets of a track. -/
inductive UdpReceiver where
  /-- Track 0, which is H264. -/
  | video (ingest : H264RtpIngest)
  /-- Another track, which is AAC; the server keeps the packet with the frame and the
  puller does not. -/
  | audio (streamId : StreamId) (trackId : TrackId) (tracks : List Track) (keepsPacket : Bool)
  deriving DecidableEq, Repr

namespace UdpReceiver

/-- The task at its start. -/
def new (s : StreamId) (trackId : TrackId) (tracks : List Track) (keepsPacket : Bool) :
    UdpReceiver :=
  if trackId = 0 then .video (.new s) else .audio s trackId tracks keepsPacket

/-- The stream that the task works for. -/
def streamId : UdpReceiver → StreamId
  | .video ingest => ingest.streamId
  | .audio s _ _ _ => s

@[simp] theorem new_streamId (s : StreamId) (trackId : TrackId) (tracks : List Track)
    (keepsPacket : Bool) : (UdpReceiver.new s trackId tracks keepsPacket).streamId = s := by
  rw [new]
  split <;> rfl

/-- One packet; `none` if the push of a frame never returns. -/
def receive (m : StreamManager) (rx : UdpReceiver) (rtp : List UInt8) :
    Option (StreamManager × UdpReceiver) :=
  if rtp.length < 12 ∨ isRtcpPacket rtp then some (m, rx)
  else
    match rx with
    | .video ingest => (ingest.ingestRtpPacket m rtp).map fun (m, ingest, _) => (m, .video ingest)
    | .audio s trackId tracks keepsPacket =>
      match aacFrame tracks s trackId rtp (if keepsPacket then some rtp else none) with
      | none => some (m, rx)
      | some frame => (m.publishFrame frame).map fun m => (m, rx)

/-- The end of a task of the puller: what is left of a video track is published. -/
def finish (m : StreamManager) : UdpReceiver → Option StreamManager
  | .video ingest => (ingest.flushAccessUnit m).map Prod.fst
  | .audio _ _ _ _ => some m

variable {m m' : StreamManager} {rx rx' : UdpReceiver} {rtp : List UInt8}

theorem onlyAt_receive (h : receive m rx rtp = some (m', rx')) :
    OnlyAt rx.streamId m m' ∧ rx'.streamId = rx.streamId := by
  unfold receive at h
  split at h
  · cases h
    exact ⟨.refl _ _, rfl⟩
  · cases rx with
    | video ingest =>
      obtain ⟨⟨m₁, ingest', b⟩, h₁, heq⟩ := Option.map_eq_some_iff.mp h
      cases heq
      exact H264RtpIngest.onlyAt_ingestRtpPacket h₁
    | audio s trackId tracks keepsPacket =>
      dsimp only at h
      split at h
      · cases h
        exact ⟨.refl _ _, rfl⟩
      · next frame hframe =>
        obtain ⟨m₁, h₁, heq⟩ := Option.map_eq_some_iff.mp h
        cases heq
        have hid : frame.streamId = s := aacFrame_streamId hframe
        exact ⟨hid ▸ onlyAt_publishFrame h₁, rfl⟩

theorem onlyAt_finish (h : finish m rx = some m') : OnlyAt rx.streamId m m' := by
  cases rx with
  | video ingest =>
    obtain ⟨⟨m₁, ingest', b⟩, h₁, heq⟩ := Option.map_eq_some_iff.mp h
    cases heq
    exact (H264RtpIngest.onlyAt_flushAccessUnit h₁).1
  | audio s trackId tracks keepsPacket =>
    cases h
    exact .refl s m

end UdpReceiver

/-- What a step of a puller does to the streams: at most the one stream changes, and
that only **while it is pulled** or when its pull starts. No slot is taken. -/
structure Pulls (s : StreamId) (active starts : Prop) (m m' : StreamManager) : Prop where
  slots : m'.slots = m.slots ∨ (starts ∧ m'.slots = create m.slots s)
  media : ∀ k, m'.media k ≠ m.media k → k = s ∧ (active ∨ starts)

section Pulls

variable {s : StreamId} {active starts : Prop} {m m' : StreamManager}

theorem Pulls.refl (s : StreamId) (active starts : Prop) (m : StreamManager) :
    Pulls s active starts m m :=
  ⟨.inl rfl, fun _ hk => absurd rfl hk⟩

/-- A call that touches the stream while it is pulled. -/
theorem Pulls.of_onlyAt (hactive : active) (h : OnlyAt s m m') : Pulls s active starts m m' :=
  ⟨.inl h.slots, fun _ hk => ⟨(h.of_media_ne hk).1, .inl hactive⟩⟩

/-- The stream is made, and then calls touch it. -/
theorem Pulls.of_createStream (hstarts : starts) {protocol : StreamProtocol} {url : Option String}
    (h : OnlyAt s (m.createStream s .pull protocol url).1 m') : Pulls s active starts m m' := by
  refine ⟨.inr ⟨hstarts, ?_⟩, fun k hk => ?_⟩
  · rw [h.slots, slots_createStream]
  · rw [← media_createStream m s k .pull protocol url] at hk
    exact ⟨(h.of_media_ne hk).1, .inr hstarts⟩

/-- A puller acts under **no ids**, whichever it might have. -/
theorem Pulls.acts {makes : Option StreamId} (h : Pulls s active starts m m') (own : String → Prop)
    (takes : Option StreamId) (hmakes : starts → makes = some s) :
    Acts own makes takes m.slots m'.slots := by
  rcases h.slots with hslots | ⟨hstarts, hslots⟩
  · rw [hslots]
    exact .refl _ _ _ _
  · rw [hslots, hmakes hstarts]
    exact acts_create _ _ _ _

/-- A free slot **stays free**. -/
theorem Pulls.free {k : StreamId} (h : Pulls s active starts m m')
    (hfree : m.currentPublisher k = none) : m'.currentPublisher k = none := by
  rw [currentPublisher_eq_none_iff] at hfree ⊢
  intro p hp
  rcases h.slots with hslots | ⟨-, hslots⟩
  · exact hfree p (hslots ▸ hp)
  · rw [hslots, holds_create] at hp
    exact hfree p hp

end Pulls

/-! ## RTMP -/

/-- Where `RtmpPuller::pull` is. -/
inductive RtmpPullPhase where
  /-- The remote server is asked for a stream to play on. -/
  | connecting
  /-- `wait_for_play_start`. -/
  | waiting
  /-- The relay loop. -/
  | relaying
  /-- It has returned, or its task is gone. -/
  | ended
  deriving DecidableEq, Repr

/-- `RtmpPuller::pull`. -/
structure RtmpPull where
  /-- The local stream. -/
  localStreamId : StreamId
  /-- Where it is pulled from. -/
  remoteUrl : String
  /-- Where the task is. -/
  phase : RtmpPullPhase
  deriving DecidableEq, Repr

/-- What happens to an RTMP puller. -/
inductive RtmpPullEvent where
  /-- The remote server has answered `connect` and `createStream`. -/
  | created
  /-- A message is read. -/
  | message (msg : RtmpMessage)
  /-- The remote server was waited for long enough. -/
  | waitOver
  /-- The connection is closed, or fails. -/
  | closed
  deriving DecidableEq, Repr

/-- What a message says to a puller that waits for the play to start. -/
inductive PlayAnswer where
  | started
  | failed
  | nothing
  deriving DecidableEq, Repr

namespace RtmpPull

open RtmpConnection

/-- The puller of `pull(remote_url, local_stream_id)`. -/
def new (localStreamId : StreamId) (remoteUrl : String) : RtmpPull :=
  { localStreamId, remoteUrl, phase := .connecting }

/-- `code.contains(word)`. -/
def containsWord (word code : String) : Bool := word.toList <:+: code.toList

/-- What `wait_for_play_start` finds in a message. -/
def playAnswer (msg : RtmpMessage) : PlayAnswer :=
  if msg.msgType = 0x14 ∨ msg.msgType = 0x11 then
    match Amf0.parseCommand msg.payload with
    | .ok (cmd, args) =>
      if cmd = "onStatus" then
        match args[2]? with
        | some (Amf0Value.object info) =>
          match info.lookup "code" with
          | some (Amf0Value.string code) =>
            if code = "NetStream.Play.Start" then .started
            else if containsWord "Failed" code || containsWord "NotFound" code then .failed
            else .nothing
          | _ => .nothing
        | _ => .nothing
      else if cmd = "_error" then .failed
      else .nothing
    | .error _ => .nothing
  else .nothing

/-- `extract_and_store_sps_pps`: the record is read as the server reads it. -/
def extractAndStoreSpsPps (m : StreamManager) (s : StreamId) (data : List UInt8) : StreamManager :=
  if avcPacketType data = 0x00 then
    match sequenceHeaderConfig data with
    | none => m
    | some (sps, pps) => m.setStreamSpsPps s sps pps
  else m

/-- `rtmp_message_to_frame`, for a message that it does not panic on. -/
def rtmpMessageToFrame (msg : RtmpMessage) (s : StreamId) : Option MediaFrame :=
  if msg.msgType = 0x09 then
    if avcPacketType msg.payload = 0x01 then videoFrame s msg else none
  else if msg.msgType = 0x08 then
    if msg.payload.length > 1 ∧ msg.payload.getD 1 0 = 0x00 then none
    else if audioData msg.payload = [] then none
    else some (audioFrame s msg)
  else none

/-- `video_payload_to_frame` takes the slice behind the tag header of a message that
has none. -/
def panicsOn (msg : RtmpMessage) : Bool :=
  msg.msgType == 0x09 && avcPacketType msg.payload == 0x01 && msg.payload.length < 5

/-- A message in the relay loop. -/
def relay (m : StreamManager) (s : StreamId) (msg : RtmpMessage) : Option StreamManager :=
  match rtmpMessageToFrame msg s with
  | some frame => m.publishFrame frame
  | none => some (if msg.msgType = 0x09 then extractAndStoreSpsPps m s msg.payload else m)

/-- One event; `none` if it cannot happen, or the push of a frame never returns. -/
def step (m : StreamManager) (p : RtmpPull) : RtmpPullEvent → Option (StreamManager × RtmpPull)
  | .created =>
    if p.phase = .connecting then
      let m := (m.createStream p.localStreamId .pull .rtmp (some p.remoteUrl)).1
      let m := ((m.setUnpublished p.localStreamId).1.setPublishing p.localStreamId).1
      some (m, { p with phase := .waiting })
    else none
  | .message msg =>
    match p.phase with
    | .waiting =>
      let m := if msg.msgType = 0x09 then extractAndStoreSpsPps m p.localStreamId msg.payload else m
      match playAnswer msg with
      | .started => some (m, { p with phase := .relaying })
      | .failed => some (m, { p with phase := .ended })
      | .nothing => some (m, p)
    | .relaying =>
      if panicsOn msg then some (m, { p with phase := .ended })
      else (relay m p.localStreamId msg).map fun m => (m, p)
    | _ => none
  | .waitOver => if p.phase = .waiting then some (m, { p with phase := .relaying }) else none
  | .closed =>
    match p.phase with
    | .ended => none
    | .relaying => some ((m.setStopped p.localStreamId).1, { p with phase := .ended })
    | _ => some (m, { p with phase := .ended })

/-- The stream is being pulled. -/
def IsActive (p : RtmpPull) : Prop := p.phase = .waiting ∨ p.phase = .relaying

instance (p : RtmpPull) : Decidable p.IsActive := inferInstanceAs (Decidable (_ ∨ _))

variable {m m' : StreamManager} {p p' : RtmpPull} {e : RtmpPullEvent}

theorem onlyAt_extractAndStoreSpsPps (m : StreamManager) (s : StreamId) (data : List UInt8) :
    OnlyAt s m (extractAndStoreSpsPps m s data) := by
  rw [extractAndStoreSpsPps]
  split
  · split
    · exact .refl s m
    · exact onlyAt_setStreamSpsPps m s _ _
  · exact .refl s m

theorem rtmpMessageToFrame_streamId {msg : RtmpMessage} {s : StreamId} {frame : MediaFrame}
    (h : rtmpMessageToFrame msg s = some frame) : frame.streamId = s := by
  rw [rtmpMessageToFrame] at h
  split at h
  · rw [Option.ite_none_right_eq_some] at h
    exact videoFrame_streamId h.2
  · rw [Option.ite_none_right_eq_some] at h
    obtain ⟨-, h⟩ := h
    split at h
    · cases h
    · rw [Option.ite_none_left_eq_some] at h
      rw [← Option.some.inj h.2]
      rfl

theorem onlyAt_relay {s : StreamId} {msg : RtmpMessage} (h : relay m s msg = some m') :
    OnlyAt s m m' := by
  rw [relay] at h
  split at h
  · next frame hframe =>
    rw [← rtmpMessageToFrame_streamId hframe]
    exact onlyAt_publishFrame h
  · cases h
    split
    · exact onlyAt_extractAndStoreSpsPps m s _
    · exact .refl s m

/-- What an event does to the streams. -/
theorem step_pulls (h : step m p e = some (m', p')) :
    Pulls p.localStreamId p.IsActive (e = .created) m m' := by
  cases e with
  | created =>
    rw [step, Option.ite_none_right_eq_some] at h
    obtain ⟨-, h⟩ := h
    cases h
    exact .of_createStream rfl ((onlyAt_setStatus _ _ .unpublished).trans
      (onlyAt_setStatus _ _ .publishing))
  | message msg =>
    rcases hphase : p.phase with _ | _ | _ | _ <;> simp only [step, hphase] at h
    · cases h
    · have honly : OnlyAt p.localStreamId m
          (if msg.msgType = 0x09 then extractAndStoreSpsPps m p.localStreamId msg.payload
              else m) := by
        split
        · exact onlyAt_extractAndStoreSpsPps m _ _
        · exact .refl _ m
      split at h <;> cases h <;> exact .of_onlyAt (.inl hphase) honly
    · split at h
      · cases h
        exact .refl _ _ _ m
      · obtain ⟨m₁, h₁, heq⟩ := Option.map_eq_some_iff.mp h
        cases heq
        exact .of_onlyAt (.inr hphase) (onlyAt_relay h₁)
    · cases h
  | waitOver =>
    rw [step, Option.ite_none_right_eq_some] at h
    obtain ⟨-, h⟩ := h
    cases h
    exact .refl _ _ _ m
  | closed =>
    rcases hphase : p.phase with _ | _ | _ | _ <;> simp only [step, hphase] at h <;> cases h
    · exact .refl _ _ _ m
    · exact .refl _ _ _ m
    · exact .of_onlyAt (.inr hphase) (onlyAt_setStatus m _ .stopped)

/-- Only the phase changes, and a pull that goes on has started. -/
theorem step_isActive (h : step m p e = some (m', p')) :
    p' = { p with phase := p'.phase } ∧ (p'.IsActive → p.IsActive ∨ e = .created) := by
  cases e with
  | created =>
    rw [step, Option.ite_none_right_eq_some] at h
    obtain ⟨-, h⟩ := h
    cases h
    exact ⟨rfl, fun _ => .inr rfl⟩
  | message msg =>
    rcases hphase : p.phase with _ | _ | _ | _ <;> simp only [step, hphase] at h
    · cases h
    · split at h <;> cases h <;> exact ⟨rfl, fun _ => .inl (.inl hphase)⟩
    · split at h
      · cases h
        exact ⟨rfl, fun _ => .inl (.inr hphase)⟩
      · obtain ⟨m₁, -, heq⟩ := Option.map_eq_some_iff.mp h
        cases heq
        exact ⟨rfl, .inl⟩
    · cases h
  | waitOver =>
    rw [step, Option.ite_none_right_eq_some] at h
    obtain ⟨hphase, h⟩ := h
    cases h
    exact ⟨rfl, fun _ => .inl (.inl hphase)⟩
  | closed =>
    rcases hphase : p.phase with _ | _ | _ | _ <;> simp only [step, hphase] at h <;> cases h <;>
      exact ⟨rfl, fun hactive => by simp [IsActive] at hactive⟩

end RtmpPull

/-! ## RTSP -/

/-- Where `RtspPuller::pull` and the task that it starts are. -/
inductive RtspPullPhase where
  /-- The remote server is asked for a description. -/
  | connecting
  /-- The tracks of the stream are being set up. -/
  | settingUp (tracks : List Track)
  /-- `rtp_receive_loop`. -/
  | receivingTcp (ingest : H264RtpIngest) (tracks : List Track)
  /-- `udp_receive_loop`: one task for each track, and nothing ends them but an error
  of their sockets. -/
  | receivingUdp (receivers : List UdpReceiver)
  /-- Nothing runs any more. -/
  | ended
  deriving DecidableEq, Repr

/-- `RtspPuller::pull`. -/
structure RtspPull where
  /-- The local stream. -/
  localStreamId : StreamId
  /-- Where it is pulled from. -/
  remoteUrl : String
  /-- Where the tasks are. -/
  phase : RtspPullPhase
  deriving DecidableEq, Repr

/-- What happens to an RTSP puller. -/
inductive RtspPullEvent where
  /-- The remote server has answered `DESCRIBE`: the tracks and parameter sets of
  the SDP. -/
  | described (tracks : List Track) (sps pps : Option (List UInt8))
  /-- It has answered `SETUP` and `PLAY`, over TCP or with UDP sockets for tracks. -/
  | playing (udpTracks : Option (List TrackId))
  /-- Something fails on the way there. -/
  | failed
  /-- An interleaved packet is read. -/
  | tcpPacket (channel : UInt8) (rtp : List UInt8)
  /-- The TCP connection fails. -/
  | tcpEnd
  /-- The keepalive cannot be written, and the receive loop is dropped. -/
  | keepaliveFailed
  /-- A packet is received by a UDP task. -/
  | udpPacket (i : ℕ) (rtp : List UInt8)
  /-- The socket of a UDP task fails. -/
  | udpEnd (i : ℕ)
  deriving DecidableEq, Repr

namespace RtspPull

/-- The puller of `pull(remote_url, local_stream_id)`. -/
def new (localStreamId : StreamId) (remoteUrl : String) : RtspPull :=
  { localStreamId, remoteUrl, phase := .connecting }

/-- The stream is made, and the parameter sets of the SDP are stored if it has both. -/
def createLocal (m : StreamManager) (p : RtspPull) (sps pps : Option (List UInt8)) :
    StreamManager :=
  let m := (m.createStream p.localStreamId .pull .rtsp (some p.remoteUrl)).1
  let m := (m.setUnpublished p.localStreamId).1
  match sps, pps with
  | some sps, some pps => m.setStreamSpsPps p.localStreamId sps pps
  | _, _ => m

/-- One turn of `rtp_receive_loop`. -/
def receiveTcp (m : StreamManager) (s : StreamId) (ingest : H264RtpIngest) (tracks : List Track)
    (channel : UInt8) (rtp : List UInt8) : Option (StreamManager × H264RtpIngest) :=
  if rtp.length < 12 then some (m, ingest)
  else if channel / 2 = 0 then
    (ingest.ingestRtpPacket m rtp).map fun (m, ingest, _) => (m, ingest)
  else
    match aacFrame tracks s (channel / 2) rtp none with
    | none => some (m, ingest)
    | some frame => (m.publishFrame frame).map fun m => (m, ingest)

/-- One event; `none` if it cannot happen, or the push of a frame never returns. -/
def step (m : StreamManager) (p : RtspPull) : RtspPullEvent → Option (StreamManager × RtspPull)
  | .described tracks sps pps =>
    if p.phase = .connecting then
      let tracks := if tracks = [] then defaultLiveTracks else tracks
      some (createLocal m p sps pps, { p with phase := .settingUp tracks })
    else none
  | .playing udpTracks =>
    match p.phase with
    | .settingUp tracks =>
      let m := (m.setPublishing p.localStreamId).1
      match udpTracks with
      | none => some (m, { p with phase := .receivingTcp (.new p.localStreamId) tracks })
      | some ids =>
        let receivers := ids.map fun id => UdpReceiver.new p.localStreamId id tracks false
        some (m, { p with phase := .receivingUdp receivers })
    | _ => none
  | .failed =>
    match p.phase with
    | .connecting => some (m, { p with phase := .ended })
    | .settingUp _ => some (m, { p with phase := .ended })
    | _ => none
  | .tcpPacket channel rtp =>
    match p.phase with
    | .receivingTcp ingest tracks =>
      (receiveTcp m p.localStreamId ingest tracks channel rtp).map fun (m, ingest) =>
        (m, { p with phase := .receivingTcp ingest tracks })
    | _ => none
  | .tcpEnd =>
    match p.phase with
    | .receivingTcp ingest _ =>
      (ingest.flushAccessUnit m).map fun (m, _) =>
        ((m.setUnpublished p.localStreamId).1, { p with phase := .ended })
    | _ => none
  | .keepaliveFailed =>
    match p.phase with
    | .receivingTcp _ _ => some (m, { p with phase := .ended })
    -- the tasks that receive over UDP are not dropped with the loop that started them
    | .receivingUdp _ => some (m, p)
    | _ => none
  | .udpPacket i rtp =>
    match p.phase with
    | .receivingUdp receivers =>
      receivers[i]?.bind fun rx => (rx.receive m rtp).map fun (m, rx) =>
        (m, { p with phase := .receivingUdp (receivers.set i rx) })
    | _ => none
  | .udpEnd i =>
    match p.phase with
    | .receivingUdp receivers =>
      receivers[i]?.bind fun rx => (rx.finish m).map fun m =>
        (m, { p with phase := .receivingUdp (receivers.eraseIdx i) })
    | _ => none

/-- The event that makes the stream. -/
def starts : RtspPullEvent → Bool
  | .described _ _ _ => true
  | _ => false

/-- The stream is being pulled. -/
def isActive (p : RtspPull) : Bool :=
  match p.phase with
  | .connecting => false
  | .settingUp _ => true
  | .receivingTcp _ _ => true
  | .receivingUdp receivers => !receivers.isEmpty
  | .ended => false

/-- All that a puller receives is for its stream. -/
def Consistent (p : RtspPull) : Prop :=
  match p.phase with
  | .receivingTcp ingest _ => ingest.streamId = p.localStreamId
  | .receivingUdp receivers => ∀ rx ∈ receivers, rx.streamId = p.localStreamId
  | _ => True

variable {m m' : StreamManager} {p p' : RtspPull} {e : RtspPullEvent}

/-- While a UDP task runs, the stream is being pulled. -/
theorem isActive_of_receiver {receivers : List UdpReceiver} {rx : UdpReceiver} {i : ℕ}
    (hphase : p.phase = .receivingUdp receivers) (h : receivers[i]? = some rx) :
    p.isActive = true := by
  rw [isActive, hphase]
  rcases receivers with _ | ⟨rx₀, receivers⟩
  · simp at h
  · rfl

theorem onlyAt_receiveTcp {s : StreamId} {ingest ingest' : H264RtpIngest} {tracks : List Track}
    {channel : UInt8} {rtp : List UInt8} (hid : ingest.streamId = s)
    (h : receiveTcp m s ingest tracks channel rtp = some (m', ingest')) :
    OnlyAt s m m' ∧ ingest'.streamId = s := by
  rw [receiveTcp] at h
  split at h
  · cases h
    exact ⟨.refl _ _, hid⟩
  · split at h
    · obtain ⟨⟨m₁, ingest₁, b⟩, h₁, heq⟩ := Option.map_eq_some_iff.mp h
      cases heq
      rw [← hid]
      exact H264RtpIngest.onlyAt_ingestRtpPacket h₁
    · split at h
      · cases h
        exact ⟨.refl _ _, hid⟩
      · next frame hframe =>
        obtain ⟨m₁, h₁, heq⟩ := Option.map_eq_some_iff.mp h
        cases heq
        rw [← aacFrame_streamId hframe]
        exact ⟨onlyAt_publishFrame h₁, hid.trans (aacFrame_streamId hframe).symm⟩

theorem onlyAt_createLocal (m : StreamManager) (p : RtspPull) (sps pps : Option (List UInt8)) :
    OnlyAt p.localStreamId (m.createStream p.localStreamId .pull .rtsp (some p.remoteUrl)).1
      (createLocal m p sps pps) := by
  unfold createLocal
  dsimp only
  split
  · exact (onlyAt_setStatus _ _ .unpublished).trans (onlyAt_setStreamSpsPps _ _ _ _)
  · exact onlyAt_setStatus _ _ .unpublished

/-- What a step comes to: the streams and the phase behind it. -/
inductive Goes (m : StreamManager) (p : RtspPull) : RtspPullEvent → StreamManager → RtspPullPhase →
    Prop where
  | described (tracks next : List Track) (sps pps : Option (List UInt8)) :
      Goes m p (.described tracks sps pps) (createLocal m p sps pps) (.settingUp next)
  | playing {tracks : List Track} {udpTracks : Option (List TrackId)} {phase : RtspPullPhase}
      (hphase : p.phase = .settingUp tracks)
      (hnew : phase = .receivingTcp (.new p.localStreamId) tracks ∨ ∃ ids : List TrackId,
        phase = .receivingUdp (ids.map fun id => UdpReceiver.new p.localStreamId id tracks false)) :
      Goes m p (.playing udpTracks) (m.setPublishing p.localStreamId).1 phase
  | failed : Goes m p .failed m .ended
  | tcpPacket {ingest ingest' : H264RtpIngest} {tracks : List Track} {channel : UInt8}
    {rtp : List UInt8}
      {m' : StreamManager} (hphase : p.phase = .receivingTcp ingest tracks)
      (hreceive : receiveTcp m p.localStreamId ingest tracks channel rtp = some (m', ingest')) :
      Goes m p (.tcpPacket channel rtp) m' (.receivingTcp ingest' tracks)
  | tcpEnd {ingest : H264RtpIngest} {tracks : List Track} {m' : StreamManager}
      {flushed : H264RtpIngest × Bool} (hphase : p.phase = .receivingTcp ingest tracks)
      (hflush : ingest.flushAccessUnit m = some (m', flushed)) :
      Goes m p .tcpEnd (m'.setUnpublished p.localStreamId).1 .ended
  | keepaliveFailed {phase : RtspPullPhase} (hphase : phase = .ended ∨ phase = p.phase) :
      Goes m p .keepaliveFailed m phase
  | udpPacket {receivers : List UdpReceiver} {i : ℕ} {rx rx' : UdpReceiver} {rtp : List UInt8}
    {m' : StreamManager}
      (hphase : p.phase = .receivingUdp receivers) (hrx : receivers[i]? = some rx)
      (hreceive : rx.receive m rtp = some (m', rx')) :
      Goes m p (.udpPacket i rtp) m' (.receivingUdp (receivers.set i rx'))
  | udpEnd {receivers : List UdpReceiver} {i : ℕ} {rx : UdpReceiver} {m' : StreamManager}
      (hphase : p.phase = .receivingUdp receivers) (hrx : receivers[i]? = some rx)
      (hfinish : rx.finish m = some m') :
      Goes m p (.udpEnd i) m' (.receivingUdp (receivers.eraseIdx i))

/-- Only the phase of the puller changes. -/
theorem goes_of_step (h : step m p e = some (m', p')) :
    ∃ phase, p' = { p with phase } ∧ Goes m p e m' phase := by
  cases e with
  | described tracks sps pps =>
    obtain ⟨-, h⟩ := Option.ite_none_right_eq_some.mp h
    cases h
    exact ⟨_, rfl, .described tracks _ sps pps⟩
  | playing udpTracks =>
    dsimp only [step] at h
    split at h
    · next tracks hphase =>
      split at h <;> cases h
      · exact ⟨_, rfl, .playing hphase (.inl rfl)⟩
      · exact ⟨_, rfl, .playing hphase (.inr ⟨_, rfl⟩)⟩
    · cases h
  | failed =>
    dsimp only [step] at h
    split at h <;> cases h <;> exact ⟨_, rfl, .failed⟩
  | tcpPacket channel rtp =>
    dsimp only [step] at h
    split at h
    · next ingest tracks hphase =>
      obtain ⟨received, hreceive, heq⟩ := Option.map_eq_some_iff.mp h
      cases heq
      exact ⟨_, rfl, .tcpPacket hphase hreceive⟩
    · cases h
  | tcpEnd =>
    dsimp only [step] at h
    split at h
    · next ingest tracks hphase =>
      obtain ⟨flushed, hflush, heq⟩ := Option.map_eq_some_iff.mp h
      cases heq
      exact ⟨_, rfl, .tcpEnd hphase hflush⟩
    · cases h
  | keepaliveFailed =>
    dsimp only [step] at h
    split at h <;> cases h
    · exact ⟨_, rfl, .keepaliveFailed (.inl rfl)⟩
    · exact ⟨_, rfl, .keepaliveFailed (.inr rfl)⟩
  | udpPacket i rtp =>
    dsimp only [step] at h
    split at h
    · next receivers hphase =>
      obtain ⟨rx, hrx, h⟩ := Option.bind_eq_some_iff.mp h
      obtain ⟨received, hreceive, heq⟩ := Option.map_eq_some_iff.mp h
      cases heq
      exact ⟨_, rfl, .udpPacket hphase hrx hreceive⟩
    · cases h
  | udpEnd i =>
    dsimp only [step] at h
    split at h
    · next receivers hphase =>
      obtain ⟨rx, hrx, h⟩ := Option.bind_eq_some_iff.mp h
      obtain ⟨finished, hfinish, heq⟩ := Option.map_eq_some_iff.mp h
      cases heq
      exact ⟨_, rfl, .udpEnd hphase hrx hfinish⟩
    · cases h

/-- **One step** of a puller: at most its stream changes, while it is pulled or when
its pull starts. -/
theorem step_pulls (hp : p.Consistent) (h : step m p e = some (m', p')) :
    Pulls p.localStreamId (p.isActive = true) (starts e = true) m m' := by
  obtain ⟨phase, -, hgoes⟩ := goes_of_step h
  cases hgoes with
  | described => exact .of_createStream rfl (onlyAt_createLocal m p _ _)
  | playing hphase => exact .of_onlyAt (by rw [isActive, hphase]) (onlyAt_setStatus m _ .publishing)
  | failed => exact .refl _ _ _ m
  | tcpPacket hphase hreceive =>
    rw [Consistent, hphase] at hp
    exact .of_onlyAt (by rw [isActive, hphase]) (onlyAt_receiveTcp hp hreceive).1
  | tcpEnd hphase hflush =>
    rw [Consistent, hphase] at hp
    have honly := (H264RtpIngest.onlyAt_flushAccessUnit hflush).1
    rw [hp] at honly
    exact .of_onlyAt (by rw [isActive, hphase]) (honly.trans (onlyAt_setStatus _ _ .unpublished))
  | keepaliveFailed => exact .refl _ _ _ m
  | udpPacket hphase hrx hreceive =>
    rw [Consistent, hphase] at hp
    rw [← hp _ (List.mem_of_getElem? hrx)]
    exact .of_onlyAt (isActive_of_receiver hphase hrx) (UdpReceiver.onlyAt_receive hreceive).1
  | udpEnd hphase hrx hfinish =>
    rw [Consistent, hphase] at hp
    rw [← hp _ (List.mem_of_getElem? hrx)]
    exact .of_onlyAt (isActive_of_receiver hphase hrx) (UdpReceiver.onlyAt_finish hfinish)

/-- Only the phase changes, what a puller receives **stays** for its stream, and a pull
that goes on has started. -/
theorem step_consistent (hp : p.Consistent) (h : step m p e = some (m', p')) :
    p' = { p with phase := p'.phase } ∧ p'.Consistent ∧
      (p'.isActive = true → p.isActive = true ∨ starts e = true) := by
  obtain ⟨phase, rfl, hgoes⟩ := goes_of_step h
  refine ⟨rfl, ?_⟩
  cases hgoes with
  | described => exact ⟨trivial, fun _ => .inr rfl⟩
  | @playing tracks _ _ hphase hnew =>
    refine ⟨?_, fun _ => .inl (by rw [isActive, hphase])⟩
    rcases hnew with rfl | ⟨ids, rfl⟩
    · exact rfl
    · intro rx hrx
      obtain ⟨id, -, rfl⟩ := List.mem_map.mp hrx
      exact UdpReceiver.new_streamId _ id tracks false
  | failed => exact ⟨trivial, fun hactive => absurd hactive Bool.false_ne_true⟩
  | tcpPacket hphase hreceive =>
    rw [Consistent, hphase] at hp
    exact ⟨(onlyAt_receiveTcp hp hreceive).2, fun _ => .inl (by rw [isActive, hphase])⟩
  | tcpEnd => exact ⟨trivial, fun hactive => absurd hactive Bool.false_ne_true⟩
  | keepaliveFailed hphase =>
    rcases hphase with rfl | rfl
    · exact ⟨trivial, fun hactive => absurd hactive Bool.false_ne_true⟩
    · exact ⟨hp, .inl⟩
  | udpPacket hphase hrx hreceive =>
    rw [Consistent, hphase] at hp
    refine ⟨fun rx hmem => ?_, fun _ => .inl (isActive_of_receiver hphase hrx)⟩
    rcases List.mem_or_eq_of_mem_set hmem with hmem | rfl
    · exact hp rx hmem
    · exact (UdpReceiver.onlyAt_receive hreceive).2.trans (hp _ (List.mem_of_getElem? hrx))
  | udpEnd hphase hrx hfinish =>
    rw [Consistent, hphase] at hp
    refine ⟨fun rx hmem => ?_, fun _ => .inl (isActive_of_receiver hphase hrx)⟩
    exact hp rx (List.mem_of_mem_eraseIdx hmem)

end RtspPull

end VcpMediaServer
