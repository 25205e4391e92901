import VcpMediaServer.Eviction
import VcpMediaServer.H264RoundTrip
import VcpMediaServer.RtspServerSession

/-!
# Interleaved channels

Over TCP the packets of a track travel on a pair of channels that `SETUP` agrees on. The session
keeps the pairs without their tracks, and nobody reads them: what `PLAY` sends is on the channel
with the **number of the track**, and what a publisher sends is taken for the track with **half**
the number of the channel.

* `egressRtpPackets`, `playFrame` — what `PLAY` sends of a frame.
* `setupAll`, `negotiated` — a run of `SETUP`s, and the pair that a track has after it.
* `handleRtpData_eq` — the track of a packet.
* `channels_iff` — when the two conventions meet the negotiated channels.
-/

namespace VcpMediaServer

/-! ## `PLAY` -/

/-- `rtp_payload_type_for_codec`. -/
def rtpPayloadTypeForCodec (m : StreamManager) (s : StreamId) (codec : CodecType) : UInt8 :=
  ((m.getStream s).bind fun stream =>
    (stream.tracks.find? fun track => track.codec = codec).map Track.payloadType).getD
      (match codec with
      | .h264 => 96
      | .aac => 97
      | .opus => 109
      | .h265 => 98
      | _ => 96)

/-- `aac_payload_without_adts`. -/
def aacPayloadWithoutAdts (data : List UInt8) : List UInt8 :=
  if 7 ≤ data.length ∧ data.getD 0 0 = 0xFF ∧ data.getD 1 0 &&& 0xF0 = 0xF0 then
    let frameLength := ((data.getD 3 0).toNat % 4) * 2048 + (data.getD 4 0).toNat * 8 +
      (data.getD 5 0).toNat / 32
    if 7 < frameLength ∧ frameLength ≤ data.length then slice data 7 (frameLength - 7)
    else if 7 < data.length then data.drop 7
    else data
  else data

/-- `wrap_mpeg4_generic_aac_hbr`: one AU header, with a size of 13 bits. -/
def wrapMpeg4GenericAacHbr (aac : List UInt8) : List UInt8 :=
  let aac := aacPayloadWithoutAdts aac
  if aac = [] then []
  else toBe 2 (AAC_HBR_SIZE_LENGTH + AAC_HBR_INDEX_LENGTH) ++
    toBe 2 (aac.length * 2 ^ AAC_HBR_INDEX_LENGTH) ++ aac

/-- `egress_rtp_packets`: the packets of a frame, and the number to come; `ts` is the wall clock. -/
def egressRtpPackets (m : StreamManager) (s : StreamId) (frame : MediaFrame) (ts : UInt32)
    (seq : UInt16) (ssrc : UInt32) : List (List UInt8) × UInt16 :=
  let payloadType := rtpPayloadTypeForCodec m s frame.codec
  match frame.codec with
  | .h264 => packetizeH264AccessUnitForRtp (prependH264Config m s frame) payloadType seq ts ssrc
  | .aac =>
    if frame.data.length < 4 then ([], seq)
    else
      let payload := wrapMpeg4GenericAacHbr frame.data
      if payload = [] then ([], seq)
      else ([buildRtpPacket payloadType seq ts ssrc true payload], seq + 1)
  | _ => ([], seq)

/-- The task that sends what a client plays. -/
structure PlaySender where
  /-- How packets travel. -/
  transportMode : TransportMode
  /-- The number of the next packet, by track. -/
  rtpSeq : TrackId → UInt16
  /-- The SSRC of the session. -/
  ssrc : UInt32

/-- The task that `PLAY` starts for a session. -/
def PlaySender.start (session : RtspSession) (ssrc : UInt32) : PlaySender :=
  { transportMode := session.transportMode, rtpSeq := fun _ => 0, ssrc }

/-- One frame that is sent: what goes to the TCP connection, packet by packet. -/
def PlaySender.playFrame (p : PlaySender) (m : StreamManager) (s : StreamId) (ts : UInt32)
    (frame : MediaFrame) : PlaySender × List (List UInt8) :=
  let (packets, seq) := egressRtpPackets m s frame ts (p.rtpSeq frame.trackId) p.ssrc
  let p := { p with rtpSeq := Function.update p.rtpSeq frame.trackId seq }
  match p.transportMode with
  | .udp => (p, [])
  | .tcp => (p, (packets.filter fun packet => packet ≠ []).map fun packet =>
    wrapInterleaved packet frame.trackId)

/-! ## `SETUP` -/

/-- A `SETUP` over TCP. -/
structure TcpSetup where
  /-- The request. -/
  request : RtspRequest
  /-- `extract_track_id` of its URL. -/
  trackId : UInt32
  /-- What `rand_id` draws. -/
  newId : String
  isTcp : request.transportIsTcp = true

/-- The channels in the reply of `build_setup_response`. -/
def setupChannels (req : RtspRequest) : UInt16 × UInt16 := req.clientPort.getD (0, 1)

/-- The session after some `SETUP`s. -/
def setupAll (session : RtspSession) (reqs : List TcpSetup) : RtspSession :=
  reqs.foldl (fun session r => (setup session r.request r.newId).1) session

/-- The channels of a track after some `SETUP`s: those of its last one. -/
def negotiated (reqs : List TcpSetup) (t : TrackId) : Option (UInt16 × UInt16) :=
  (reqs.reverse.find? fun r => r.trackId = t.toUInt32).map fun r => setupChannels r.request

/-- Any `SETUP` gives the session a stream, and TCP. -/
theorem setupAll_of_ne_nil (session : RtspSession) {reqs : List TcpSetup} (hne : reqs ≠ []) :
    (∃ s, (setupAll session reqs).streamId = some s) ∧ (setupAll session reqs).transportMode =
        .tcp := by
  obtain ⟨reqs, r, rfl⟩ := (List.eq_nil_or_concat' reqs).resolve_left hne
  rw [setupAll, List.foldl_append, List.foldl_cons, List.foldl_nil]
  generalize reqs.foldl _ session = session'
  rw [setup]
  refine ⟨?_, if_pos r.isTcp⟩
  cases hs : session'.streamId with
  | none => exact ⟨r.request.streamId, rfl⟩
  | some s => exact ⟨s, rfl⟩

theorem ne_nil_of_negotiated {reqs : List TcpSetup} {t : TrackId} {pair : UInt16 × UInt16}
    (h : negotiated reqs t = some pair) : reqs ≠ [] := by
  rintro rfl
  cases h

/-! ## What is sent -/

/-- The channel of an interleaved frame. -/
def interleavedChannel (frame : List UInt8) : UInt8 := frame.getD 1 0

/-- `PLAY` of the session sends the frames of the track on the channel `n`. -/
def PlaysOn (session : RtspSession) (t : TrackId) (n : UInt16) : Prop :=
  ∀ (ssrc : UInt32) (rtpSeq : TrackId → UInt16) (m : StreamManager) (s : StreamId) (ts : UInt32)
    (frame : MediaFrame), frame.trackId = t →
      ∀ out ∈ ({ PlaySender.start session ssrc with rtpSeq }.playFrame m s ts frame).2,
        (interleavedChannel out).toNat = n.toNat

/-- The channel of a frame is its track. -/
theorem playFrame_channel {p : PlaySender} {m : StreamManager} {s : StreamId} {ts : UInt32}
    {frame : MediaFrame} : ∀ out ∈ (p.playFrame m s ts frame).2, interleavedChannel out =
        frame.trackId := by
  intro out hout
  rw [PlaySender.playFrame] at hout
  cases hmode : p.transportMode with
  | udp => simp [hmode] at hout
  | tcp =>
    simp only [hmode, List.mem_map] at hout
    obtain ⟨packet, -, rfl⟩ := hout
    rfl

theorem playsOn_iff {session : RtspSession} (hmode : session.transportMode = .tcp) (t : TrackId)
    (n : UInt16) : PlaysOn session t n ↔ n.toNat = t.toNat := by
  constructor
  · intro h
    -- any AAC frame of the track shows it
    have hsent :
      wrapInterleaved (buildRtpPacket 97 0 0 0 true (wrapMpeg4GenericAacHbr [1, 2, 3, 4])) t ∈
        ({ PlaySender.start session 0 with rtpSeq := fun _ => 0 }.playFrame .new "" 0
          (.new "" t 0 [1, 2, 3, 4] false .aac)).2 := by
      simp only [PlaySender.playFrame, PlaySender.start, hmode]
      exact List.mem_singleton_self _
    exact (h 0 (fun _ => 0) .new "" 0 (.new "" t 0 [1, 2, 3, 4] false .aac) rfl _ hsent).symm
  · intro h ssrc rtpSeq m s ts frame hframe out hout
    rw [playFrame_channel out hout, hframe, h]

/-! ## What is taken -/

namespace RtspServerSession

/-- What `handle_rtp_data` does with a packet of the track `trackId`. -/
def ingestAs (m : StreamManager) (ss : RtspServerSession) (data : List UInt8) (trackId : TrackId) :
    Option (StreamManager × RtspServerSession) :=
  match ss.session.streamId with
  | none => some (m, ss)
  | some streamId =>
    let rtp := data.drop 4
    if rtp.length < 12 then some (m, ss)
    else if trackId = 0 then
      let ingest := ss.h264Ingest.getD (H264RtpIngest.new streamId)
      (ingest.ingestRtpPacket m rtp).map fun (m, ingest, _) =>
        (m, { ss with h264Ingest := some ingest }.syncCodecCacheFromManager m streamId)
    else
      match audioFrame ss.session streamId data trackId with
      | none => some (m, ss)
      | some frame => (m.publishFrame frame).map fun m => (m, ss)

/-- A packet is taken for **half its channel**. -/
theorem handleRtpData_eq (m : StreamManager) (ss : RtspServerSession) (data : List UInt8)
    (channel : UInt8) : handleRtpData m ss data channel = ingestAs m ss data (channel / 2) := rfl

/-- What a packet shows of the track that it is taken for: whether there is a video ingest
afterwards, and the tracks of the frames in the ring. -/
def shown (s : StreamId) (r : StreamManager × RtspServerSession) : Bool × Option (List TrackId) :=
  (r.2.h264Ingest.isSome, (r.1.ring s).map fun ring => ring.slots.map StoredFrame.trackId)

/-- A packet with an AAC access unit of one byte, in its frame. -/
def aacPacket : List UInt8 :=
  [0x24, 0, 0, 17] ++ buildRtpPacket 97 0 0 0 true [0, 16, 0, 8, 0xAA]

/-- A session without an ingest. -/
def ofSession (session : RtspSession) : RtspServerSession := { new with session }

variable {session : RtspSession} {s : StreamId}

/-- The manager with the one stream, nothing on it. -/
abbrev onlyStream (s : StreamId) : StreamManager :=
  (StreamManager.new.createStream s .push .rtsp none).1

theorem ring_onlyStream (s : StreamId) : (onlyStream s).ring s = some FrameRing.new := by
  have hnew : StreamManager.new.getHub s = none := AList.lookup_empty s
  rw [StreamManager.ring, onlyStream, StreamManager.createStream, hnew, StreamManager.getHub]
  dsimp only
  rw [AList.lookup_insert]
  rfl

/-- The packet as one of the track `0` makes a video ingest and publishes nothing. -/
theorem shown_video (hs : session.streamId = some s) :
    (ingestAs (onlyStream s) (ofSession session) aacPacket 0).map (shown s) =
        some (true, some []) := by
  have hquiet : ((H264RtpIngest.new s).collect (aacPacket.drop 4)).2 = [] := rfl
  have hring := H264RtpIngest.ring_stored (onlyStream s) (H264RtpIngest.new s) (aacPacket.drop 4)
  have hid : (H264RtpIngest.new s).streamId = s := rfl
  rw [hid, ring_onlyStream] at hring
  simp only [ingestAs, ofSession, hs]
  rw [if_neg (by decide), if_pos trivial]
  change Option.map _ (Option.map _ ((H264RtpIngest.new s).ingestRtpPacket _ _)) = _
  rw [H264RtpIngest.ingestRtpPacket_eq, hquiet, Lts.exec_nil]
  simp only [Option.map_some, shown, syncCodecCacheFromManager_h264Ingest]
  rw [hring]
  rfl

theorem stripMpeg4GenericAac_aacPacket :
    stripMpeg4GenericAac (((rtpH264MediaPayload (aacPacket.drop 4)).map Prod.fst).getD
      ((aacPacket.drop 4).drop 12)) = some [0xAA] := by
  decide

/-- As one of another track it publishes a frame of that track. -/
theorem shown_audio (hs : session.streamId = some s) {t : TrackId} (ht : t ≠ 0) :
    (ingestAs (onlyStream s) (ofSession session) aacPacket t).map (shown s) =
        some (false, some [t]) := by
  obtain ⟨frame, hframe, htrack, hid, hdata⟩ :
    ∃ frame, audioFrame session s aacPacket t = some frame ∧
      frame.trackId = t ∧ frame.streamId = s ∧ frame.data = [0xAA] := by
    simp only [audioFrame, aacFrame]
    rw [stripMpeg4GenericAac_aacPacket]
    exact ⟨_, rfl, rfl, rfl, rfl⟩
  have hpush : FrameRing.new.push frame = some (FrameRing.new.append frame) := by
    apply push_of_room
    · decide
    · rw [hdata]
      decide
  have hpublish := ring_publishFrame (onlyStream s) frame
  rw [hid, ring_onlyStream, pushInto, hpush, Option.map_some] at hpublish
  obtain ⟨m, hm, hring⟩ := Option.map_eq_some_iff.mp hpublish
  simp only [ingestAs, ofSession, hs]
  rw [if_neg (by decide), if_neg ht, hframe]
  dsimp only
  rw [hm, Option.map_some, Option.map_some, shown, hring, ← htrack]
  rfl

/-- Packets are taken for different tracks in **different ways**. -/
theorem ingestAs_injective (hs : session.streamId = some s) {t t' : TrackId}
    (h : ∀ m data, ingestAs m (ofSession session) data t = ingestAs m (ofSession session) data t') :
    t = t' := by
  have hshown := congrArg (Option.map (shown s))
    (h (onlyStream s) aacPacket)
  by_cases ht : t = 0
  · by_cases ht' : t' = 0
    · rw [ht, ht']
    · rw [ht, shown_video hs, shown_audio hs ht'] at hshown
      cases hshown
  · by_cases ht' : t' = 0
    · rw [ht', shown_video hs, shown_audio hs ht] at hshown
      cases hshown
    · rw [shown_audio hs ht, shown_audio hs ht'] at hshown
      injection hshown with hshown
      injection hshown with _ hshown
      injection hshown with hshown
      injection hshown

end RtspServerSession

open RtspServerSession in
/-- The packets that a publisher sends on the channel `n` are ingested as the track; a channel has
one byte in a frame. -/
def TakenAs (session : RtspSession) (n : UInt16) (t : TrackId) : Prop :=
  n.toNat < 256 → ∀ m data ss, ss.session = session →
    handleRtpData m ss data (UInt8.ofNat n.toNat) = ingestAs m ss data t

theorem takenAs_iff {session : RtspSession} {s : StreamId} (hs : session.streamId = some s)
    (n : UInt16) (t : TrackId) : TakenAs session n t ↔ (n.toNat < 256 → n.toNat / 2 = t.toNat) := by
  refine imp_congr_right fun hn => ?_
  have hhalf : (UInt8.ofNat n.toNat / 2).toNat = n.toNat / 2 := by
    rw [UInt8.toNat_div, UInt8.toNat_ofNat_of_lt' hn]
    rfl
  constructor
  · intro h
    have htrack := RtspServerSession.ingestAs_injective hs fun m data =>
      h m data (RtspServerSession.ofSession session) rfl
    rw [← hhalf, htrack]
  · intro h m data ss _
    rw [RtspServerSession.handleRtpData_eq, UInt8.toNat_inj.mp (hhalf.trans h)]

/-- Interleaved channels: after a run of `SETUP`s, `PLAY` sends every track on its channel **exactly
if** the channel is the track, and a publisher's packets are taken for the track of their channel
exactly if the track is half of it. -/
theorem channels_iff (session : RtspSession) (reqs : List TcpSetup) :
    ((∀ t pair, negotiated reqs t = some pair → PlaysOn (setupAll session reqs) t pair.1) ↔
      ∀ t pair, negotiated reqs t = some pair → pair.1.toNat = t.toNat) ∧
    ((∀ t pair, negotiated reqs t = some pair → TakenAs (setupAll session reqs) pair.1 t) ↔
      ∀ t pair, negotiated reqs t = some pair → pair.1.toNat < 256 →
          pair.1.toNat / 2 = t.toNat) := by
  constructor
  · refine forall_congr' fun t => forall_congr' fun pair => imp_congr_right fun h => ?_
    exact playsOn_iff (setupAll_of_ne_nil session (ne_nil_of_negotiated h)).2 t pair.1
  · refine forall_congr' fun t => forall_congr' fun pair => imp_congr_right fun h => ?_
    obtain ⟨s, hs⟩ := (setupAll_of_ne_nil session (ne_nil_of_negotiated h)).1
    exact takenAs_iff hs pair.1 t

/-- A `SETUP` of the track `t` over TCP, with the pair of channels. -/
def tcpSetup (t : UInt32) (pair : UInt16 × UInt16) : TcpSetup :=
  { request :=
      { parts := 3, method := "SETUP", streamId := "live/cam", cseq := "3", transportIsTcp := true
        clientPort := some pair, tracks := [], sps := none, pps := none }
    trackId := t
    newId := "1"
    isTcp := rfl }

/-- With the channels `0-1` and `2-3` for video and audio, which every client asks for, `PLAY` sends
the audio on the channel `1`; with the two pairs swapped, a publisher's video is taken for audio. -/
theorem not_channels_of_pairs :
    (¬∀ t pair, negotiated [tcpSetup 0 (0, 1), tcpSetup 1 (2, 3)] t = some pair →
      PlaysOn (setupAll .new [tcpSetup 0 (0, 1), tcpSetup 1 (2, 3)]) t pair.1) ∧
    ¬∀ t pair, negotiated [tcpSetup 0 (2, 3), tcpSetup 1 (0, 1)] t = some pair →
      TakenAs (setupAll .new [tcpSetup 0 (2, 3), tcpSetup 1 (0, 1)]) pair.1 t := by
  constructor
  · intro h
    have haudio := h 1 (2, 3) (by decide)
    rw [playsOn_iff (by decide)] at haudio
    exact absurd haudio (by decide)
  · intro h
    have hvideo := h 0 (2, 3) (by decide)
    rw [takenAs_iff (by rfl)] at hvideo
    exact absurd hvideo (by decide)

end VcpMediaServer
