import VcpMediaServer.AacFraming
import VcpMediaServer.H264Ingest

/-!
# An RTSP session

What the RTSP server does with a request and with an interleaved packet of a
client. A request is given as its parsers read it: the stream that
`extract_stream_id` finds in the URL, the transport line, the tracks and the
parameter sets of the SDP.

* `processRtspRequest` — one request. `ANNOUNCE` and `RECORD` take a slot, and
  `DESCRIBE` and `SETUP` choose the stream of a session that has none.
* `RtspServerSession.handleRtpData` — one packet, which is published **whatever
  the session is for**: nothing asks who owns the slot.
* `endRtspPublish` — the release of `TEARDOWN` and of the cleanup.
-/

namespace VcpMediaServer

open Ownership StreamManager

/-- `TransportMode`. -/
inductive TransportMode where
  | tcp
  | udp
  deriving DecidableEq, Repr

/-- `RtspSession`. -/
structure RtspSession where
  /-- The stream of the session. -/
  streamId : Option StreamId
  /-- The session id, from the first `SETUP` or `RECORD`. -/
  sessionId : Option String
  /-- The client plays. -/
  playing : Bool
  /-- The client records. -/
  publishing : Bool
  /-- The publisher id to release the slot with. -/
  publisherId : Option String
  /-- How packets travel. -/
  transportMode : TransportMode
  /-- The channel or port pairs of the `SETUP`s. -/
  interleavedChannels : List (UInt16 × UInt16)
  /-- The tracks of the session, which no request sets. -/
  tracks : List Track
  /-- The SPS announced. -/
  sps : Option (List UInt8)
  /-- The PPS announced. -/
  pps : Option (List UInt8)
  deriving DecidableEq, Repr

/-- `RtspSession::new`. -/
def RtspSession.new : RtspSession :=
  { streamId := none, sessionId := none, playing := false, publishing := false,
    publisherId := none, transportMode := .tcp, interleavedChannels := [], tracks := [],
    sps := none, pps := none }

/-- A request, as it is read. -/
structure RtspRequest where
  /-- The number of words in the request line. -/
  parts : ℕ
  /-- The first of them. -/
  method : String
  /-- `extract_stream_id` of the second. -/
  streamId : StreamId
  /-- `extract_cseq`. -/
  cseq : String
  /-- The transport line names TCP. -/
  transportIsTcp : Bool
  /-- The pair of ports or channels in the transport line. -/
  clientPort : Option (UInt16 × UInt16)
  /-- The tracks of the SDP. -/
  tracks : List Track
  /-- The SPS of the SDP. -/
  sps : Option (List UInt8)
  /-- The PPS of the SDP. -/
  pps : Option (List UInt8)
  deriving DecidableEq, Repr

/-- A reply, without the bodies and headers that are built for it. -/
inductive RtspReply where
  | ok (cseq : String) (sessionId : Option String)
  | error (status : ℕ) (reason cseq : String)
  deriving DecidableEq, Repr

/-- The publisher id of the connection from `peerAddr`. -/
def rtspPublisherId (peerAddr : String) : String := "rtsp:" ++ peerAddr

/-! ## Requests -/

/-- End the publication of the session, if it has a stream and a publisher id. -/
def endRtspPublish (m : StreamManager) (session : RtspSession) : StreamManager :=
  match session.streamId, session.publisherId with
  | some streamId, some publisherId => m.unpublish streamId publisherId
  | _, _ => m

/-- `DESCRIBE`. -/
def describe (m : StreamManager) (session : RtspSession) (req : RtspRequest) :
    RtspSession × RtspReply :=
  if m.getStream req.streamId = none then (session, .error 404 "Not Found" req.cseq)
  else
    ({ session with streamId := session.streamId <|> some req.streamId }, .ok req.cseq none)

/-- `SETUP`; `newId` is what `rand_id` draws. -/
def setup (session : RtspSession) (req : RtspRequest) (newId : String) : RtspSession × RtspReply :=
  let sessionId := session.sessionId.getD newId
  ({ session with
      streamId := session.streamId <|> some req.streamId
      sessionId := some sessionId
      transportMode := if req.transportIsTcp then .tcp else .udp
      interleavedChannels := session.interleavedChannels ++ req.clientPort.toList },
    .ok req.cseq (some sessionId))

/-- The reply to a request for which the session has no stream. -/
def notValidInThisState (req : RtspRequest) : RtspReply :=
  .error 455 "Method Not Valid in This State" req.cseq

/-- `PLAY`. -/
def rtspPlay (session : RtspSession) (req : RtspRequest) : RtspSession × RtspReply :=
  if session.streamId = none then (session, notValidInThisState req)
  else ({ session with playing := true }, .ok req.cseq session.sessionId)

/-- `PAUSE`. -/
def pause (session : RtspSession) (req : RtspRequest) : RtspSession × RtspReply :=
  if session.streamId = none then (session, notValidInThisState req)
  else ({ session with playing := false }, .ok req.cseq none)

/-- `TEARDOWN`. -/
def teardown (m : StreamManager) (session : RtspSession) (req : RtspRequest) :
    StreamManager × RtspSession × RtspReply :=
  (endRtspPublish m session,
    { session with
      streamId := none, playing := false, publishing := false, publisherId := none,
      interleavedChannels := [] },
    .ok req.cseq none)

/-- The reply to a request that finds the slot taken. -/
def conflict (req : RtspRequest) : RtspReply :=
  .error 409 "Conflict: stream already publishing" req.cseq

/-- The parameter sets of the SDP, stored if it has both. -/
def storeAnnounced (m : StreamManager) (req : RtspRequest) : StreamManager :=
  match req.sps, req.pps with
  | some sps, some pps => m.setStreamSpsPps req.streamId sps pps
  | _, _ => m

/-- `ANNOUNCE`. The stream announced **becomes** the stream of the session,
whichever it had before. -/
def announce (m : StreamManager) (session : RtspSession) (req : RtspRequest) (peerAddr : String) :
    StreamManager × RtspSession × RtspReply :=
  let session := { session with sps := req.sps, pps := req.pps }
  let tracks := if req.tracks = [] then defaultLiveTracks else req.tracks
  let m := (m.createStream req.streamId .push .rtsp none).1
  let publisherId := rtspPublisherId peerAddr
  match m.acquirePublisher req.streamId publisherId with
  | (m, .error _) => (m, session, conflict req)
  | (m, .ok ()) =>
    let m := storeAnnounced (m.setStreamTracks req.streamId tracks) req
    ((m.setUnpublished req.streamId).1,
      { session with
        streamId := some req.streamId, publishing := true, publisherId := some publisherId },
      .ok req.cseq none)

/-- `RECORD`. A session with a publisher id takes no slot; one without a stream
takes that of the URL, and **has no stream** afterwards either. -/
def record (m : StreamManager) (session : RtspSession) (req : RtspRequest)
    (peerAddr newId : String) :
    StreamManager × RtspSession × RtspReply :=
  let streamId := session.streamId.getD req.streamId
  let session := { session with sessionId := some (session.sessionId.getD newId) }
  let started (m : StreamManager) (session : RtspSession) :=
    ((m.setPublishing streamId).1, { session with publishing := true },
      RtspReply.ok req.cseq session.sessionId)
  if session.publisherId = none then
    let publisherId := rtspPublisherId peerAddr
    match m.acquirePublisher streamId publisherId with
    | (m, .error _) => (m, session, conflict req)
    | (m, .ok ()) => started m { session with publisherId := some publisherId }
  else started m session

/-- `process_rtsp_request`. -/
def processRtspRequest (m : StreamManager) (session : RtspSession) (req : RtspRequest)
    (peerAddr newId : String) : StreamManager × RtspSession × RtspReply :=
  if req.parts < 3 then (m, session, .error 400 "Bad Request" "0")
  else
    match req.method with
    | "OPTIONS" => (m, session, .ok req.cseq none)
    | "DESCRIBE" => (m, describe m session req)
    | "SETUP" => (m, setup session req newId)
    | "PLAY" => (m, rtspPlay session req)
    | "PAUSE" => (m, pause session req)
    | "TEARDOWN" => teardown m session req
    | "ANNOUNCE" => announce m session req peerAddr
    | "RECORD" => record m session req peerAddr newId
    | _ => (m, session, .error 501 "Not Implemented" req.cseq)

/-! ## The connection -/

/-- The frame that an RTP packet of another track than video is published as, if
there is an access unit in it: AAC, whatever the payload type. -/
def aacFrame (tracks : List Track) (streamId : StreamId) (trackId : TrackId) (rtp : List UInt8)
    (rtpData : Option (List UInt8)) : Option MediaFrame :=
  let payloadType := rtp.getD 1 0 &&& 0x7F
  let clockRate :=
    ((tracks.find? fun t => t.id = trackId ∨ t.payloadType = payloadType).map
      Track.clockRate).getD AAC_DEFAULT_CLOCK_RATE
  let media := ((rtpH264MediaPayload rtp).map Prod.fst).getD (rtp.drop 12)
  match stripMpeg4GenericAac media with
  | none => none
  | some raw =>
    if raw = [] then none
    else
      some
        { streamId, trackId
          timestamp := UInt64.ofNat (beNat (slice rtp 4 4))
          clockRate := some clockRate
          data := raw
          isKeyframe := rtp.getD 1 0 &&& 0x80 != 0
          codec := .aac
          rtpData }

theorem aacFrame_streamId {tracks : List Track} {s : StreamId} {trackId : TrackId}
    {rtp : List UInt8} {rtpData : Option (List UInt8)} {frame : MediaFrame}
    (h : aacFrame tracks s trackId rtp rtpData = some frame) : frame.streamId = s := by
  simp only [aacFrame] at h
  split at h
  · cases h
  · rw [Option.ite_none_left_eq_some] at h
    rw [← Option.some.inj h.2]

/-- `RtspServerSession`, without its sockets and tasks. -/
structure RtspServerSession where
  /-- The session. -/
  session : RtspSession
  /-- The video ingest, made at the first video packet and kept for good. -/
  h264Ingest : Option H264RtpIngest
  /-- The SPS seen first. -/
  spsCache : Option (List UInt8)
  /-- The PPS seen first. -/
  ppsCache : Option (List UInt8)
  deriving DecidableEq, Repr

namespace RtspServerSession

/-- `RtspServerSession::new`. -/
def new : RtspServerSession :=
  { session := RtspSession.new, h264Ingest := none, spsCache := none, ppsCache := none }

/-- `sync_codec_cache_from_manager`. -/
def syncCodecCacheFromManager (ss : RtspServerSession) (m : StreamManager) (streamId : StreamId) :
    RtspServerSession :=
  match (m.getStream streamId).bind fun s => s.sps.bind fun sps => s.pps.map fun pps =>
    (sps, pps) with
  | none => ss
  | some (sps, pps) =>
    { ss with spsCache := ss.spsCache <|> some sps, ppsCache := ss.ppsCache <|> some pps }

/-- The frame that a packet of another track than video is published as, if there
is an access unit in it. -/
def audioFrame (session : RtspSession) (streamId : StreamId) (data : List UInt8)
    (trackId : TrackId) :
    Option MediaFrame :=
  aacFrame session.tracks streamId trackId (data.drop 4) (some data)

/-- `handle_rtp_data`: a packet with its four bytes of framing, on a channel. -/
def handleRtpData (m : StreamManager) (ss : RtspServerSession) (data : List UInt8)
    (channel : UInt8) : Option (StreamManager × RtspServerSession) :=
  match ss.session.streamId with
  | none => some (m, ss)
  | some streamId =>
    let trackId := channel / 2
    let rtp := data.drop 4
    if rtp.length < 12 then some (m, ss)
    else if trackId = 0 then
      -- an ingest that is there goes on with the stream it was made for
      let ingest := ss.h264Ingest.getD (H264RtpIngest.new streamId)
      (ingest.ingestRtpPacket m rtp).map fun (m, ingest, _) =>
        (m, { ss with h264Ingest := some ingest }.syncCodecCacheFromManager m streamId)
    else
      match audioFrame ss.session streamId data trackId with
      | none => some (m, ss)
      | some frame => (m.publishFrame frame).map fun m => (m, ss)

/-- `process_request`. -/
def processRequest (m : StreamManager) (ss : RtspServerSession) (req : RtspRequest)
    (peerAddr newId : String) : StreamManager × RtspServerSession × RtspReply :=
  let (m, session, reply) := processRtspRequest m ss.session req peerAddr newId
  (m, { ss with session }, reply)

/-- `cleanup_on_disconnect`. -/
def cleanupOnDisconnect (m : StreamManager) (ss : RtspServerSession) :
    StreamManager × RtspServerSession :=
  (endRtspPublish m ss.session,
    { ss with
      session := { ss.session with playing := false, publishing := false, publisherId := none } })

end RtspServerSession

/-! ## What a request does -/

/-- The request is a complete one of the method. -/
def RtspRequest.Is (req : RtspRequest) (method : String) : Prop :=
  3 ≤ req.parts ∧ req.method = method

instance (req : RtspRequest) (method : String) : Decidable (req.Is method) :=
  inferInstanceAs (Decidable (_ ∧ _))

/-- The two sessions publish alike. -/
structure RtspSession.SamePublish (session session' : RtspSession) : Prop where
  streamId : session'.streamId = session.streamId
  publisherId : session'.publisherId = session.publisherId

/-- What a request does to the streams and to what the session publishes as
`own`. -/
inductive RtspHandled (own : String) (m : StreamManager) (session : RtspSession)
    (req : RtspRequest) : StreamManager → RtspSession → Prop
  /-- No slot and no media changes. -/
  | quiet {m' : StreamManager} {session' : RtspSession} (same : session.SamePublish session')
      (slots : m'.slots = m.slots) (media : ∀ k, m'.media k = m.media k) :
      RtspHandled own m session req m' session'
  /-- A session without a stream gets one. -/
  | names {session' : RtspSession} (request : req.Is "DESCRIBE" ∨ req.Is "SETUP")
      (unset : session.streamId = none) (streamId : session'.streamId = some req.streamId)
      (publisherId : session'.publisherId = session.publisherId) :
      RtspHandled own m session req m session'
  /-- An `ANNOUNCE` finds the slot taken. -/
  | rejects {m' : StreamManager} {session' : RtspSession} (request : req.Is "ANNOUNCE")
      (taken : ¬ m.Accepts own req.streamId)
      (same : session.SamePublish session') (slots : m'.slots = create m.slots req.streamId)
      (media : ∀ k, m'.media k = m.media k) : RtspHandled own m session req m' session'
  /-- An `ANNOUNCE` takes the slot. -/
  | announces {m' : StreamManager} {session' : RtspSession} (request : req.Is "ANNOUNCE")
      (free : m.Accepts own req.streamId)
      (streamId : session'.streamId = some req.streamId)
      (publisherId : session'.publisherId = some own)
      (slots : m'.slots = acquire (create m.slots req.streamId) req.streamId own)
      (media : ∀ k, m'.media k ≠ m.media k → k = req.streamId) :
      RtspHandled own m session req m' session'
  /-- A `RECORD` takes the slot of a session that publishes nothing. -/
  | records {m' : StreamManager} {session' : RtspSession} (request : req.Is "RECORD")
      (unset : session.publisherId = none)
      (free : Available m.slots (session.streamId.getD req.streamId) own)
      (streamId : session'.streamId = session.streamId)
      (publisherId : session'.publisherId = some own)
      (slots : m'.slots = acquire m.slots (session.streamId.getD req.streamId) own)
      (media : ∀ k, m'.media k ≠ m.media k → k = session.streamId.getD req.streamId) :
      RtspHandled own m session req m' session'
  /-- A `TEARDOWN` ends the publication. -/
  | ends {session' : RtspSession} (request : req.Is "TEARDOWN")
    (streamId : session'.streamId = none)
      (publisherId : session'.publisherId = none) :
      RtspHandled own m session req (endRtspPublish m session) session'

variable {own : String} {m m' : StreamManager} {session session' : RtspSession}
  {req : RtspRequest} {peerAddr newId : String}

theorem RtspHandled.of_same (same : session.SamePublish session') :
    RtspHandled own m session req m session' :=
  .quiet same rfl fun _ => rfl

theorem onlyAt_storeAnnounced (m : StreamManager) (req : RtspRequest) :
    OnlyAt req.streamId m (storeAnnounced m req) := by
  rw [storeAnnounced]
  split
  · exact onlyAt_setStreamSpsPps m req.streamId _ _
  · exact .refl _ m

/-- A stream that is not looked for yet is chosen. -/
theorem handled_names (hreq : req.Is "DESCRIBE" ∨ req.Is "SETUP")
    (hstream : session'.streamId = (session.streamId <|> some req.streamId))
    (hpublisher : session'.publisherId = session.publisherId) :
    RtspHandled own m session req m session' := by
  rcases h : session.streamId with _ | s
  · refine .names hreq h ?_ hpublisher
    rw [hstream, h]
    rfl
  · refine .of_same ⟨?_, hpublisher⟩
    rw [hstream, h]
    rfl

theorem describe_handled (hreq : req.Is "DESCRIBE") :
    RtspHandled own m session req m (describe m session req).1 := by
  rw [describe]
  split
  · exact .of_same ⟨rfl, rfl⟩
  · exact handled_names (.inl hreq) rfl rfl

theorem announce_handled (hreq : req.Is "ANNOUNCE") :
    RtspHandled (rtspPublisherId peerAddr) m session req (announce m session req peerAddr).1
      (announce m session req peerAddr).2.1 := by
  simp only [announce]
  generalize hm₁ : (m.createStream req.streamId .push .rtsp none).1 = m₁
  have hslots : m₁.slots = create m.slots req.streamId := by
    rw [← hm₁, slots_createStream]
  have hmedia : ∀ k, m₁.media k = m.media k := by
    intro k
    rw [← hm₁, media_createStream]
  by_cases hav : Available m₁.slots req.streamId (rtspPublisherId peerAddr)
  · have hok := acquirePublisher_ok_iff.mpr hav
    have hslots' := slots_acquirePublisher m₁ req.streamId (rtspPublisherId peerAddr)
    have hmedia' : ∀ k, (m₁.acquirePublisher req.streamId (rtspPublisherId peerAddr)).1.media k ≠
        m.media k → k = req.streamId := by
      intro k hk
      rw [← hmedia] at hk
      exact (media_acquirePublisher_ne hk).1
    generalize m₁.acquirePublisher req.streamId (rtspPublisherId peerAddr) = r at *
    obtain ⟨m₂, e⟩ := r
    obtain rfl : e = .ok () := hok
    -- what is done behind the acquisition touches this stream only
    have honly := onlyAt_storeAnnounced (m₂.setStreamTracks req.streamId
      (if req.tracks = [] then defaultLiveTracks else req.tracks)) req
    rw [hslots] at hav hslots'
    refine .announces hreq hav rfl rfl ?_ fun k hk => ?_
    · simpa [setUnpublished, honly.slots] using hslots'
    · by_contra hne
      refine hne (hmedia' k ?_)
      simp only [setUnpublished, media_setStatus] at hk
      rwa [media_congr (honly.getHub k hne), media_setStreamTracks] at hk
  · obtain ⟨e, he⟩ := acquirePublisher_of_not_available hav
    rw [he]
    rw [hslots] at hav
    exact .rejects hreq hav ⟨rfl, rfl⟩ hslots hmedia

theorem record_handled (hreq : req.Is "RECORD") :
    RtspHandled (rtspPublisherId peerAddr) m session req (record m session req peerAddr newId).1
      (record m session req peerAddr newId).2.1 := by
  simp only [record]
  split
  · next hunset =>
    generalize hname : session.streamId.getD req.streamId = name
    by_cases hav : Available m.slots name (rtspPublisherId peerAddr)
    · have hok := acquirePublisher_ok_iff.mpr hav
      have hslots := slots_acquirePublisher m name (rtspPublisherId peerAddr)
      have hmedia : ∀ k, (m.acquirePublisher name (rtspPublisherId peerAddr)).1.media k ≠
          m.media k → k = name := fun k hk => (media_acquirePublisher_ne hk).1
      generalize m.acquirePublisher name (rtspPublisherId peerAddr) = r at *
      obtain ⟨m₁, e⟩ := r
      obtain rfl : e = .ok () := hok
      subst hname
      refine .records hreq hunset hav rfl rfl ?_ fun k hk => ?_
      · simpa [setPublishing] using hslots
      · apply hmedia k
        simpa only [setPublishing, media_setStatus] using hk
    · obtain ⟨e, he⟩ := acquirePublisher_of_not_available hav
      rw [he]
      exact .of_same ⟨rfl, rfl⟩
  · refine .quiet ⟨rfl, rfl⟩ ?_ fun k => ?_
    · simp [setPublishing]
    · simp [setPublishing]

/-- **Every** request is one of the kinds. -/
theorem processRtspRequest_handled (m : StreamManager) (session : RtspSession) (req : RtspRequest)
    (peerAddr newId : String) :
    RtspHandled (rtspPublisherId peerAddr) m session req
      (processRtspRequest m session req peerAddr newId).1
      (processRtspRequest m session req peerAddr newId).2.1 := by
  unfold processRtspRequest
  split
  · exact .of_same ⟨rfl, rfl⟩
  · next hparts =>
    have hparts : 3 ≤ req.parts := Nat.le_of_not_lt hparts
    split
    · exact .of_same ⟨rfl, rfl⟩
    · next hm => exact describe_handled ⟨hparts, hm⟩
    · next hm => exact handled_names (.inr ⟨hparts, hm⟩) rfl rfl
    · rw [rtspPlay]
      split <;> exact .of_same ⟨rfl, rfl⟩
    · rw [pause]
      split <;> exact .of_same ⟨rfl, rfl⟩
    · next hm => exact .ends ⟨hparts, hm⟩ rfl rfl
    · next hm => exact announce_handled ⟨hparts, hm⟩
    · next hm => exact record_handled ⟨hparts, hm⟩
    · exact .of_same ⟨rfl, rfl⟩

/-- A `TEARDOWN` ends the publication of the session. -/
theorem processRtspRequest_teardown (h : req.Is "TEARDOWN") :
    (processRtspRequest m session req peerAddr newId).1 = endRtspPublish m session := by
  unfold processRtspRequest
  rw [if_neg (Nat.not_lt.mpr h.1), h.2]
  rfl

namespace RtspServerSession

/-! ## What a packet does -/

/-- The stream that a packet goes to: for video that of the ingest, for the rest
that of the session. -/
def targetOf (ss : RtspServerSession) (channel : UInt8) : Option StreamId :=
  ss.session.streamId.map fun s =>
    if channel / 2 = 0 then (ss.h264Ingest.map H264RtpIngest.streamId).getD s else s

@[simp] theorem syncCodecCacheFromManager_session (ss : RtspServerSession) (m : StreamManager)
    (s : StreamId) : (ss.syncCodecCacheFromManager m s).session = ss.session := by
  rw [syncCodecCacheFromManager]
  split <;> rfl

@[simp] theorem syncCodecCacheFromManager_h264Ingest (ss : RtspServerSession) (m : StreamManager)
    (s : StreamId) : (ss.syncCodecCacheFromManager m s).h264Ingest = ss.h264Ingest := by
  rw [syncCodecCacheFromManager]
  split <;> rfl

/-- A packet touches at most **its target**, and leaves the session alone. -/
theorem handleRtpData_spec {ss ss' : RtspServerSession} {data : List UInt8} {channel : UInt8}
    (h : handleRtpData m ss data channel = some (m', ss')) :
    ss'.session = ss.session ∧
      (m' = m ∨ ∃ s, ss.targetOf channel = some s ∧ OnlyAt s m m') := by
  rw [handleRtpData] at h
  split at h
  · cases h
    exact ⟨rfl, .inl rfl⟩
  · next s hs =>
    dsimp only at h
    split at h
    · cases h
      exact ⟨rfl, .inl rfl⟩
    · split at h
      · next htrack =>
        obtain ⟨⟨m₁, ing, b⟩, hing, heq⟩ := Option.map_eq_some_iff.mp h
        cases heq
        refine ⟨syncCodecCacheFromManager_session _ _ _, .inr ⟨_, ?_,
          (H264RtpIngest.onlyAt_ingestRtpPacket hing).1⟩⟩
        rw [targetOf, hs, Option.map_some, if_pos htrack]
        rcases ss.h264Ingest with _ | ing₀ <;> rfl
      · next htrack =>
        split at h
        · cases h
          exact ⟨rfl, .inl rfl⟩
        · next frame hframe =>
          obtain ⟨m₁, hm₁, heq⟩ := Option.map_eq_some_iff.mp h
          cases heq
          refine ⟨rfl, .inr ⟨s, ?_, ?_⟩⟩
          · rw [targetOf, hs, Option.map_some, if_neg htrack]
          · rw [← aacFrame_streamId hframe]
            exact onlyAt_publishFrame hm₁

end RtspServerSession

end VcpMediaServer
