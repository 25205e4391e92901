import VcpMediaServer.H264Ingest

/-!
# WebRTC tracks

The tasks of `webrtc/publisher.rs` that read the tracks of a publishing browser.
Each works for the stream that its peer connection was made for, until its track
ends; it **asks nobody** whether the session still publishes there.

* `H264TrackReader.readPacket` — one packet of a video track, much as
  `H264RtpIngest` takes it, but with a check for a clock that is set back and
  without the check for a slice.
* `H264TrackReader.finish` — the end of a video track, which unpublishes the stream
  and resets its media.
-/

namespace VcpMediaServer

open StreamManager

/-- What the readers use of an RTP packet. -/
structure RtpPacket where
  /-- The sequence number. -/
  sequenceNumber : UInt16
  /-- The timestamp. -/
  timestamp : UInt32
  /-- The marker bit. -/
  marker : Bool
  /-- The payload. -/
  payload : List UInt8
  deriving DecidableEq, Repr

/-- The state of `read_h264_track`. -/
structure H264TrackReader where
  /-- The stream of the track. -/
  streamId : StreamId
  /-- The depacketizer. -/
  depacketizer : H264RtpDepacketizer
  /-- The access unit so far. -/
  batch : AccessUnitBatch
  /-- The timestamp of the packet before. -/
  lastPktTs : Option UInt32
  /-- The sequence number to come, after a first packet. -/
  expectedSeq : Option UInt16
  deriving DecidableEq, Repr

/-- `end_publish_media`: reset the stream, whoever has its slot. The play relays of
the stream are told to stop. -/
def endPublishMedia (m : StreamManager) (s : StreamId) : StreamManager := m.resetStreamMedia s

@[simp] theorem slots_endPublishMedia (m : StreamManager) (s : StreamId) :
    (endPublishMedia m s).slots = m.slots := slots_resetStreamMedia m s

/-- `store_nalu_config_from_rtp` of the publisher. -/
def storeNaluConfigFromTrack (m : StreamManager) (s : StreamId) (payload : List UInt8) :
    StreamManager :=
  let nalus := parseRtpH264 payload
  match extractSpsPpsFromNalus nalus with
  | (some sps, some pps) => m.setStreamSpsPps s sps pps
  | _ => mergeNalus m s nalus

/-- `h264_rtp_to_frame`: the data of the frame and whether it is a key frame, if
the packet completes one. -/
def h264RtpToFrame (d : H264RtpDepacketizer) (payload : List UInt8) :
    H264RtpDepacketizer × Option (List UInt8 × Bool) :=
  let isKeyframeRtp := containsIdr (parseRtpH264 payload) || isIdrRtpPayload payload
  let frame (annexB : List UInt8) := (annexB, isKeyframeRtp || isKeyframeAnnexB annexB)
  match d.push payload with
  | (d, .ok annexB) => (d, annexB.map frame)
  | (d, .error _) => (d, (annexBFromRtpPayload payload).map frame)

namespace H264TrackReader

/-- The state at the start of a track. -/
def new (streamId : StreamId) : H264TrackReader :=
  { streamId, depacketizer := .default, batch := ⟨0, [], false⟩, lastPktTs := none,
    expectedSeq := none }

/-- The frame of the access unit so far. -/
def batchFrame (reader : H264TrackReader) : MediaFrame :=
  let combined := reader.batch.parts.flatten
  (MediaFrame.new reader.streamId 0 reader.batch.timestamp.toUInt64 combined
    (reader.batch.isKeyframe || isKeyframeAnnexB combined) .h264).withClockRate VIDEO_RTP_CLOCK_RATE

/-- Forget the access unit so far. -/
def clearBatch (reader : H264TrackReader) : H264TrackReader :=
  { reader with batch := { reader.batch with parts := [], isKeyframe := false } }

/-- `publish_access_unit`, if the access unit ends here. -/
def publishAccessUnit (m : StreamManager) (reader : H264TrackReader) (ends : Bool) :
    Option (StreamManager × H264TrackReader) :=
  if ends ∧ reader.batch.parts ≠ [] then
    (m.publishFrame reader.batchFrame).map fun m => (m, reader.clearBatch)
  else some (m, reader)

/-- Add a part to the access unit. -/
def addPart (reader : H264TrackReader) (data : List UInt8) (isKeyframe : Bool)
    (timestamp : UInt32) :
    H264TrackReader :=
  { reader with
    batch :=
      { timestamp := if reader.batch.parts = [] then timestamp else reader.batch.timestamp
        parts := reader.batch.parts ++ [data]
        isKeyframe := reader.batch.isKeyframe || isKeyframe } }

/-- The clock is set back: the distance to the packet before is a step back and
not a reordering. -/
def isClockReset (last : Option UInt32) (timestamp : UInt32) : Bool :=
  last.any fun prev => 3000 < prev - timestamp && prev - timestamp < 0x80000000

/-- The packet breaks the order of the sequence numbers. -/
def isSeqGap (expected : Option UInt16) (seq : UInt16) : Bool := expected.any fun e => seq != e

/-- The state after the sequence number is looked at, and whether to go on. -/
def acceptSequence (reader : H264TrackReader) (pkt : RtpPacket) : H264TrackReader × Bool :=
  let next := { reader with expectedSeq := some (pkt.sequenceNumber + 1) }
  if isSeqGap reader.expectedSeq pkt.sequenceNumber then
    ({ next.clearBatch with depacketizer := ⟨none⟩ }, !isFuAContinuation pkt.payload)
  else (next, true)

/-- What a packet adds to the access unit, after its parameter sets are stored. -/
def readPayload (m : StreamManager) (reader : H264TrackReader) (pkt : RtpPacket) :
    Option (StreamManager × H264TrackReader) :=
  let m := storeNaluConfigFromTrack m reader.streamId pkt.payload
  match h264RtpToFrame reader.depacketizer pkt.payload with
  | (depacketizer, none) => some (m, { reader with depacketizer })
  | (depacketizer, some (data, isKeyframe)) =>
    let reader := { reader with depacketizer }
    if isParameterSetOnly data then some (m, reader)
    else
      (publishAccessUnit m reader (reader.batch.timestamp ≠ pkt.timestamp)).bind
        fun (m, reader) =>
          publishAccessUnit m (reader.addPart data isKeyframe pkt.timestamp) pkt.marker

/-- One turn of the loop of `read_h264_track`; `none` if the push of a frame never
returns. -/
def readPacket (m : StreamManager) (reader : H264TrackReader) (pkt : RtpPacket) :
    Option (StreamManager × H264TrackReader) :=
  match reader.acceptSequence pkt with
  | (reader, false) => some (m, reader)
  | (reader, true) =>
    let isReset := isClockReset reader.lastPktTs pkt.timestamp
    let reader :=
      { reader with
        depacketizer := if isReset then ⟨none⟩ else reader.depacketizer
        lastPktTs := some pkt.timestamp }
    (publishAccessUnit m reader isReset).bind fun (m, reader) => readPayload m reader pkt

/-- The end of `read_h264_track`: what is left is published, and then the stream is
**unpublished and reset**. -/
def finish (m : StreamManager) (reader : H264TrackReader) : Option StreamManager :=
  (publishAccessUnit m reader true).map fun (m, reader) =>
    endPublishMedia (m.setUnpublished reader.streamId).1 reader.streamId

/-! ## What a track touches -/

variable {m m' : StreamManager} {reader reader' : H264TrackReader} {pkt : RtpPacket}

theorem onlyAt_publishAccessUnit {ends : Bool}
    (h : publishAccessUnit m reader ends = some (m', reader')) :
    OnlyAt reader.streamId m m' ∧ reader'.streamId = reader.streamId := by
  rw [publishAccessUnit] at h
  split at h
  · obtain ⟨m₁, hm₁, heq⟩ := Option.map_eq_some_iff.mp h
    cases heq
    exact ⟨onlyAt_publishFrame hm₁, rfl⟩
  · cases h
    exact ⟨.refl _ _, rfl⟩

theorem onlyAt_storeNaluConfigFromTrack (m : StreamManager) (s : StreamId) (payload : List UInt8) :
    OnlyAt s m (storeNaluConfigFromTrack m s payload) := by
  simp only [storeNaluConfigFromTrack]
  split
  · exact onlyAt_setStreamSpsPps m s _ _
  · exact onlyAt_mergeNalus m s _

@[simp] theorem acceptSequence_streamId (reader : H264TrackReader) (pkt : RtpPacket) :
    (reader.acceptSequence pkt).1.streamId = reader.streamId := by
  simp only [acceptSequence]
  split <;> rfl

theorem onlyAt_readPayload (h : readPayload m reader pkt = some (m', reader')) :
    OnlyAt reader.streamId m m' ∧ reader'.streamId = reader.streamId := by
  have hfirst := onlyAt_storeNaluConfigFromTrack m reader.streamId pkt.payload
  rw [readPayload] at h
  generalize h264RtpToFrame reader.depacketizer pkt.payload = r at h
  obtain ⟨d, _ | ⟨data, isKeyframe⟩⟩ := r
  · cases h
    exact ⟨hfirst, rfl⟩
  · dsimp only at h
    split at h
    · cases h
      exact ⟨hfirst, rfl⟩
    · obtain ⟨⟨m₁, reader₁⟩, h₁, h₂⟩ := Option.bind_eq_some_iff.mp h
      obtain ⟨hm₁, hr₁⟩ := onlyAt_publishAccessUnit h₁
      obtain ⟨hm₂, hr₂⟩ := onlyAt_publishAccessUnit h₂
      have heq : (reader₁.addPart data isKeyframe pkt.timestamp).streamId = reader.streamId := hr₁
      rw [heq] at hm₂ hr₂
      exact ⟨hfirst.trans (hm₁.trans hm₂), hr₂⟩

/-- A packet touches **the stream of the track** and no other, and no slot. -/
theorem onlyAt_readPacket (h : readPacket m reader pkt = some (m', reader')) :
    OnlyAt reader.streamId m m' ∧ reader'.streamId = reader.streamId := by
  have hid := acceptSequence_streamId reader pkt
  rw [readPacket] at h
  generalize reader.acceptSequence pkt = r at h hid
  obtain ⟨reader₁, _ | _⟩ := r
  · cases h
    exact ⟨.refl _ _, hid⟩
  · obtain ⟨⟨m₁, reader₂⟩, h₁, h₂⟩ := Option.bind_eq_some_iff.mp h
    obtain ⟨hm₁, hr₁⟩ := onlyAt_publishAccessUnit h₁
    obtain ⟨hm₂, hr₂⟩ := onlyAt_readPayload h₂
    have heq : reader₂.streamId = reader.streamId := hr₁.trans hid
    have hm₁ : OnlyAt reader₁.streamId m m₁ := hm₁
    rw [hid] at hm₁
    rw [heq] at hm₂ hr₂
    exact ⟨hm₁.trans hm₂, hr₂⟩

/-- The end of a track touches the stream of the track and no other, and no slot. -/
theorem onlyAt_finish (h : finish m reader = some m') : OnlyAt reader.streamId m m' := by
  obtain ⟨⟨m₁, reader₁⟩, h₁, rfl⟩ := Option.map_eq_some_iff.mp h
  obtain ⟨hm₁, hr₁⟩ := onlyAt_publishAccessUnit h₁
  dsimp only
  rw [hr₁]
  exact hm₁.trans ((onlyAt_setStatus m₁ reader.streamId .unpublished).trans
    (onlyAt_resetStreamMedia _ reader.streamId))

end H264TrackReader

end VcpMediaServer
