import Mathlib.Data.List.Basic

/-!
# Media frames and streams

The records that move through the server: a `MediaFrame` as a publisher hands
it over, and the `Stream` metadata that a hub keeps beside its ring. Sequence
numbers and lengths are natural numbers; the fields that the source reads as
bytes or machine words keep their width.

Only the fields that a modelled function reads or writes are here.
-/

namespace VcpMediaServer

/-- The name of a stream, such as `live/cam`. -/
abbrev StreamId := String

/-- The track of a frame: `0` is video and `1` audio on every ingest path. -/
abbrev TrackId := UInt8

/-- `CodecType`. -/
inductive CodecType where
  | h264
  | h265
  | aac
  | opus
  | g711
  | unknown
  deriving DecidableEq, Repr

/-- `matches!(codec, CodecType::H264 | CodecType::H265)`: the codecs that have
key frames. -/
def CodecType.isVideo : CodecType → Bool
  | .h264 => true
  | .h265 => true
  | _ => false

/-- `MediaFrame`, one access unit. -/
structure MediaFrame where
  /-- The stream the frame is published on. -/
  streamId : StreamId
  /-- The track within the stream. -/
  trackId : TrackId
  /-- The timestamp, in ticks of the clock. -/
  timestamp : UInt64
  /-- The clock the timestamp counts, where the ingest path knows it. -/
  clockRate : Option UInt32
  /-- The payload: Annex B for video. -/
  data : List UInt8
  /-- The publisher's key-frame flag. -/
  isKeyframe : Bool
  /-- The codec of the payload. -/
  codec : CodecType
  /-- The packet the frame came in, where it came as one. -/
  rtpData : Option (List UInt8)
  deriving DecidableEq, Repr

/-- `MediaFrame::new`. -/
def MediaFrame.new (streamId : StreamId) (trackId : TrackId) (timestamp : UInt64)
    (data : List UInt8) (isKeyframe : Bool) (codec : CodecType) : MediaFrame :=
  { streamId, trackId, timestamp, clockRate := none, data, isKeyframe, codec, rtpData := none }

/-- `MediaFrame::with_clock_rate`. -/
def MediaFrame.withClockRate (f : MediaFrame) (clockRate : UInt32) : MediaFrame :=
  { f with clockRate := some clockRate }

/-- `MediaFrame::with_optional_clock_rate`. -/
def MediaFrame.withOptionalClockRate (f : MediaFrame) (clockRate : Option UInt32) : MediaFrame :=
  { f with clockRate := clockRate }

/-- `MediaFrame::with_rtp_data`. -/
def MediaFrame.withRtpData (f : MediaFrame) (rtpData : List UInt8) : MediaFrame :=
  { f with rtpData := some rtpData }

/-- `Track`. -/
structure Track where
  /-- The track within the stream. -/
  id : TrackId
  /-- Its codec. -/
  codec : CodecType
  /-- The RTP payload type. -/
  payloadType : UInt8
  /-- The RTP clock rate. -/
  clockRate : UInt32
  deriving DecidableEq, Repr

/-- `default_live_tracks`: H264 and AAC, for publishers that send no SDP. -/
def defaultLiveTracks : List Track :=
  [⟨0, .h264, 96, 90000⟩, ⟨1, .aac, 97, 44100⟩]

/-- `StreamStatus`. -/
inductive StreamStatus where
  | created
  | unpublished
  | publishing
  | paused
  | stopped
  | error (message : String)
  deriving DecidableEq, Repr

/-- `StreamStatus::as_str`. -/
def StreamStatus.asStr : StreamStatus → String
  | .created => "created"
  | .unpublished => "unpublished"
  | .publishing => "publishing"
  | .paused => "paused"
  | .error _ => "error"
  | .stopped => "stopped"

/-- `StreamStatus::is_publishing`. -/
def StreamStatus.isPublishing : StreamStatus → Bool
  | .publishing => true
  | _ => false

/-- `PlaybackStatus`. -/
inductive PlaybackStatus where
  | idle
  | playing
  | paused
  deriving DecidableEq, Repr

/-- `StreamSourceMode`. -/
inductive StreamSourceMode where
  | pull
  | push
  deriving DecidableEq, Repr

/-- `StreamProtocol`. -/
inductive StreamProtocol where
  | rtsp
  | rtmp
  | webrtc
  | http
  | unknown
  deriving DecidableEq, Repr

/-- `Stream`, the metadata of a stream. -/
structure Stream where
  /-- The name of the stream. -/
  id : StreamId
  /-- Its tracks. -/
  tracks : List Track
  /-- Whether a publisher feeds it. -/
  status : StreamStatus
  /-- Whether a player reads it. -/
  playbackStatus : PlaybackStatus
  /-- Whether the server pulls it or a client pushes it. -/
  source : StreamSourceMode
  /-- The protocol of the source. -/
  protocol : StreamProtocol
  /-- The URL a pulled stream comes from. -/
  pullUrl : Option String
  /-- The sequence parameter set taken from the media. -/
  sps : Option (List UInt8)
  /-- The picture parameter set taken from the media. -/
  pps : Option (List UInt8)
  deriving DecidableEq, Repr

end VcpMediaServer
