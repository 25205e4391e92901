import VcpMediaServer.AnnouncedRate
import VcpMediaServer.Pullers
import VcpMediaServer.SdpTracks
import VcpMediaServer.TimelineOverflow
import VcpMediaServer.WebrtcSession

/-!
# The frames of the ingests

Timestamps come from 32 bits of a header, whatever the ingest. The clock rate of audio that is
**pulled** comes from the description of the other server, where nothing keeps it from being zero.

* `Ingested` — what the ingests publish.
* `Ingested.pulled_of_rate_zero` — which of them gives audio a rate of zero.
* `timelines_isSome_iff` — the timelines panic **exactly on** audio with a rate of zero.
-/

namespace VcpMediaServer

open Lts

/-- A frame that an ingest publishes. -/
inductive Ingested : MediaFrame → Prop
  /-- Video of a client of RTMP. -/
  | rtmpVideo {s : StreamId} {msg : RtmpMessage} {frame : MediaFrame}
      (h : RtmpConnection.videoFrame s msg = some frame) : Ingested frame
  /-- Audio of a client of RTMP. -/
  | rtmpAudio (s : StreamId) (msg : RtmpMessage) : Ingested (RtmpConnection.audioFrame s msg)
  /-- What is pulled over RTMP. -/
  | rtmpPull {s : StreamId} {msg : RtmpMessage} {frame : MediaFrame}
      (h : RtmpPull.rtmpMessageToFrame msg s = some frame) : Ingested frame
  /-- Video of a client of RTSP, or that is pulled. -/
  | rtspVideo (ing : H264RtpIngest) : Ingested ing.batchFrame
  /-- Audio of a client of RTSP. -/
  | rtspAudio {peerAddr : String} {es : List RecordingEvent} {run : RecordingRun}
    {e : RecordingEvent}
      {p : AudioPacket} {frame : MediaFrame}
      (hrun : exec (RecordingRun.step peerAddr) .new es = some run)
      (hp : run.audioPacket e = some p) (h : p.frame = some frame) : Ingested frame
  /-- Audio that is pulled over RTSP, from a server that gave this description. -/
  | rtspPullAudio {sdp : List Char} {s : StreamId} {trackId : TrackId} {rtp : List UInt8}
    {frame : MediaFrame}
      (h : aacFrame (parseSdpTracks sdp) s trackId rtp none = some frame) : Ingested frame
  /-- Video of a browser. -/
  | webrtcVideo (reader : H264TrackReader) : Ingested reader.batchFrame
  /-- Audio of a browser, at the rate of the codec. -/
  | webrtcAudio (s : StreamId) (clockRate : UInt32) (pkt : RtpPacket) :
      Ingested
        ((MediaFrame.new s 1 pkt.timestamp.toUInt64 pkt.payload false .opus).withClockRate
        clockRate)

theorem timestamp_aacFrame_lt {tracks : List Track} {s : StreamId} {trackId : TrackId}
    {rtp : List UInt8} {rtpData : Option (List UInt8)} {frame : MediaFrame}
    (h : aacFrame tracks s trackId rtp rtpData = some frame) :
    frame.timestamp.toNat < 2 ^ 32 := by
  have hlen : (slice rtp 4 4).length ≤ 4 := List.length_take_le _ _
  have hlt : beNat (slice rtp 4 4) < 2 ^ 32 :=
    (beNat_lt _).trans_le (Nat.pow_le_pow_right (by decide) hlen)
  rw [aacFrame] at h
  split at h
  · cases h
  · rw [Option.ite_none_left_eq_some] at h
    rw [← Option.some.inj h.2]
    exact (UInt64.toNat_ofNat_of_lt' (hlt.trans (by decide))).trans_lt hlt

theorem timestamp_videoFrame {s : StreamId} {msg : RtmpMessage} {frame : MediaFrame}
    (h : RtmpConnection.videoFrame s msg = some frame) :
    frame.timestamp = msg.timestamp.toUInt64 := by
  rw [RtmpConnection.videoFrame] at h
  rw [Option.ite_none_left_eq_some] at h
  rw [← Option.some.inj h.2]
  rfl

/-- The timestamps of all ingests have 32 bits. -/
theorem Ingested.timestamp_lt {frame : MediaFrame} (h : Ingested frame) :
    frame.timestamp.toNat < 2 ^ 32 := by
  cases h with
  | rtmpVideo h =>
    rw [timestamp_videoFrame h]
    exact UInt32.toNat_lt _
  | rtmpPull h =>
    rw [RtmpPull.rtmpMessageToFrame] at h
    split_ifs at h
    · rw [timestamp_videoFrame h]
      exact UInt32.toNat_lt _
    · rw [← Option.some.inj h]
      exact UInt32.toNat_lt _
  | rtspAudio hrun hp h => exact timestamp_aacFrame_lt h
  | rtspPullAudio h => exact timestamp_aacFrame_lt h
  | rtmpAudio | rtspVideo | webrtcVideo | webrtcAudio => exact UInt32.toNat_lt _

/-- No connection of a client of RTSP has tracks to look a rate up in. -/
theorem RecordingRun.untracked_of_exec {peerAddr : String} {es : List RecordingEvent}
    {run : RecordingRun} (h : exec (RecordingRun.step peerAddr) .new es = some run) :
    run.Untracked := by
  refine exec_inv' (fun run e run' hrun hstep => ?_) RecordingRun.untracked_new h
  cases e with
  | request r =>
    obtain rfl := Option.some.inj hstep
    exact hrun.request r
  | tcp | udp =>
    obtain rfl := Option.some.inj hstep
    exact hrun

theorem clockRate_videoFrame {s : StreamId} {msg : RtmpMessage} {frame : MediaFrame}
    (h : RtmpConnection.videoFrame s msg = some frame) :
    frame.clockRate = some MILLISECOND_CLOCK_RATE := by
  rw [RtmpConnection.videoFrame] at h
  rw [Option.ite_none_left_eq_some] at h
  rw [← Option.some.inj h.2]
  rfl

/-- Audio with a rate of zero is **pulled** over RTSP. -/
theorem Ingested.pulled_of_rate_zero {frame : MediaFrame} (h : Ingested frame)
    (hcodec : frame.codec = .aac) (hrate : frame.clockRate = some 0) :
    ∃ sdp s trackId rtp, aacFrame (parseSdpTracks sdp) s trackId rtp none = some frame := by
  have hms : MILLISECOND_CLOCK_RATE ≠ 0 := by decide
  have hdefault : AAC_DEFAULT_CLOCK_RATE ≠ 0 := by decide
  cases h with
  | rtspPullAudio h => exact ⟨_, _, _, _, h⟩
  | rtmpVideo h =>
    rw [clockRate_videoFrame h] at hrate
    exact absurd (Option.some.inj hrate) hms
  | rtmpAudio => exact absurd (Option.some.inj hrate) hms
  | rtmpPull h =>
    rw [RtmpPull.rtmpMessageToFrame] at h
    split_ifs at h
    · rw [clockRate_videoFrame h] at hrate
      exact absurd (Option.some.inj hrate) hms
    · rw [← Option.some.inj h] at hrate
      exact absurd (Option.some.inj hrate) hms
  | rtspAudio hrun hp h =>
    rw [clockRate_aacFrame h, (RecordingRun.untracked_of_exec hrun).tracks_audioPacket hp] at hrate
    exact absurd (Option.some.inj hrate) hdefault
  | rtspVideo | webrtcVideo | webrtcAudio => cases hcodec

/-! ## The timelines -/

open FlvPlayTimeline

/-- On what the ingests publish, deltas, FLV timestamps and the clock of HLS never panic. The
timeline of tags panics **exactly where** it has no room for a frame, and on the first 2^53 frames
that is at audio with a rate of zero. -/
theorem timelines_isSome_iff (frames : List MediaFrame) (h : ∀ frame ∈ frames, Ingested frame) :
    (∀ frame ∈ frames,
      (∀ prev rate, (Checked.mediaTimestampDeltaMsWithClock prev frame.timestamp rate).isSome) ∧
      (Checked.flvTimestampMs frame.codec frame.timestamp).isSome ∧
      ∀ raw ms rate, (Checked.advanceVideoMuxMs raw ms frame.timestamp rate).isSome) ∧
    ((exec Checked.advance .new frames).isSome ↔ Always Checked.advance HasRoom .new frames) ∧
    (frames.length ≤ 2 ^ 53 → ((exec Checked.advance .new frames).isSome ↔
      ∀ frame ∈ frames, frame.codec = .aac → frame.clockRate ≠ some 0)) := by
  refine ⟨fun frame hmem => ⟨fun prev rate => ?_, ?_, fun raw ms rate => ?_⟩, ?_, fun hlen => ?_⟩
  · obtain ⟨delta, hdelta, -⟩ := Checked.mediaTimestampDeltaMsWithClock_eq prev frame.timestamp rate
    rw [hdelta]
    rfl
  · exact Checked.flvTimestampMs_isSome frame.codec (h frame hmem).timestamp_lt
  · rw [Checked.advanceVideoMuxMs_eq]
    rfl
  · exact Checked.isSome_exec_advance_iff frames
  · rw [Checked.isSome_exec_advance_iff]
    exact Checked.always_hasRoom_iff (n := 0) Checked.countsAudio_new (Nat.le_refl 0)
      (Nat.le_refl 0) (by omega)

/-- What a server says, with the rate of its audio. -/
def describedAt (rate : String) : List Char :=
  ("m=video 0 RTP/AVP 96\r\na=rtpmap:96 H264/90000\r\n" ++
    "m=audio 0 RTP/AVP 97\r\na=rtpmap:97 mpeg4-generic/" ++ rate ++ "/2\r\n").toList

/-- A packet with one access unit is pulled from it. -/
def pulledFrame (rate : String) : Option MediaFrame :=
  aacFrame (parseSdpTracks (describedAt rate)) "cam" 1 (hbrPacket oneUnit).toBytes none

theorem exists_pulledFrame (rate : String) {clockRate : UInt32}
    (h : (pulledFrame rate).map (fun frame => (frame.codec, frame.clockRate)) =
      some (.aac, some clockRate)) :
    ∃ frame, Ingested frame ∧ frame.codec = .aac ∧ frame.clockRate = some clockRate := by
  obtain ⟨frame, hframe, hfields⟩ := Option.map_eq_some_iff.mp h
  obtain ⟨hcodec, hrate⟩ := Prod.mk.inj hfields
  exact ⟨frame, .rtspPullAudio hframe, hcodec, hrate⟩

/-- Where the rate is 48 kHz, a frame that is pulled has a time. -/
theorem timelines_isSome_48000 :
    ∃ frame, Ingested frame ∧ (exec Checked.advance .new [frame]).isSome := by
  obtain ⟨frame, hingested, -, hrate⟩ :
      ∃ frame, Ingested frame ∧ frame.codec = .aac ∧ frame.clockRate = some 48000 :=
    exists_pulledFrame "48000" (by decide +kernel)
  have hiff :=
    (timelines_isSome_iff [frame] (List.forall_mem_singleton.mpr hingested)).2.2 Nat.one_le_two_pow
  refine ⟨frame, hingested, hiff.mpr (List.forall_mem_singleton.mpr fun _ hzero => ?_)⟩
  rw [hrate] at hzero
  cases hzero

/-- Where it is **zero**, the timeline divides by it. -/
theorem not_timelines_isSome_zero :
    ¬ ∀ frames : List MediaFrame, (∀ frame ∈ frames, Ingested frame) →
        (exec Checked.advance .new frames).isSome := by
  intro hall
  obtain ⟨frame, hingested, hcodec, hrate⟩ :
      ∃ frame, Ingested frame ∧ frame.codec = .aac ∧ frame.clockRate = some 0 :=
    exists_pulledFrame "0" (by decide +kernel)
  have hmap : Checked.map .new frame = none := by
    rw [Checked.map, hcodec]
    dsimp only
    rw [Checked.idealAudio_of_rate_zero hrate]
    rfl
  have hsome := hall [frame] (List.forall_mem_singleton.mpr hingested)
  rw [exec_cons, Checked.advance, hmap] at hsome
  cases hsome

end VcpMediaServer
