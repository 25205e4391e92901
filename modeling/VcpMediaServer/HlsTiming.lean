import Mathlib.Data.Rat.Defs
import Mathlib.Algebra.Order.Ring.Unbundled.Rat
import VcpMediaServer.Timestamp

/-!
# Segment timing

`hls/timing.rs`, and how `HlsSession` maps the timestamps of a publisher to those of its segments:
video in steps of its own timestamps, audio kept close to the video.

Durations are seconds of a type that has the operations of `f64`. What is proved about segments
holds for **every** such type, however it rounds.

* `closedSegmentSecs`, `shouldSplitSegment`, `advanceVideoMuxMs` — the functions of `timing.rs`.
* `MuxTimeline.muxTimestampMs` — the time of a frame in the segments.
-/

namespace VcpMediaServer

/-! ## Seconds -/

/-- The operations of `f64` that the segmenter uses. -/
class F64 (F : Type) extends Add F, Mul F, Div F, Max F, OfScientific F where
  /-- `as f64`. -/
  cast : ℕ → F
  /-- Whether a number is at most another. -/
  le : F → F → Bool
  /-- `Duration::from_secs_f64`, in nanoseconds. -/
  nanos : F → ℕ

instance : F64 Float where
  cast := Float.ofNat
  le a b := a ≤ b
  nanos secs := (secs * 1e9).round.toUInt64.toNat

instance : F64 ℚ where
  cast n := n
  le a b := a ≤ b
  nanos secs := (secs * 10 ^ 9).floor.toNat

variable {F : Type} [F64 F]

/-- Milliseconds as seconds: `ms as f64 / 1000.0`. -/
def msToSecs (ms : ℕ) : F := F64.cast ms / 1000.0

/-- `SPLIT_THRESHOLD_RATIO`. -/
def SPLIT_THRESHOLD_RATIO : F := 0.85

/-- `MIN_SEGMENT_DURATION`. -/
def MIN_SEGMENT_DURATION : F := 0.25

/-- `FIRST_SEGMENT_MUX_SECS`. -/
def FIRST_SEGMENT_MUX_SECS : F := 0.35

/-- `MIN_VIDEO_MUX_STEP_MS`. -/
def MIN_VIDEO_MUX_STEP_MS : ℕ := 40

/-! ## Splits -/

/-- The span of a segment: `last_mux_ms.saturating_sub(open_mux_ms_at_split)`. -/
def spanMs (lastMuxMs openMuxMs : UInt64) : ℕ := lastMuxMs.toNat - openMuxMs.toNat

/-- `closed_segment_secs`. -/
def closedSegmentSecs (lastMuxMs openMuxMsAtSplit : UInt64) : F :=
  max (msToSecs (spanMs lastMuxMs openMuxMsAtSplit)) MIN_SEGMENT_DURATION

/-- `split_threshold_secs`. -/
def splitThresholdSecs (targetDuration : F) (committedSegments : ℕ) : F :=
  if committedSegments = 0 then FIRST_SEGMENT_MUX_SECS else targetDuration

/-- `SplitEval`. -/
structure SplitEval (F : Type) where
  /-- The frame is a key frame. -/
  isKeyframe : Bool
  /-- The span of the segment on the mux timeline. -/
  muxSecs : F
  /-- The span of the segment on the publisher's timeline. -/
  publisherSecs : F
  /-- The span to split at. -/
  splitThreshold : F
  /-- The segments in the playlist. -/
  committedSegments : ℕ
  /-- The segment has a span. -/
  hasMuxedMedia : Bool
  /-- The bytes of the segment. -/
  bufferLen : ℕ
  /-- The bytes that a segment needs. -/
  minSegmentBytes : ℕ

/-- `should_split_segment`. -/
def shouldSplitSegment (input : SplitEval F) : Bool :=
  if !input.isKeyframe || !input.hasMuxedMedia || input.bufferLen ≤ input.minSegmentBytes then false
  else
    let readyByTime := F64.le (input.splitThreshold * SPLIT_THRESHOLD_RATIO) input.muxSecs ||
      F64.le (input.splitThreshold * SPLIT_THRESHOLD_RATIO) input.publisherSecs
    let forceOnLongGop := F64.le (input.splitThreshold * 1.5) input.muxSecs ||
      F64.le (input.splitThreshold * 1.5) input.publisherSecs
    let firstSegment := input.committedSegments = 0 && F64.le FIRST_SEGMENT_MUX_SECS input.muxSecs
    readyByTime || forceOnLongGop || firstSegment

/-- A segment is split **at a key frame**. -/
theorem isKeyframe_of_shouldSplitSegment {input : SplitEval F} (h : shouldSplitSegment input) :
    input.isKeyframe = true := by
  rw [shouldSplitSegment] at h
  split at h
  · cases h
  · next hnot =>
    simp only [Bool.or_eq_true, not_or] at hnot
    simpa using hnot.1.1

/-- `live_pdt`: nanoseconds of the wall clock. -/
def livePdt (duration : F) (now : ℤ) : ℤ := now - F64.nanos (max duration 0.0)

/-! ## The timeline -/

/-- `advance_video_mux_ms`. -/
def advanceVideoMuxMs (sessionLastRawVideo sessionVideoMuxMs frameTimestamp : UInt64)
    (clockRate : Option UInt32) : UInt64 × UInt64 :=
  let step :=
    if 0 < sessionLastRawVideo ∧ sessionLastRawVideo < frameTimestamp then
      let delta := mediaTimestampDeltaMsWithClock sessionLastRawVideo frameTimestamp clockRate
      if 0 < delta ∧ delta < 500 then delta else MIN_VIDEO_MUX_STEP_MS
    else if sessionVideoMuxMs = 0 then 0
    else MIN_VIDEO_MUX_STEP_MS
  (frameTimestamp,
    if sessionVideoMuxMs = 0 ∧ step = 0 then 0
    else saturatingAdd sessionVideoMuxMs (if step = 0 then MIN_VIDEO_MUX_STEP_MS else step))

/-- Video does not go back. -/
theorem le_advanceVideoMuxMs (sessionLastRawVideo sessionVideoMuxMs frameTimestamp : UInt64)
    (clockRate : Option UInt32) : sessionVideoMuxMs ≤
      (advanceVideoMuxMs sessionLastRawVideo sessionVideoMuxMs frameTimestamp clockRate).2 := by
  rw [advanceVideoMuxMs]
  dsimp only
  generalize (if 0 < sessionLastRawVideo ∧ sessionLastRawVideo < frameTimestamp then _ else _) =
    step
  split
  · next hzero =>
    rw [hzero.1]
    exact UInt64.le_refl 0
  · exact le_saturatingAdd _ _

/-- The fields of `HlsSession` that place frames on the mux timeline. -/
structure MuxTimeline where
  /-- The mux time of video. -/
  sessionVideoMuxMs : UInt64
  /-- The mux time of audio. -/
  sessionAudioMuxMs : UInt64
  /-- The publisher's timestamp of the last video frame. -/
  sessionLastRawVideo : UInt64
  /-- The publisher's timestamp of the last audio frame. -/
  sessionLastRawAudio : Option UInt64

namespace MuxTimeline

/-- The timeline of a new session. -/
def new : MuxTimeline :=
  { sessionVideoMuxMs := 0, sessionAudioMuxMs := 0, sessionLastRawVideo := 0,
    sessionLastRawAudio := none }

/-- The time of an audio frame by its own timestamps. -/
def audioPts (t : MuxTimeline) (frame : MediaFrame) : UInt64 :=
  match t.sessionLastRawAudio with
  | some lastRaw =>
    if lastRaw < frame.timestamp then
      let delta := mediaTimestampDeltaMsWithClock lastRaw frame.timestamp frame.clockRate
      if 0 < delta ∧ delta < 2000 then saturatingAdd t.sessionAudioMuxMs delta
        else t.sessionVideoMuxMs
    else t.sessionAudioMuxMs
  | none => t.sessionVideoMuxMs

/-- `HlsSession::mux_timestamp_ms`. -/
def muxTimestampMs (t : MuxTimeline) (frame : MediaFrame) : MuxTimeline × UInt64 :=
  match frame.codec with
  | .aac =>
    let minAudioMs := saturatingSub t.sessionVideoMuxMs 200
    let maxAudioMs := saturatingAdd t.sessionVideoMuxMs 100
    let clamped := max minAudioMs (min (t.audioPts frame) maxAudioMs)
    ({ t with sessionLastRawAudio := some frame.timestamp, sessionAudioMuxMs := clamped }, clamped)
  | .h264 | .h265 =>
    let (lastRaw, muxMs) :=
      advanceVideoMuxMs t.sessionLastRawVideo t.sessionVideoMuxMs frame.timestamp
      frame.clockRate
    ({ t with sessionLastRawVideo := lastRaw, sessionVideoMuxMs := muxMs }, muxMs)
  | _ => (t, 0)

/-- The time of a frame of video is that of video from then on. -/
theorem sessionVideoMuxMs_of_isVideo (t : MuxTimeline) {frame : MediaFrame}
    (h : frame.codec.isVideo) :
    (t.muxTimestampMs frame).1.sessionVideoMuxMs = (t.muxTimestampMs frame).2 := by
  rw [muxTimestampMs]
  cases hcodec : frame.codec with
  | h264 => rfl
  | h265 => rfl
  | _ => rw [hcodec] at h; cases h

/-- Other frames leave the time of video. -/
theorem sessionVideoMuxMs_of_not_isVideo (t : MuxTimeline) {frame : MediaFrame}
    (h : ¬frame.codec.isVideo) :
    (t.muxTimestampMs frame).1.sessionVideoMuxMs = t.sessionVideoMuxMs := by
  rw [muxTimestampMs]
  cases hcodec : frame.codec with
  | h264 => exact absurd (by rw [hcodec]; rfl) h
  | h265 => exact absurd (by rw [hcodec]; rfl) h
  | _ => rfl

/-- The time of video does not go back. -/
theorem le_muxTimestampMs (t : MuxTimeline) (frame : MediaFrame) :
    t.sessionVideoMuxMs ≤ (t.muxTimestampMs frame).1.sessionVideoMuxMs := by
  by_cases h : frame.codec.isVideo
  · rw [muxTimestampMs]
    cases hcodec : frame.codec with
    | h264 => exact le_advanceVideoMuxMs _ _ _ _
    | h265 => exact le_advanceVideoMuxMs _ _ _ _
    | _ => rw [hcodec] at h; cases h
  · rw [sessionVideoMuxMs_of_not_isVideo t h]
    exact UInt64.le_refl _

end MuxTimeline

end VcpMediaServer
