import VcpMediaServer.H264Util
import VcpMediaServer.M3u8
import VcpMediaServer.TsMuxer

/-!
# The HLS session

`HlsSession`: the muxer of a stream, the segment that is open, and what decides where it ends. A
segment ends at a key frame, which becomes the first frame of the next; **the frame is muxed in two
places**, one for the key frame at a split and one for every other frame.

* `HlsSession.onFrame` — a frame, and the segment that it completes.
* `HlsSession.recoverFromLag` — the open segment is thrown away; the session stays primed.
* `onFrame_of_not_accepts`, `onFrame_eq_append`, `onFrame_eq_split` — the ways a call can go.

Log lines, requests to the publisher for a key frame and the clocks that nothing reads are left out:
they change nothing that is muxed.
-/

namespace VcpMediaServer

/-- `MIN_SEGMENT_BYTES`. -/
def MIN_SEGMENT_BYTES : ℕ := 512

/-- `is_hls_video_keyframe`. -/
def isHlsVideoKeyframe (frame : MediaFrame) : Bool :=
  frame.codec.isVideo && (frame.isKeyframe || isKeyframeAnnexB frame.data)

/-- `prepare_frame_for_mux`: the frame at its time on the mux timeline. -/
def MuxTimeline.prepareFrameForMux (t : MuxTimeline) (frame : MediaFrame) :
    MuxTimeline × MediaFrame :=
  let (t, ts) := t.muxTimestampMs frame
  (t,
    (MediaFrame.new frame.streamId frame.trackId ts frame.data frame.isKeyframe
    frame.codec).withClockRate
    MILLISECOND_CLOCK_RATE)

/-- `HlsSession`. -/
structure HlsSession (F : Type) extends MuxTimeline where
  /-- The stream. -/
  streamId : StreamId
  /-- Its muxer. -/
  muxer : TsMuxer
  /-- The segments that are written. -/
  playlist : M3u8Generator F
  /-- The open segment. -/
  segmentBuffer : List UInt8
  /-- Its duration by the publisher's timestamps. -/
  segmentDurationAcc : F
  /-- The session runs. -/
  active : Bool
  /-- A key frame has come. -/
  primed : Bool
  /-- The AAC frames so far. -/
  sessionAudioFrames : ℕ
  /-- The publisher's timestamp of the last video frame of the segment. -/
  lastVideoTimestamp : UInt64
  /-- The mux time of video when the segment was opened. -/
  segmentOpenMuxMs : UInt64
  /-- The mux time of the last video frame. -/
  segmentLastMuxMs : UInt64
  /-- The mux time of video when the segment was opened, from which its duration counts. -/
  segmentOpenMuxMsAtSplit : UInt64
  /-- The next segment comes behind a gap. -/
  pendingDiscontinuity : Bool

/-- `CompletedSegment`. -/
structure CompletedSegment (F : Type) where
  /-- The bytes of the segment. -/
  data : List UInt8
  /-- The name of its file. -/
  filename : String
  /-- Its duration in seconds. -/
  duration : F
  /-- Its sequence number. -/
  seq : ℕ
  /-- When its media starts. -/
  pdt : ℤ
  /-- It comes behind a gap. -/
  discontinuity : Bool

namespace HlsSession

variable {F : Type} [F64 F]

/-- `HlsSession::new`, with the settings of `HlsConfig` that it uses. -/
def new (streamId : StreamId) (segmentDuration : F) (maxSegments : ℕ) : HlsSession F where
  toMuxTimeline := .new
  streamId := streamId
  muxer := .new
  playlist := .new segmentDuration maxSegments
  segmentBuffer := []
  segmentDurationAcc := 0.0
  active := true
  primed := false
  sessionAudioFrames := 0
  lastVideoTimestamp := 0
  segmentOpenMuxMs := 0
  segmentLastMuxMs := 0
  segmentOpenMuxMsAtSplit := 0
  pendingDiscontinuity := false

/-- `HlsSession::recover_from_lag`. -/
def recoverFromLag (s : HlsSession F) : HlsSession F :=
  { s with
    segmentBuffer := []
    segmentDurationAcc := 0.0
    lastVideoTimestamp := 0
    segmentOpenMuxMs := s.sessionVideoMuxMs
    segmentLastMuxMs := s.sessionVideoMuxMs
    segmentOpenMuxMsAtSplit := s.sessionVideoMuxMs
    pendingDiscontinuity := true }

/-- `HlsSession::segment_mux_secs`. -/
def segmentMuxSecs (s : HlsSession F) : F :=
  msToSecs (spanMs s.segmentLastMuxMs (max s.segmentOpenMuxMsAtSplit s.segmentOpenMuxMs))

/-- `HlsSession::closed_segment_secs`. -/
def closedSegmentSecs (s : HlsSession F) : F :=
  VcpMediaServer.closedSegmentSecs s.segmentLastMuxMs s.segmentOpenMuxMsAtSplit

/-- `HlsSession::begin_new_segment`. -/
def beginNewSegment (s : HlsSession F) : HlsSession F :=
  { s with
    segmentDurationAcc := 0.0
    lastVideoTimestamp := 0
    segmentOpenMuxMs := s.sessionVideoMuxMs
    segmentOpenMuxMsAtSplit := s.sessionVideoMuxMs
    muxer := s.muxer.resetForNewSegment }

/-! ## The steps of `on_frame` -/

/-- The frames that are not looked at. -/
def isSkipped (frame : MediaFrame) : Bool :=
  frame.codec = .opus || frame.codec = .g711 || frame.codec = .aac && frame.data.length < 8

/-- A frame of AAC is counted, **before** the session is primed as well. -/
def countAudio (s : HlsSession F) (frame : MediaFrame) : HlsSession F :=
  if frame.codec = .aac then { s with sessionAudioFrames := s.sessionAudioFrames + 1 } else s

/-- A segment that is empty is opened with its tables. -/
def openSegment (s : HlsSession F) (frame : MediaFrame) : HlsSession F :=
  if s.segmentBuffer = [] then
    let (muxer, patPmt) := s.muxer.generatePatPmt true
      (decide (0 < s.sessionAudioFrames) || decide (frame.codec = .aac))
    { s with
      segmentOpenMuxMs := s.sessionVideoMuxMs
      segmentOpenMuxMsAtSplit := s.sessionVideoMuxMs
      muxer
      segmentBuffer := patPmt }
  else s

/-- The duration by the publisher's timestamps. -/
def trackDuration (s : HlsSession F) (frame : MediaFrame) : HlsSession F :=
  if frame.codec.isVideo then
    let deltaMs :=
      mediaTimestampDeltaMsWithClock s.lastVideoTimestamp frame.timestamp frame.clockRate
    { s with
      segmentDurationAcc :=
        if (0 < s.lastVideoTimestamp ∧ s.lastVideoTimestamp < frame.timestamp) ∧ 0 < deltaMs ∧
          deltaMs < 2000 then
          s.segmentDurationAcc + msToSecs deltaMs
        else s.segmentDurationAcc
      lastVideoTimestamp := frame.timestamp }
  else s

/-- Whether the segment ends in front of the frame. -/
def splits (s : HlsSession F) (frame : MediaFrame) : Bool :=
  shouldSplitSegment
      { isKeyframe := isHlsVideoKeyframe frame
        muxSecs := s.segmentMuxSecs
        publisherSecs := s.segmentDurationAcc
        splitThreshold := splitThresholdSecs s.playlist.targetDuration s.playlist.segmentCount
        committedSegments := s.playlist.segmentCount
        hasMuxedMedia := s.segmentOpenMuxMsAtSplit < s.segmentLastMuxMs
        bufferLen := s.segmentBuffer.length
        minSegmentBytes := MIN_SEGMENT_BYTES } &&
    decide (MIN_SEGMENT_BYTES < s.segmentBuffer.length)

/-- The segment that is closed at the time `now`. -/
def completedSegment (s : HlsSession F) (now : ℤ) : CompletedSegment F :=
  { data := s.segmentBuffer
    filename := M3u8Generator.segmentFilename s.playlist.nextSequence
    duration := s.closedSegmentSecs
    seq := s.playlist.nextSequence
    pdt := livePdt s.closedSegmentSecs now
    discontinuity := s.pendingDiscontinuity }

/-- The next segment, with its tables: the flag for the gap is **used up**. -/
def nextSegment (s : HlsSession F) : HlsSession F :=
  let discontinuity := s.pendingDiscontinuity
  let s := { s with pendingDiscontinuity := false, segmentBuffer := [] }.beginNewSegment
  let s := if discontinuity then { s with muxer := s.muxer.markSegmentDiscontinuity } else s
  let (muxer, patPmt) := s.muxer.generatePatPmt true (decide (0 < s.sessionAudioFrames))
  { s with muxer, segmentBuffer := s.segmentBuffer ++ patPmt }

/-- A frame is muxed, as the key frame at a split is. -/
def muxSplitKeyframe (s : HlsSession F) (frame : MediaFrame) : HlsSession F :=
  let (timeline, muxFrame) := s.prepareFrameForMux frame
  let (muxer, tsData) := (s.muxer.updatePcr muxFrame.timestamp).frameToTs muxFrame
  { s with
    toMuxTimeline := timeline
    segmentLastMuxMs := muxFrame.timestamp
    muxer
    segmentBuffer := s.segmentBuffer ++ tsData }

/-- A frame is muxed, as every other frame is. -/
def muxFrame (s : HlsSession F) (frame : MediaFrame) : HlsSession F :=
  let (timeline, muxFrame) := s.prepareFrameForMux frame
  let (muxer, tsData) := (s.muxer.updatePcr muxFrame.timestamp).frameToTs muxFrame
  { s with
    toMuxTimeline := timeline
    segmentLastMuxMs := if muxFrame.codec.isVideo then muxFrame.timestamp else s.segmentLastMuxMs
    muxer
    segmentBuffer := s.segmentBuffer ++ tsData }

/-- `HlsSession::on_frame`, at the time `now`. -/
def onFrame (s : HlsSession F) (now : ℤ) (frame : MediaFrame) :
    HlsSession F × Option (CompletedSegment F) :=
  if !s.active then (s, none)
  else if isSkipped frame then (s, none)
  else
    let s := s.countAudio frame
    if !s.primed && !isHlsVideoKeyframe frame then (s, none)
    else
      let s := { s with primed := true }
      let s := s.openSegment frame
      let s := s.trackDuration frame
      if s.splits frame then (s.nextSegment.muxSplitKeyframe frame, some (s.completedSegment now))
      else (s.muxFrame frame, none)

/-! ## The ways a call can go -/

/-- The frames that are muxed. -/
def accepts (s : HlsSession F) (frame : MediaFrame) : Bool :=
  s.active && !isSkipped frame && (s.primed || isHlsVideoKeyframe frame)

/-- The session when it decides on a frame. -/
def ready (s : HlsSession F) (frame : MediaFrame) : HlsSession F :=
  ({ s.countAudio frame with primed := true }.openSegment frame).trackDuration frame

/-- The muxer of the next segment, before its tables. -/
def nextMuxer (s : HlsSession F) : TsMuxer :=
  if s.pendingDiscontinuity then s.muxer.markSegmentDiscontinuity else s.muxer

theorem nextSegment_eq (s : HlsSession F) :
    let tables := s.nextMuxer.generatePatPmt true (decide (0 < s.sessionAudioFrames))
    s.nextSegment = { s with
      pendingDiscontinuity := false
      segmentDurationAcc := 0.0
      lastVideoTimestamp := 0
      segmentOpenMuxMs := s.sessionVideoMuxMs
      segmentOpenMuxMsAtSplit := s.sessionVideoMuxMs
      muxer := tables.1
      segmentBuffer := tables.2 } := by
  simp only [nextSegment, nextMuxer, beginNewSegment, TsMuxer.resetForNewSegment, apply_ite muxer,
    apply_ite sessionAudioFrames, ite_self]
  generalize TsMuxer.generatePatPmt _ _ _ = tables
  cases s.pendingDiscontinuity with
  | false => rfl
  | true => rfl

omit [F64 F] in
theorem openSegment_of_nil {s : HlsSession F} (h : s.segmentBuffer = []) (frame : MediaFrame) :
    let tables := s.muxer.generatePatPmt true
      (decide (0 < s.sessionAudioFrames) || decide (frame.codec = .aac))
    s.openSegment frame = { s with
      segmentOpenMuxMs := s.sessionVideoMuxMs
      segmentOpenMuxMsAtSplit := s.sessionVideoMuxMs
      muxer := tables.1
      segmentBuffer := tables.2 } := by
  rw [openSegment, if_pos h]

omit [F64 F] in
theorem openSegment_of_ne_nil {s : HlsSession F} (h : s.segmentBuffer ≠ []) (frame : MediaFrame) :
    s.openSegment frame = s := by
  rw [openSegment, if_neg h]

variable {s : HlsSession F} {frame : MediaFrame}

/-- A frame on which a session decides leaves it running and primed. -/
theorem running_ready (s : HlsSession F) (frame : MediaFrame) :
    (s.ready frame).active = s.active ∧ (s.ready frame).primed = true := by
  have htrack : ∀ t : HlsSession F, (t.trackDuration frame).active = t.active ∧
      (t.trackDuration frame).primed = t.primed := by
    intro t
    rw [trackDuration]
    split <;> exact ⟨rfl, rfl⟩
  have hopen : ∀ t : HlsSession F, (t.openSegment frame).active = t.active ∧
      (t.openSegment frame).primed = t.primed := by
    intro t
    rw [openSegment]
    split <;> exact ⟨rfl, rfl⟩
  have hcount : (s.countAudio frame).active = s.active := by
    rw [countAudio]
    split <;> rfl
  rw [ready, (htrack _).1, (htrack _).2, (hopen _).1, (hopen _).2]
  exact ⟨hcount, rfl⟩

/-- Of a frame that is not muxed, audio is counted at most. -/
theorem onFrame_of_not_accepts (h : ¬s.accepts frame) (now : ℤ) :
    ∃ n, s.onFrame now frame = ({ s with sessionAudioFrames := n }, none) := by
  rw [onFrame]
  split
  · exact ⟨s.sessionAudioFrames, rfl⟩
  next hactive =>
  split
  · exact ⟨s.sessionAudioFrames, rfl⟩
  next hskipped =>
  have hprimed : (!(s.countAudio frame).primed && !isHlsVideoKeyframe frame) = true := by
    have hsame : (s.countAudio frame).primed = s.primed := by rw [countAudio]; split <;> rfl
    have hrunning : s.active = true := by simpa using hactive
    rw [hsame]
    simpa [accepts, hrunning, hskipped] using h
  dsimp only
  rw [if_pos hprimed, countAudio]
  split
  · exact ⟨s.sessionAudioFrames + 1, rfl⟩
  · exact ⟨s.sessionAudioFrames, rfl⟩

/-- A frame that is muxed. -/
theorem onFrame_of_accepts (h : s.accepts frame) (now : ℤ) :
    s.onFrame now frame =
      if (s.ready frame).splits frame then
        ((s.ready frame).nextSegment.muxSplitKeyframe frame,
          some ((s.ready frame).completedSegment now))
      else ((s.ready frame).muxFrame frame, none) := by
  simp only [accepts, Bool.and_eq_true, Bool.not_eq_true', Bool.or_eq_true] at h
  obtain ⟨⟨hactive, hskipped⟩, hprimed⟩ := h
  have hnot : ¬(!(s.countAudio frame).primed && !isHlsVideoKeyframe frame) = true := by
    have hsame : (s.countAudio frame).primed = s.primed := by rw [countAudio]; split <;> rfl
    rw [hsame]
    rcases hprimed with hprimed | hkey
    · simp [hprimed]
    · simp [hkey]
  rw [onFrame, if_neg (by simp [hactive]), if_neg (by simp [hskipped])]
  dsimp only
  rw [if_neg hnot]
  rfl

omit [F64 F] in
theorem running_muxSplitKeyframe (s : HlsSession F) (frame : MediaFrame) :
    (s.muxSplitKeyframe frame).active = s.active ∧
        (s.muxSplitKeyframe frame).primed = s.primed := by
  rw [muxSplitKeyframe]
  exact ⟨rfl, rfl⟩

omit [F64 F] in
theorem running_muxFrame (s : HlsSession F) (frame : MediaFrame) :
    (s.muxFrame frame).active = s.active ∧ (s.muxFrame frame).primed = s.primed := by
  rw [muxFrame]
  exact ⟨rfl, rfl⟩

theorem running_onFrame (h : s.accepts frame) (now : ℤ) :
    (s.onFrame now frame).1.active = s.active ∧ (s.onFrame now frame).1.primed = true := by
  have hready := running_ready s frame
  rw [onFrame_of_accepts h]
  split
  · have hnext : (s.ready frame).nextSegment.active = (s.ready frame).active ∧
        (s.ready frame).nextSegment.primed = (s.ready frame).primed := by
      rw [nextSegment_eq]
      exact ⟨rfl, rfl⟩
    have hsplit := running_muxSplitKeyframe (s.ready frame).nextSegment frame
    exact ⟨hsplit.1.trans (hnext.1.trans hready.1), hsplit.2.trans (hnext.2.trans hready.2)⟩
  · have hmux := running_muxFrame (s.ready frame) frame
    exact ⟨hmux.1.trans hready.1, hmux.2.trans hready.2⟩

/-- A split is at a key frame. -/
theorem isHlsVideoKeyframe_of_splits (h : s.splits frame) : isHlsVideoKeyframe frame = true := by
  rw [splits, Bool.and_eq_true] at h
  exact isKeyframe_of_shouldSplitSegment h.1

theorem isVideo_of_isHlsVideoKeyframe (h : isHlsVideoKeyframe frame) : frame.codec.isVideo = true :=
  (Bool.and_eq_true_iff.mp h).1

omit [F64 F] in
/-- The two places mux a frame of video **alike**. -/
theorem muxSplitKeyframe_eq_muxFrame (s : HlsSession F) (h : frame.codec.isVideo) :
    s.muxSplitKeyframe frame = s.muxFrame frame := by
  rw [muxSplitKeyframe, muxFrame]
  have hcodec : (s.prepareFrameForMux frame).2.codec = frame.codec := rfl
  simp only [hcodec, h, if_true]

end HlsSession

end VcpMediaServer
