import VcpMediaServer.HlsSegments

/-!
# The time of video

`advance_video_mux_ms` over a whole run: each frame of video moves the time of video by a step of
its own. A time of zero is the time of the first frame and says as well that **no frame has come**,
so the second frame moves it only with timestamps that rise from a first one that is not zero.

* `clockStep` — the frames of video alone.
* `videoTimes_run` — the calls of a session give video the times of its frames alone.
* `isChain_clock` — a clock that runs goes forward until it is full.
-/

namespace VcpMediaServer

open Mealy

/-! ## The clock -/

/-- How far a frame moves a clock that runs. -/
def videoStep (raw : UInt64) (frame : MediaFrame) : ℕ :=
  if 0 < raw ∧ raw < frame.timestamp then
    let delta := mediaTimestampDeltaMsWithClock raw frame.timestamp frame.clockRate
    if 0 < delta ∧ delta < 500 then delta else MIN_VIDEO_MUX_STEP_MS
  else MIN_VIDEO_MUX_STEP_MS

theorem videoStep_pos (raw : UInt64) (frame : MediaFrame) : 0 < videoStep raw frame := by
  rw [videoStep]
  dsimp only
  split
  · split
    · next hdelta => exact hdelta.1
    · decide
  · decide

/-- The steps of frames behind one with the timestamp `raw`. -/
def videoSteps : UInt64 → List MediaFrame → List ℕ
  | _, [] => []
  | raw, frame :: frames => videoStep raw frame :: videoSteps frame.timestamp frames

/-- The clock of video: the last timestamp of the publisher, and the time. -/
def clockStep (clock : UInt64 × UInt64) (frame : MediaFrame) : (UInt64 × UInt64) × List UInt64 :=
  let next := advanceVideoMuxMs clock.1 clock.2 frame.timestamp frame.clockRate
  (next, [next.2])

/-- A clock that runs takes the step. -/
theorem clockStep_of_ne_zero {raw ms : UInt64} (h : ms ≠ 0) (frame : MediaFrame) :
    clockStep (raw, ms) frame =
      ((frame.timestamp, saturatingAdd ms (videoStep raw frame)),
          [saturatingAdd ms (videoStep raw frame)]) := by
  have hstep : advanceVideoMuxMs raw ms frame.timestamp frame.clockRate =
      (frame.timestamp, saturatingAdd ms (videoStep raw frame)) := by
    have hpos := videoStep_pos raw frame
    rw [advanceVideoMuxMs]
    simp only [h, false_and, if_false]
    change (frame.timestamp,
      saturatingAdd ms (if videoStep raw frame = 0 then MIN_VIDEO_MUX_STEP_MS
        else videoStep raw frame)) = _
    rw [if_neg (Nat.ne_of_gt hpos)]
  rw [clockStep, hstep]

/-- A clock that does not run is started by a frame behind another: from zero on, and upwards. -/
theorem clockStep_zero (raw : UInt64) (frame : MediaFrame) :
    clockStep (raw, 0) frame =
      if 0 < raw ∧ raw < frame.timestamp then
        ((frame.timestamp, saturatingAdd 0 (videoStep raw frame)),
          [saturatingAdd 0 (videoStep raw frame)])
      else ((frame.timestamp, 0), [0]) := by
  have hpos := videoStep_pos raw frame
  rw [clockStep, advanceVideoMuxMs]
  by_cases hrises : 0 < raw ∧ raw < frame.timestamp
  · have hstep : videoStep raw frame =
        let delta := mediaTimestampDeltaMsWithClock raw frame.timestamp frame.clockRate
        if 0 < delta ∧ delta < 500 then delta else MIN_VIDEO_MUX_STEP_MS := by
      rw [videoStep, if_pos hrises]
    rw [if_pos hrises, if_pos hrises, ← hstep, if_neg (fun h => Nat.ne_of_gt hpos h.2),
      if_neg (Nat.ne_of_gt hpos)]
  · rw [if_neg hrises, if_neg hrises]
    rfl

theorem saturatingAdd_ne_zero {ms : UInt64} {n : ℕ} (h : 0 < n) : saturatingAdd ms n ≠ 0 := by
  intro hzero
  have hsum := toNat_saturatingAdd ms n
  rw [hzero] at hsum
  have : (0 : UInt64).toNat = 0 := rfl
  omega

theorem lt_saturatingAdd_iff {ms : UInt64} {n : ℕ} (h : 0 < n) :
    ms < saturatingAdd ms n ↔ ms.toNat < 2 ^ 64 - 1 := by
  rw [UInt64.lt_iff_toNat_lt, toNat_saturatingAdd]
  omega

/-- A clock that runs goes forward **until it is full**. -/
theorem isChain_clock {raw ms : UInt64} (hms : ms ≠ 0) (frame : MediaFrame)
    (frames : List MediaFrame) :
    (ms :: (trace clockStep (raw, ms) (frame :: frames)).flatten).IsChain (· < ·) ↔
      ms.toNat + (videoSteps raw (frame :: frames)).dropLast.sum < 2 ^ 64 - 1 := by
  induction frames generalizing raw ms frame with
  | nil =>
    rw [trace_cons, trace_nil, clockStep_of_ne_zero hms]
    simp [videoSteps, lt_saturatingAdd_iff (videoStep_pos raw frame)]
  | cons next frames ih =>
    have hpos := videoStep_pos raw frame
    have hms' : saturatingAdd ms (videoStep raw frame) ≠ 0 := saturatingAdd_ne_zero hpos
    have hnext := @ih frame.timestamp _ hms' next
    rw [toNat_saturatingAdd] at hnext
    have hsum : (videoSteps raw (frame :: next :: frames)).dropLast.sum =
        videoStep raw frame + (videoSteps frame.timestamp (next :: frames)).dropLast.sum := rfl
    rw [trace_cons, clockStep_of_ne_zero hms, List.flatten_cons, List.singleton_append,
      List.isChain_cons_cons, hnext, lt_saturatingAdd_iff hpos, hsum]
    omega

/-- The frames start the clock, and do not fill it before the last. -/
def GoesForward : List MediaFrame → Prop
  | first :: second :: frames =>
    (0 < first.timestamp ∧ first.timestamp < second.timestamp) ∧
      (videoSteps first.timestamp (second :: frames)).dropLast.sum < 2 ^ 64 - 1
  | _ => True

/-- The clock goes forward with every frame **exactly if the second starts it** and it is not full.
-/
theorem isChain_clock_iff (frames : List MediaFrame) :
    (trace clockStep (0, 0) frames).flatten.IsChain (· < ·) ↔ GoesForward frames := by
  match frames with
  | [] => simp [GoesForward]
  | [first] => simp [GoesForward, clockStep]
  | first :: second :: rest =>
    have hfirst : clockStep (0, 0) first = ((first.timestamp, 0), [0]) := by
      rw [clockStep_zero]
      exact if_neg fun h => absurd h.1 (by decide)
    have hsplit : (trace clockStep (0, 0) (first :: second :: rest)).flatten =
        0 :: (trace clockStep (first.timestamp, 0) (second :: rest)).flatten := by
      rw [trace_cons, hfirst]
      rfl
    rw [hsplit, GoesForward, trace_cons, clockStep_zero]
    split
    · next hrises =>
      have hpos := videoStep_pos first.timestamp second
      have hzero : (0 : UInt64).toNat = 0 := rfl
      have hlt : (0 : UInt64) < saturatingAdd 0 (videoStep first.timestamp second) :=
        (lt_saturatingAdd_iff hpos).mpr (by rw [hzero]; decide)
      rw [and_iff_right hrises, List.flatten_cons, List.singleton_append, List.isChain_cons_cons,
        and_iff_right hlt]
      match rest with
      | [] => simp [videoSteps]
      | third :: rest =>
        have hsum : (videoSteps first.timestamp (second :: third :: rest)).dropLast.sum =
            videoStep first.timestamp second +
              (videoSteps second.timestamp (third :: rest)).dropLast.sum := rfl
        rw [isChain_clock (saturatingAdd_ne_zero hpos), toNat_saturatingAdd, hzero, hsum]
        omega
    · next hnot =>
      refine ⟨fun h => ?_, fun h => absurd h.1 hnot⟩
      rw [List.flatten_cons, List.singleton_append, List.isChain_cons_cons] at h
      exact absurd h.1 (by decide)

/-! ## Sessions -/

/-- A frame of video takes the step of the clock. -/
theorem MuxTimeline.clockStep_of_isVideo (t : MuxTimeline) {frame : MediaFrame}
    (h : frame.codec.isVideo) :
    clockStep (t.sessionLastRawVideo, t.sessionVideoMuxMs) frame =
      (((t.muxTimestampMs frame).1.sessionLastRawVideo,
        (t.muxTimestampMs frame).1.sessionVideoMuxMs), [(t.muxTimestampMs frame).2]) := by
  rw [muxTimestampMs]
  cases hcodec : frame.codec with
  | h264 => rfl
  | h265 => rfl
  | _ => rw [hcodec] at h; cases h

/-- Other frames leave the clock. -/
theorem MuxTimeline.clock_of_not_isVideo (t : MuxTimeline) {frame : MediaFrame}
    (h : ¬frame.codec.isVideo) :
    ((t.muxTimestampMs frame).1.sessionLastRawVideo, (t.muxTimestampMs frame).1.sessionVideoMuxMs) =
      (t.sessionLastRawVideo, t.sessionVideoMuxMs) := by
  rw [muxTimestampMs]
  cases hcodec : frame.codec with
  | h264 => exact absurd (by rw [hcodec]; rfl) h
  | h265 => exact absurd (by rw [hcodec]; rfl) h
  | _ => rfl

namespace HlsSession

variable {F : Type} [F64 F] {s : HlsSession F} {frame : MediaFrame}

theorem timeline_ready (s : HlsSession F) (frame : MediaFrame) :
    (s.ready frame).toMuxTimeline = s.toMuxTimeline := by
  have hopen : ∀ t : HlsSession F, (t.openSegment frame).toMuxTimeline = t.toMuxTimeline := by
    intro t
    rw [openSegment]
    split <;> rfl
  rw [ready, (sameSegment_trackDuration _ _).timeline, hopen,
    (sameSegment_countAudio s frame).timeline]

/-- A frame that is accepted is muxed at its time on the timeline of the session. -/
theorem timeline_onFrame (h : s.accepts frame) (now : ℤ) :
    (s.onFrame now frame).1.toMuxTimeline = (s.toMuxTimeline.muxTimestampMs frame).1 ∧
      (frame.codec.isVideo → (s.onFrame now frame).1.segmentLastMuxMs =
        (s.toMuxTimeline.muxTimestampMs frame).2) := by
  have hmux : ∀ t : HlsSession F, t.toMuxTimeline = s.toMuxTimeline →
      (t.muxFrame frame).toMuxTimeline = (s.toMuxTimeline.muxTimestampMs frame).1 ∧
        (frame.codec.isVideo → (t.muxFrame frame).segmentLastMuxMs =
            (s.toMuxTimeline.muxTimestampMs frame).2) := by
    intro t ht
    rw [muxFrame_eq]
    dsimp only
    rw [timeline_muxStep, ht]
    exact ⟨rfl, fun hvideo => if_pos hvideo⟩
  have hready := timeline_ready s frame
  rw [onFrame_of_accepts h]
  split
  · next hsplits =>
    have hvideo := isVideo_of_isHlsVideoKeyframe (isHlsVideoKeyframe_of_splits hsplits)
    rw [muxSplitKeyframe_eq_muxFrame _ hvideo]
    exact hmux _ (by rw [nextSegment_eq]; exact hready)
  · exact hmux _ hready

/-- The time at which a call muxes a frame of video. -/
def videoTimes (s : HlsSession F) : HlsCall F → List UInt64
  | .onFrame now frame =>
    if s.accepts frame && frame.codec.isVideo then [(s.onFrame now frame).1.segmentLastMuxMs]
      else []
  | _ => []

/-- A call, and the time of its frame of video. -/
def videoCall (s : HlsSession F) (c : HlsCall F) : HlsSession F × List UInt64 :=
  ((s.call c).1, s.videoTimes c)

end HlsSession

/-- The frames of video that are muxed. -/
def videoFrames {F : Type} (calls : List (HlsCall F)) : List MediaFrame :=
  (acceptedFrames calls).filter fun frame => frame.codec.isVideo

/-- A session at the end of a run, where its clock is that of the frames of video alone. -/
structure KeepsTime {F : Type} (s : HlsSession F) (calls : List (HlsCall F)) : Prop where
  active : s.active = true
  primed : s.primed = true ↔ acceptedFrames calls ≠ []
  clock : (s.sessionLastRawVideo, s.sessionVideoMuxMs) = final clockStep (0, 0) (videoFrames calls)

variable {F : Type} [F64 F]

/-- A call keeps time: it gives the next time of the clock if it muxes a frame of video, and else
none. -/
theorem KeepsTime.call {s : HlsSession F} {calls : List (HlsCall F)} (h : KeepsTime s calls)
    (c : HlsCall F) :
    KeepsTime (s.call c).1 (calls ++ [c]) ∧
      (trace clockStep (0, 0) (videoFrames (calls ++ [c]))).flatten =
      (trace clockStep (0, 0) (videoFrames calls)).flatten ++ s.videoTimes c := by
  have hsame : ∀ c : HlsCall F, c.frame? = none →
      acceptedFrames (calls ++ [c]) = acceptedFrames calls := by
    intro c hc
    rw [acceptedFrames, List.filterMap_append, List.filterMap_cons_none hc, List.filterMap_nil,
      List.append_nil]
    rfl
  cases c with
  | recoverFromLag =>
    rw [videoFrames, hsame _ rfl]
    refine ⟨⟨h.active, ?_, ?_⟩, (List.append_nil _).symm⟩
    · rw [hsame _ rfl]
      exact h.primed
    · rw [videoFrames, hsame _ rfl]
      exact h.clock
  | addSegment duration sequence programDateTime discontinuity =>
    rw [videoFrames, hsame _ rfl]
    refine ⟨⟨h.active, ?_, ?_⟩, (List.append_nil _).symm⟩
    · rw [hsame _ rfl]
      exact h.primed
    · rw [videoFrames, hsame _ rfl]
      exact h.clock
  | onFrame now frame =>
    have hframes := acceptedFrames_onFrame h.active h.primed now frame
    by_cases haccepts : s.accepts frame
    · rw [if_pos haccepts] at hframes
      have hrunning := HlsSession.running_onFrame haccepts now
      obtain ⟨htimeline, hlast⟩ := HlsSession.timeline_onFrame haccepts now
      have hvideos : videoFrames (calls ++ [.onFrame now frame]) =
          videoFrames calls ++ if frame.codec.isVideo then [frame] else [] := by
        rw [videoFrames, hframes, List.filter_append, List.filter_singleton, cond_eq_ite]
        rfl
      have hprimed : (s.onFrame now frame).1.primed = true ↔
          acceptedFrames (calls ++ [.onFrame now frame]) ≠ [] := by
        rw [hframes]
        simp [hrunning.2]
      by_cases hvideo : frame.codec.isVideo
      · have hclock := s.toMuxTimeline.clockStep_of_isVideo hvideo
        rw [h.clock, ← htimeline, ← hlast hvideo] at hclock
        rw [if_pos hvideo] at hvideos
        have htimes : s.videoTimes (.onFrame now frame) =
            [(s.onFrame now frame).1.segmentLastMuxMs] := by
          rw [HlsSession.videoTimes, haccepts, hvideo]
          rfl
        refine ⟨⟨hrunning.1.trans h.active, hprimed, ?_⟩, ?_⟩
        · rw [hvideos, final_append, final_cons, final_nil, hclock]
          rfl
        · rw [hvideos, trace_append, List.flatten_append, trace_cons, trace_nil, hclock, htimes]
          rfl
      · have hclock := s.toMuxTimeline.clock_of_not_isVideo hvideo
        rw [if_neg hvideo, List.append_nil] at hvideos
        have htimes : s.videoTimes (.onFrame now frame) = [] := by
          rw [HlsSession.videoTimes, Bool.eq_false_iff.mpr hvideo, Bool.and_false]
          rfl
        refine ⟨⟨hrunning.1.trans h.active, hprimed, ?_⟩, ?_⟩
        · rw [hvideos, ← h.clock, ← hclock, ← htimeline]
          rfl
        · rw [hvideos, htimes, List.append_nil]
    · obtain ⟨n, hcall⟩ := HlsSession.onFrame_of_not_accepts haccepts now
      rw [if_neg haccepts, List.append_nil] at hframes
      have htimes : s.videoTimes (.onFrame now frame) = [] := by
        rw [HlsSession.videoTimes, Bool.eq_false_iff.mpr haccepts, Bool.false_and]
        rfl
      have hnext : (s.call (.onFrame now frame)).1 = { s with sessionAudioFrames := n } := by
        rw [HlsSession.call, hcall]
      rw [videoFrames, hframes, htimes, List.append_nil, hnext]
      refine ⟨⟨h.active, ?_, ?_⟩, rfl⟩
      · rw [hframes]
        exact h.primed
      · rw [videoFrames, hframes]
        exact h.clock

/-- A run gives video **the times of its frames alone**, whatever comes between them. -/
theorem videoTimes_run (streamId : StreamId) (segmentDuration : F) (maxSegments : ℕ)
    (calls : List (HlsCall F)) :
    let s := HlsSession.new streamId segmentDuration maxSegments
    KeepsTime (final HlsSession.videoCall s calls) calls ∧
      (trace HlsSession.videoCall s calls).flatten =
          (trace clockStep (0, 0) (videoFrames calls)).flatten := by
  intro s
  induction calls using List.reverseRecOn with
  | nil => exact ⟨⟨rfl, by simp [s, HlsSession.new, acceptedFrames], rfl⟩, rfl⟩
  | append_singleton calls c ih =>
    obtain ⟨hkeeps, htimes⟩ := ih
    obtain ⟨hnext, hgiven⟩ := hkeeps.call c
    rw [final_append, trace_append, List.flatten_append, htimes, hgiven]
    exact ⟨hnext, congrArg _ (List.append_nil _)⟩

/-- In every run the times of video go forward **exactly if** its second frame has a later timestamp
than its first, that one is not zero, and the time of video is not full before its last frame. -/
theorem video_goesForward_iff (streamId : StreamId) (segmentDuration : F) (maxSegments : ℕ)
    (calls : List (HlsCall F)) :
    (trace HlsSession.videoCall (.new streamId segmentDuration maxSegments) calls).flatten.IsChain
      (· < ·) ↔
      GoesForward (videoFrames calls) := by
  rw [(videoTimes_run streamId segmentDuration maxSegments calls).2]
  exact isChain_clock_iff _

/-- A publisher that counts from zero: a key frame and a frame 40 milliseconds later. -/
def callsFromZero : List (HlsCall ℚ) :=
  [.onFrame 0
    ((MediaFrame.new "live/cam" 0 0 [0x00, 0x00, 0x00, 0x01, 0x65] true .h264).withClockRate 1000),
    .onFrame 0
    ((MediaFrame.new "live/cam" 0 40 [0x00, 0x00, 0x00, 0x01, 0x41] false .h264).withClockRate
    1000)]

/-- Both frames are muxed **at the same time**. -/
theorem video_stands_from_zero :
    ¬(trace HlsSession.videoCall (.new "live/cam" 2 6) callsFromZero).flatten.IsChain (· < ·) := by
  rw [(videoTimes_run "live/cam" 2 6 callsFromZero).2]
  decide

end VcpMediaServer
