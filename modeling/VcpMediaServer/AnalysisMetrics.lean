import Mathlib.Data.List.Chain
import VcpMediaServer.HlsTiming

/-!
# The metrics of an analysis

`MetricsState` watches the frames of a stream: it counts them, and it counts the frames of video
since the last key frame, from which it takes the lengths of the GOPs.

* `MetricsState.observe`, `L1MetricsPlugin.processFrame` — a frame, and a frame that may be skipped.
* `countedGops` — what the counter takes for a GOP.
* `gops` — the distances of key frames that follow each other.
* `countedGops_iff` — when the two agree.
* `statistics_iff` — the statistics are those of the GOPs **exactly if** the video begins with a key
  frame and no key frame follows another at once.
-/

namespace VcpMediaServer

/-! ## State -/

/-- `{:?}` of a codec. -/
def CodecType.debug : CodecType → String
  | .h264 => "H264"
  | .h265 => "H265"
  | .aac => "AAC"
  | .opus => "Opus"
  | .g711 => "G711"
  | .unknown => "Unknown"

/-- `AnalysisMetrics`. -/
structure AnalysisMetrics (F : Type) where
  /-- The stream. -/
  streamId : StreamId
  /-- When the analysis was started. -/
  startedAtMs : ℕ
  /-- When the last frame was observed. -/
  updatedAtMs : ℕ
  /-- The frames, skipped ones included. -/
  totalFrames : ℕ
  /-- The frames of video. -/
  videoFrames : ℕ
  /-- The frames of audio. -/
  audioFrames : ℕ
  /-- The key frames. -/
  keyframes : ℕ
  /-- The bytes of all frames. -/
  bytes : ℕ
  /-- Bits in a second. -/
  bitrateBps : ℕ
  /-- Frames of video in a second. -/
  videoFps : F
  /-- Frames of audio in a second. -/
  audioFps : F
  /-- The length of the last GOP. -/
  lastGopFrames : ℕ
  /-- The mean of the lengths. -/
  avgGopFrames : F
  /-- The timestamp of the last frame of video. -/
  lastVideoTimestamp : Option UInt64
  /-- That of the last frame of audio. -/
  lastAudioTimestamp : Option UInt64
  /-- The codec of the last frame of video. -/
  lastVideoCodec : Option String
  /-- That of the last frame of audio. -/
  lastAudioCodec : Option String

/-- `AnalysisEvent`, without its data, which no event of these metrics has. -/
structure AnalysisEvent where
  /-- The stream. -/
  streamId : StreamId
  /-- When it happened. -/
  timestampMs : ℕ
  /-- What kind it is of. -/
  kind : String
  /-- What happened. -/
  message : String
  /-- The timestamp of the frame. -/
  frameTimestamp : UInt64

/-- `MetricsState`. -/
structure MetricsState (F : Type) where
  /-- The metrics. -/
  metrics : AnalysisMetrics F
  /-- The first frame of video. -/
  firstVideo : Option MediaFrame
  /-- The last one. -/
  lastVideo : Option MediaFrame
  /-- The last frame of audio. -/
  lastAudio : Option MediaFrame
  /-- The frames of video since the last key frame. -/
  framesSinceKeyframe : ℕ
  /-- The sum of the lengths of the GOPs. -/
  gopSum : ℕ
  /-- Their number. -/
  gopCount : ℕ

/-- A frame that is observed, and the clock then: when the metrics are updated, and when an event is
made. -/
structure Observation where
  /-- The time of the update. -/
  now : ℕ
  /-- The time of the event. -/
  eventNow : ℕ
  /-- The frame. -/
  frame : MediaFrame

variable {F : Type} [F64 F]

namespace MetricsState

/-- `MetricsState::new`. -/
def new (streamId : StreamId) (startedAtMs : ℕ) : MetricsState F where
  metrics :=
    { streamId, startedAtMs, updatedAtMs := startedAtMs, totalFrames := 0, videoFrames := 0,
      audioFrames := 0
      keyframes := 0, bytes := 0, bitrateBps := 0, videoFps := 0.0, audioFps := 0.0
      lastGopFrames := 0, avgGopFrames := 0.0, lastVideoTimestamp := none
      lastAudioTimestamp := none, lastVideoCodec := none, lastAudioCodec := none }
  firstVideo := none
  lastVideo := none
  lastAudio := none
  framesSinceKeyframe := 0
  gopSum := 0
  gopCount := 0

/-- `observe_skipped`. -/
def observeSkipped (s : MetricsState F) (frame : MediaFrame) : MetricsState F :=
  { s with
    metrics := { s.metrics with
      totalFrames := s.metrics.totalFrames + 1
      bytes := s.metrics.bytes + frame.data.length } }

/-- `update_bitrate`. The product saturates. -/
def updateBitrate (m : AnalysisMetrics F) : AnalysisMetrics F :=
  let elapsedMs := max (m.updatedAtMs - m.startedAtMs) 1
  { m with bitrateBps := min (m.bytes * 8000) (2 ^ 64 - 1) / elapsedMs }

/-- The rate of video, between the first frame and the one in front of this. -/
def updateVideoFps (s : MetricsState F) : AnalysisMetrics F :=
  match s.firstVideo, s.lastVideo with
  | some first, some last =>
    let durationMs := max (mediaFrameTimestampDeltaMs first last) 1
    { s.metrics with videoFps := F64.cast s.metrics.videoFrames * 1000.0 / F64.cast durationMs }
  | _, _ => s.metrics

/-- A key frame: the frames since the last one are a GOP if there are more than one. -/
def closeGop (s : MetricsState F) : MetricsState F :=
  let s := { s with metrics := { s.metrics with keyframes := s.metrics.keyframes + 1 } }
  let s :=
    if 1 < s.framesSinceKeyframe then
      let gopSum := s.gopSum + s.framesSinceKeyframe
      let gopCount := s.gopCount + 1
      { s with
        metrics := { s.metrics with
          lastGopFrames := s.framesSinceKeyframe
          avgGopFrames := F64.cast gopSum / F64.cast gopCount }
        gopSum
        gopCount }
    else s
  { s with framesSinceKeyframe := 0 }

/-- `observe_video`. -/
def observeVideo (s : MetricsState F) (eventNow : ℕ) (frame : MediaFrame) :
    MetricsState F × Option AnalysisEvent :=
  let s := { s with
    metrics := { s.metrics with
      videoFrames := s.metrics.videoFrames + 1
      lastVideoTimestamp := some frame.timestamp
      lastVideoCodec := some frame.codec.debug }
    firstVideo := s.firstVideo.or (some frame) }
  let s := { s with metrics := updateBitrate (updateVideoFps s) }
  let s := { s with framesSinceKeyframe := s.framesSinceKeyframe + 1 }
  if frame.isKeyframe then
    let s := closeGop s
    ({ s with lastVideo := some frame },
      some
        { streamId := s.metrics.streamId, timestampMs := eventNow, kind := "keyframe"
          message := "video keyframe codec=" ++ frame.codec.debug
          frameTimestamp := frame.timestamp })
  else ({ s with lastVideo := some frame }, none)

/-- `observe_audio`. -/
def observeAudio (s : MetricsState F) (frame : MediaFrame) :
    MetricsState F × Option AnalysisEvent :=
  let metrics := { s.metrics with
    audioFrames := s.metrics.audioFrames + 1
    lastAudioTimestamp := some frame.timestamp
    lastAudioCodec := some frame.codec.debug }
  let metrics :=
    match s.lastAudio with
    | some first =>
      let durationMs := max (mediaFrameTimestampDeltaMs first frame) 1
      { metrics with audioFps := 1000.0 / F64.cast durationMs }
    | none => metrics
  ({ s with metrics := updateBitrate metrics, lastAudio := some frame }, none)

/-- `observe`. -/
def observe (s : MetricsState F) (o : Observation) : MetricsState F × Option AnalysisEvent :=
  let s := s.observeSkipped o.frame
  let s := { s with metrics := { s.metrics with updatedAtMs := o.now } }
  match o.frame.codec with
  | .h264 | .h265 => s.observeVideo o.eventNow o.frame
  | .aac | .opus | .g711 => s.observeAudio o.frame
  | .unknown => (s, none)

end MetricsState

/-- `L1MetricsPlugin`. -/
structure L1MetricsPlugin (F : Type) where
  /-- The state. -/
  state : MetricsState F
  /-- Of so many frames one is observed. -/
  sampleInterval : ℕ

namespace L1MetricsPlugin

/-- `L1MetricsPlugin::new`. -/
def new (streamId : StreamId) (startedAtMs sampleInterval : ℕ) : L1MetricsPlugin F :=
  { state := .new streamId startedAtMs, sampleInterval := max sampleInterval 1 }

/-- `process_frame`: the plugin afterwards, with the metrics and the event that it puts out. -/
def processFrame (p : L1MetricsPlugin F) (o : Observation) :
    L1MetricsPlugin F × AnalysisMetrics F × Option AnalysisEvent :=
  if p.state.metrics.totalFrames % p.sampleInterval ≠ 0 then
    let state := p.state.observeSkipped o.frame
    ({ p with state }, state.metrics, none)
  else
    let (state, event) := p.state.observe o
    ({ p with state }, state.metrics, event)

/-- The loop of the session: no frame is kept from the plugin. -/
def processAll (p : L1MetricsPlugin F) (os : List Observation) : L1MetricsPlugin F :=
  os.foldl (fun p o => (p.processFrame o).1) p

end L1MetricsPlugin

/-! ## The counter -/

/-- What of the state is about GOPs. -/
structure GopCounter where
  /-- The frames of video since the last key frame. -/
  since : ℕ
  /-- The number of GOPs. -/
  count : ℕ
  /-- The sum of their lengths. -/
  sum : ℕ
  /-- The length of the last one. -/
  last : ℕ

namespace GopCounter

/-- A frame of video. -/
def step (c : GopCounter) (isKeyframe : Bool) : GopCounter :=
  if isKeyframe then
    if 1 < c.since + 1 then
      { since := 0, count := c.count + 1, sum := c.sum + (c.since + 1), last := c.since + 1 }
    else { c with since := 0 }
  else { c with since := c.since + 1 }

/-- The lengths that a counter counts from a number of frames on. -/
def countedGops : ℕ → List Bool → List ℕ
  | _, [] => []
  | since, true :: keys => if 1 < since + 1 then (since + 1) :: countedGops 0 keys
    else countedGops 0 keys
  | since, false :: keys => countedGops (since + 1) keys

/-- The counter adds up what it counts. -/
theorem foldl_step (c : GopCounter) (keys : List Bool) :
    (keys.foldl step c).count = c.count + (countedGops c.since keys).length ∧
      (keys.foldl step c).sum = c.sum + (countedGops c.since keys).sum ∧
      (keys.foldl step c).last = (countedGops c.since keys).getLast?.getD c.last := by
  induction keys generalizing c with
  | nil => exact ⟨rfl, rfl, rfl⟩
  | cons key keys ih =>
    rw [List.foldl_cons]
    obtain ⟨hcount, hsum, hlast⟩ := ih (c.step key)
    rw [hcount, hsum, hlast, step]
    cases key with
    | false => exact ⟨rfl, rfl, rfl⟩
    | true =>
      rw [if_pos rfl, countedGops]
      split
      · refine ⟨?_, ?_, ?_⟩
        · rw [List.length_cons]
          dsimp only
          omega
        · rw [List.sum_cons]
          dsimp only
          omega
        · rw [List.getLast?_cons]
          dsimp only
          rw [Option.getD_some]
      · exact ⟨rfl, rfl, rfl⟩

end GopCounter

namespace MetricsState

/-- What of the state is about GOPs. -/
def counter (s : MetricsState F) : GopCounter :=
  { since := s.framesSinceKeyframe, count := s.gopCount, sum := s.gopSum,
    last := s.metrics.lastGopFrames }

theorem lastGopFrames_updateVideoFps (s : MetricsState F) :
    (updateBitrate s.updateVideoFps).lastGopFrames = s.metrics.lastGopFrames := by
  rw [updateBitrate, updateVideoFps]
  dsimp only
  split <;> rfl

theorem counter_closeGop (s : MetricsState F) :
    s.closeGop.counter =
      if 1 < s.framesSinceKeyframe then
        { since := 0, count := s.gopCount + 1, sum := s.gopSum + s.framesSinceKeyframe,
          last := s.framesSinceKeyframe }
      else { s.counter with since := 0 } := by
  rw [closeGop]
  dsimp only
  split <;> rfl

theorem counter_observeVideo (s : MetricsState F) (eventNow : ℕ) (frame : MediaFrame) :
    (s.observeVideo eventNow frame).1.counter = s.counter.step frame.isKeyframe := by
  rw [observeVideo, GopCounter.step]
  dsimp only
  generalize hmetrics : updateBitrate (updateVideoFps (F := F) _) = metrics
  have hlast : metrics.lastGopFrames = s.metrics.lastGopFrames := by
    rw [← hmetrics]
    exact lastGopFrames_updateVideoFps _
  cases frame.isKeyframe with
  | true =>
    rw [if_pos rfl, if_pos rfl]
    refine (counter_closeGop _).trans ?_
    dsimp only [counter]
    rw [hlast]
    rfl
  | false =>
    rw [if_neg Bool.false_ne_true, if_neg Bool.false_ne_true]
    dsimp only [counter]
    rw [hlast]

theorem counter_observeAudio (s : MetricsState F) (frame : MediaFrame) :
    (s.observeAudio frame).1.counter = s.counter := by
  rw [observeAudio]
  dsimp only
  split <;> rfl

/-- Frames of video are counted, and no others. -/
theorem counter_observe (s : MetricsState F) (o : Observation) :
    (s.observe o).1.counter =
      if o.frame.codec.isVideo then s.counter.step o.frame.isKeyframe else s.counter := by
  rw [observe]
  cases o.frame.codec with
  | h264 | h265 => exact counter_observeVideo _ _ _
  | aac | opus | g711 => exact counter_observeAudio _ _
  | unknown => rfl

end MetricsState

/-! ## What is observed -/

/-- The frames of video, and whether each is a key frame. -/
def videoKeys (os : List Observation) : List Bool :=
  ((os.map Observation.frame).filter fun frame => frame.codec.isVideo).map MediaFrame.isKeyframe

namespace L1MetricsPlugin

/-- Where every frame is sampled, every frame is observed. -/
theorem state_processFrame {p : L1MetricsPlugin F} (h : p.sampleInterval = 1) (o : Observation) :
    (p.processFrame o).1 = { state := (p.state.observe o).1, sampleInterval := 1 } := by
  rw [processFrame, h, Nat.mod_one, if_neg (not_not.mpr rfl), ← h]

theorem counter_processAll {p : L1MetricsPlugin F} (h : p.sampleInterval = 1)
    (os : List Observation) :
    (p.processAll os).state.counter = (videoKeys os).foldl GopCounter.step p.state.counter := by
  induction os generalizing p with
  | nil => rfl
  | cons o os ih =>
    have hstep : (p.processAll (o :: os)) = (p.processFrame o).1.processAll os := rfl
    rw [hstep, state_processFrame h, ih rfl, MetricsState.counter_observe, videoKeys, videoKeys,
      List.map_cons, List.filter_cons]
    split
    · rw [List.map_cons, List.foldl_cons]
    · rfl

end L1MetricsPlugin

/-! ## The GOPs -/

/-- The places of the key frames, where the first frame has the place `start`. -/
def keyPositions (start : ℕ) (keys : List Bool) : List ℕ :=
  ((keys.zipIdx start).filter fun (key, _) => key).map Prod.snd

/-- The distances of places that follow each other. -/
def distances (positions : List ℕ) : List ℕ :=
  List.zipWith (fun position next => next - position) positions positions.tail

/-- The distances of key frames that follow each other, in frames of video. -/
def gops (keys : List Bool) : List ℕ := distances (keyPositions 1 keys)

/-- The statistics are those of the GOPs. -/
structure MetricsState.Counts (s : MetricsState F) (keys : List Bool) : Prop where
  gopCount : s.gopCount = (gops keys).length
  gopSum : s.gopSum = (gops keys).sum
  lastGopFrames : s.metrics.lastGopFrames = (gops keys).getLast?.getD 0

/-- No key frame follows another at once. -/
def KeysApart (keys : List Bool) : Prop := keys.IsChain fun key next => ¬(key = true ∧ next = true)

theorem keyPositions_true (start : ℕ) (keys : List Bool) :
    keyPositions start (true :: keys) = start :: keyPositions (start + 1) keys := rfl

/-- The distances from a key frame on, with so many frames behind it. -/
def gopsSince : ℕ → List Bool → List ℕ
  | _, [] => []
  | since, true :: keys => (since + 1) :: gopsSince 0 keys
  | since, false :: keys => gopsSince (since + 1) keys

theorem distances_keyPositions (position since : ℕ) (keys : List Bool) :
    distances (position :: keyPositions (position + since + 1) keys) = gopsSince since keys := by
  induction keys generalizing position since with
  | nil => rfl
  | cons key keys ih =>
    cases key with
    | true =>
      have hrest := ih (position + since + 1) 0
      have hfirst : position + since + 1 - position = since + 1 := by omega
      rw [keyPositions_true, gopsSince, ← hrest, ← hfirst]
      rfl
    | false => exact ih position (since + 1)

/-- The counter leaves distances of one out. -/
theorem countedGops_eq (since : ℕ) (keys : List Bool) :
    GopCounter.countedGops since keys = (gopsSince since keys).filter (1 < ·) := by
  induction keys generalizing since with
  | nil => rfl
  | cons key keys ih =>
    cases key with
    | true =>
      rw [GopCounter.countedGops, gopsSince, List.filter_cons, ih]
      simp only [decide_eq_true_eq]
    | false => exact ih (since + 1)

theorem one_le_of_mem_gopsSince {since d : ℕ} {keys : List Bool} (h : d ∈ gopsSince since keys) :
    1 ≤ d := by
  induction keys generalizing since with
  | nil => cases h
  | cons key keys ih =>
    cases key with
    | true =>
      rcases List.mem_cons.mp h with rfl | h
      · exact Nat.le_add_left 1 since
      · exact ih h
    | false => exact ih h

/-- All distances are more than one exactly if the key frames are apart, and the first is not at
once behind the one that they are counted from. -/
theorem one_lt_gopsSince_iff (since : ℕ) (keys : List Bool) :
    (∀ d ∈ gopsSince since keys, 1 < d) ↔
        KeysApart keys ∧ (since = 0 → keys.head? ≠ some true) := by
  induction keys generalizing since with
  | nil => simp [gopsSince, KeysApart]
  | cons key keys ih =>
    rw [KeysApart, List.isChain_cons, ← KeysApart]
    cases key with
    | true =>
      have hnext : (∀ next ∈ keys.head?, ¬(true = true ∧ next = true)) ↔
          keys.head? ≠ some true := by
        cases keys.head? <;> simp
      have hsince : 1 < since + 1 ↔ (since = 0 → (true :: keys).head? ≠ some true) := by
        simp
        omega
      rw [gopsSince, List.forall_mem_cons, ih, hnext, hsince]
      tauto
    | false =>
      rw [gopsSince, ih]
      simp

/-- Leaving distances of one out, of a list of distances as many are missing as the sum is short of.
-/
theorem exists_filter_one_lt {ds : List ℕ} (h : ∀ d ∈ ds, 1 ≤ d) :
    ∃ ones, ds.length = (ds.filter (1 < ·)).length + ones ∧
      ds.sum = (ds.filter (1 < ·)).sum + ones ∧
      (ones = 0 ↔ ∀ d ∈ ds, 1 < d) := by
  induction ds with
  | nil => exact ⟨0, rfl, rfl, by simp⟩
  | cons d ds ih =>
    obtain ⟨hd, hds⟩ := List.forall_mem_cons.mp h
    obtain ⟨ones, hlength, hsum, hones⟩ := ih hds
    rw [List.length_cons, List.sum_cons, List.filter_cons, List.forall_mem_cons, ← hones, hlength,
      hsum]
    by_cases hlt : 1 < d
    · refine ⟨ones, ?_, ?_, ?_⟩
      · simp [hlt]
        omega
      · simp [hlt]
        omega
      · simp [hlt]
    · refine ⟨ones + 1, ?_, ?_, ?_⟩
      · simp [hlt]
        omega
      · simp [hlt]
        omega
      · simp [hlt]

theorem gopsSince_of_no_key {keys : List Bool} (h : true ∉ keys) (since : ℕ) :
    gopsSince since keys = [] := by
  induction keys generalizing since with
  | nil => rfl
  | cons key keys ih =>
    obtain ⟨hkey, hkeys⟩ := not_or.mp (mt List.mem_cons.mpr h)
    cases key with
    | true => exact absurd rfl hkey
    | false => exact ih hkeys (since + 1)

/-- Only the first distance depends on where the counter begins. -/
theorem exists_gopsSince_eq_cons {keys : List Bool} (h : true ∈ keys) :
    ∃ first rest, 1 ≤ first ∧ (first = 1 ↔ keys.head? = some true) ∧
      ∀ since, gopsSince since keys = (since + first) :: rest := by
  induction keys with
  | nil => cases h
  | cons key keys ih =>
    cases key with
    | true => exact ⟨1, gopsSince 0 keys, le_rfl, by simp, fun _ => rfl⟩
    | false =>
      obtain ⟨first, rest, hpos, -, hgops⟩ := ih (by simpa using h)
      refine ⟨first + 1, rest, Nat.le_add_left 1 first, ?_, fun since => ?_⟩
      · rw [List.head?_cons]
        simp
        omega
      · rw [gopsSince, hgops, Nat.add_assoc, Nat.add_comm 1]

/-- With a key frame behind it, the counter from the start has the distances of the key frames and
one in front. -/
theorem gopsSince_zero_tail (keys : List Bool) : (gopsSince 0 keys).tail = gops keys := by
  rw [← distances_keyPositions 0 0, gops]
  cases keyPositions (0 + 0 + 1) keys <;> rfl

/-- What is counted are the distances of the key frames exactly if the first key frame is the first
frame, and no other has a distance of one. -/
theorem filter_one_lt_cons_iff {first : ℕ} {rest : List ℕ} (hfirst : 1 ≤ first)
    (hrest : ∀ d ∈ rest, 1 ≤ d) :
    ((first :: rest).filter (1 < ·)).length = rest.length ∧
      ((first :: rest).filter (1 < ·)).sum = rest.sum ↔
      first = 1 ∧ ∀ d ∈ rest, 1 < d := by
  obtain ⟨ones, hlength, hsum, hones⟩ := exists_filter_one_lt hrest
  rw [List.filter_cons, ← hones]
  by_cases hlt : 1 < first
  · rw [if_pos (by simpa using hlt), List.length_cons, List.sum_cons]
    omega
  · rw [if_neg (by simpa using hlt)]
    omega

/-- What is counted is what there is exactly if there is no key frame, or the first frame is one and
they are apart. -/
theorem countedGops_iff (keys : List Bool) :
    ((GopCounter.countedGops 0 keys).length = (gops keys).length ∧
      (GopCounter.countedGops 0 keys).sum = (gops keys).sum ∧
      (GopCounter.countedGops 0 keys).getLast?.getD 0 = (gops keys).getLast?.getD 0) ↔
      true ∉ keys ∨ (keys.head? = some true ∧ KeysApart keys) := by
  rw [countedGops_eq, ← gopsSince_zero_tail]
  by_cases hkey : true ∈ keys
  · obtain ⟨first, rest, hfirst, hhead, hgops⟩ := exists_gopsSince_eq_cons hkey
    have hrest : ∀ d ∈ rest, 1 ≤ d := fun d hd =>
      one_le_of_mem_gopsSince (by rw [hgops 0]; exact List.mem_cons_of_mem _ hd)
    -- counted from one frame behind a key frame on, the first distance is more than one anyway
    have hapart : (∀ d ∈ rest, 1 < d) ↔ KeysApart keys := by
      have hone := one_lt_gopsSince_iff 1 keys
      rw [hgops, List.forall_mem_cons] at hone
      simpa [Nat.pos_of_ne_zero (Nat.one_le_iff_ne_zero.mp hfirst)] using hone
    have hboth := filter_one_lt_cons_iff hfirst hrest
    rw [hgops, Nat.zero_add, List.tail_cons, ← hhead, ← hapart]
    constructor
    · rintro ⟨hlength, hsum, -⟩
      exact .inr (hboth.mp ⟨hlength, hsum⟩)
    · rintro (hnone | h)
      · exact absurd hkey hnone
      · obtain ⟨hlength, hsum⟩ := hboth.mpr h
        refine ⟨hlength, hsum, ?_⟩
        rw [List.filter_cons, if_neg (by simp [h.1]), List.filter_eq_self.mpr (by simpa using h.2)]
  · rw [gopsSince_of_no_key hkey]
    simp [hkey]

/-- The statistics are those of the GOPs, however short the GOPs are and whatever audio there is,
exactly if there is no key frame, or the video begins with one and no key frame follows another at
once. -/
theorem statistics_iff (streamId : StreamId) (startedAtMs : ℕ) (os : List Observation) :
    ((L1MetricsPlugin.new (F := F) streamId startedAtMs 1).processAll os).state.Counts
      (videoKeys os) ↔
      true ∉ videoKeys os ∨ ((videoKeys os).head? = some true ∧ KeysApart (videoKeys os)) := by
  rw [← countedGops_iff]
  have hcounter :=
    L1MetricsPlugin.counter_processAll (p := .new (F := F) streamId startedAtMs 1) rfl os
  have hzero : (L1MetricsPlugin.new (F := F) streamId startedAtMs 1).state.counter =
      { since := 0, count := 0, sum := 0, last := 0 } := rfl
  obtain ⟨hcount, hsum, hlast⟩ :=
    GopCounter.foldl_step { since := 0, count := 0, sum := 0, last := 0 } (videoKeys os)
  rw [← hzero, ← hcounter, hzero, Nat.zero_add] at hcount hsum
  rw [← hzero, ← hcounter, hzero] at hlast
  rw [← hcount, ← hsum, ← hlast]
  exact ⟨fun h => ⟨h.gopCount, h.gopSum, h.lastGopFrames⟩, fun ⟨h₁, h₂, h₃⟩ => ⟨h₁, h₂, h₃⟩⟩

/-- A stream that is joined in the middle of a GOP: a frame, and then a key frame. -/
def joinedMidGop : List Observation :=
  [{ now := 1, eventNow := 1, frame := .new "live" 0 0 [0, 0, 0, 1, 0x41] false .h264 },
    { now := 34, eventNow := 34, frame := .new "live" 0 3000 [0, 0, 0, 1, 0x65] true .h264 }]

/-- A stream of key frames. -/
def allIntra : List Observation :=
  [{ now := 1, eventNow := 1, frame := .new "live" 0 0 [0, 0, 0, 1, 0x65] true .h264 },
    { now := 34, eventNow := 34, frame := .new "live" 0 3000 [0, 0, 0, 1, 0x65] true .h264 }]

/-- A GOP is counted where there is but one key frame, and none where two follow each other. -/
theorem not_statistics_joinedMidGop :
    ¬((L1MetricsPlugin.new (F := Float) "live" 0 1).processAll joinedMidGop).state.Counts
      (videoKeys joinedMidGop) ∧
      ¬((L1MetricsPlugin.new (F := Float) "live" 0 1).processAll allIntra).state.Counts
          (videoKeys allIntra) := by
  have hjoined :
      ((L1MetricsPlugin.new (F := Float) "live" 0 1).processAll joinedMidGop).state.gopCount = 1 :=
    congrArg GopCounter.count
      (L1MetricsPlugin.counter_processAll (p := .new (F := Float) "live" 0 1) rfl joinedMidGop)
  have hintra : ((L1MetricsPlugin.new (F := Float) "live" 0 1).processAll allIntra).state.gopCount =
      0 :=
    congrArg GopCounter.count
      (L1MetricsPlugin.counter_processAll (p := .new (F := Float) "live" 0 1) rfl allIntra)
  constructor
  · intro h
    exact absurd (hjoined.symm.trans h.gopCount) (by decide)
  · intro h
    exact absurd (hintra.symm.trans h.gopCount) (by decide)

end VcpMediaServer
