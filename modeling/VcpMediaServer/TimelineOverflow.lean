import VcpMediaServer.Accesses
import VcpMediaServer.FlvPlayTimeline
import VcpMediaServer.HlsTiming
import VcpMediaServer.Lts

/-!
# Overflows of the timelines

The arithmetic of media time again, in a build with **overflow checks**: every sum, product,
difference and division as the source has it, `none` where one panics.

* `Checked.mediaTimestampDeltaMsWithClock_eq`, `Checked.advanceVideoMuxMs_eq` — these never panic:
  the rate is tested for zero first.
* `Checked.flvTimestampMs_isSome` — nor does this one, on timestamps of 32 bits.
* `HasRoom` — the condition on a frame and the timeline of tags.
* `Checked.map_eq` — the timeline panics on **every other** frame.
-/

namespace VcpMediaServer

open Lts

namespace Checked

/-! ## Arithmetic of 64 bits -/

/-- `a - b` of the type `u64`. -/
def subU64 (a b : UInt64) : Option UInt64 := if b ≤ a then some (a - b) else none

/-- `a + b` of the type `u64`. -/
def addU64 (a b : UInt64) : Option UInt64 :=
  if a.toNat + b.toNat < 2 ^ 64 then some (a + b) else none

/-- `a * b` of the type `u64`. -/
def mulU64 (a b : UInt64) : Option UInt64 :=
  if a.toNat * b.toNat < 2 ^ 64 then some (a * b) else none

/-- `a / b` of the type `u64`. -/
def divU64 (a b : UInt64) : Option UInt64 := if b = 0 then none else some (a / b)

/-- `a % b` of the type `u64`. -/
def remU64 (a b : UInt64) : Option UInt64 := if b = 0 then none else some (a % b)

/-! ## The functions -/

/-- `looks_like_rtp_video_delta`. -/
def looksLikeRtpVideoDelta (delta : UInt64) : Option Bool :=
  if RTP_VIDEO_DELTA_MIN_TICKS ≤ delta.toNat ∧ delta.toNat ≤ RTP_VIDEO_DELTA_MAX_TICKS then do
    let rest ← remU64 delta (UInt64.ofNat VIDEO_RTP_TICKS_PER_MS)
    return rest = 0 || [1501, 1502, 3003, 3753, 3754].contains delta
  else return false

/-- `media_timestamp_delta_ms_with_clock`. -/
def mediaTimestampDeltaMsWithClock (prev curr : UInt64) (clockRate : Option UInt32) :
    Option UInt64 :=
  if curr ≤ prev then return 0
  else do
    let delta ← subU64 curr prev
    match clockRate with
    | some rate =>
      if rate = 0 then return 0
      else if rate = MILLISECOND_CLOCK_RATE then return delta
      else divU64 (UInt64.ofNat (min (delta.toNat * 1000) (2 ^ 64 - 1))) rate.toUInt64
    | none =>
      if 2000 < delta then divU64 delta (UInt64.ofNat VIDEO_RTP_TICKS_PER_MS)
      else if ← looksLikeRtpVideoDelta delta then divU64 delta (UInt64.ofNat VIDEO_RTP_TICKS_PER_MS)
      else return delta

/-- `flv_timestamp_ms`. -/
def flvTimestampMs (codec : CodecType) (raw : UInt64) : Option UInt32 := do
  let ms ←
    match codec with
    | .h264 | .h265 =>
      if 1000000 < raw then divU64 raw (UInt64.ofNat VIDEO_RTP_TICKS_PER_MS) else some raw
    | .aac =>
      if 1000000 < raw then do
        let product ← mulU64 raw 1000
        divU64 product 44100
      else some raw
    | _ => some raw
  return (ms &&& 0xFFFFFFFF).toUInt32

/-- `advance_video_mux_ms`. -/
def advanceVideoMuxMs (sessionLastRawVideo sessionVideoMuxMs frameTimestamp : UInt64)
    (clockRate : Option UInt32) : Option (UInt64 × UInt64) := do
  let step ←
    if 0 < sessionLastRawVideo ∧ sessionLastRawVideo < frameTimestamp then do
      let delta ← mediaTimestampDeltaMsWithClock sessionLastRawVideo frameTimestamp clockRate
      some (if 0 < delta ∧ delta < 500 then delta.toNat else MIN_VIDEO_MUX_STEP_MS)
    else if sessionVideoMuxMs = 0 then some 0
    else some MIN_VIDEO_MUX_STEP_MS
  return (frameTimestamp,
    if sessionVideoMuxMs = 0 ∧ step = 0 then 0
    else saturatingAdd sessionVideoMuxMs (if step = 0 then MIN_VIDEO_MUX_STEP_MS else step))

/-- The clock of video moves to a frame. -/
def idealVideo (t : FlvPlayTimeline) (frame : MediaFrame) : Option (FlvPlayTimeline × UInt64) := do
  let videoMs ←
    match t.lastRawVideoTs with
    | some last =>
      if last < frame.timestamp then do
        let delta ← mediaTimestampDeltaMsWithClock last frame.timestamp
          (frame.clockRate.or t.lastRawVideoClockRate)
        if 0 < delta ∧ delta < 2000 then addU64 t.videoMs delta
        else some (saturatingAdd t.videoMs FLV_MUX_MIN_STEP_MS)
      else some (saturatingAdd t.videoMs FLV_MUX_MIN_STEP_MS)
    | none => some t.videoMs
  return ({ t with
    videoMs
    lastRawVideoTs := some frame.timestamp
    lastRawVideoClockRate := frame.clockRate }, videoMs)

/-- The clock of audio moves to a frame. -/
def idealAudio (t : FlvPlayTimeline) (frame : MediaFrame) : Option (FlvPlayTimeline × UInt64) := do
  let stepMs ← divU64 (1024 * 1000) (frame.clockRate.getD AAC_DEFAULT_CLOCK_RATE).toUInt64
  let audioMs ←
    match t.lastRawAudioTs with
    | some last =>
      if last < frame.timestamp then do
        let delta ← mediaTimestampDeltaMsWithClock last frame.timestamp
          (frame.clockRate.or t.lastRawAudioClockRate)
        some (saturatingAdd t.audioMs (if 0 < delta ∧ delta < 2000 then delta else stepMs).toNat)
      else some (saturatingAdd t.audioMs stepMs.toNat)
    | none => mulU64 t.audioFrames stepMs
  let audioFrames ← addU64 t.audioFrames 1
  return ({ t with
    audioMs
    lastRawAudioTs := some frame.timestamp
    lastRawAudioClockRate := frame.clockRate
    audioFrames }, audioMs)

/-- `FlvPlayTimeline::map`. -/
def map (t : FlvPlayTimeline) (frame : MediaFrame) : Option (FlvPlayTimeline × UInt32) := do
  let (t, ideal) ←
    match frame.codec with
    | .h264 | .h265 => idealVideo t frame
    | .aac => idealAudio t frame
    | _ => some (t, t.lastEmitMs)
  let ts := FlvPlayTimeline.emit t.lastEmitMs ideal
  return ({ t with lastEmitMs := ts }, (ts &&& 0xFFFFFFFF).toUInt32)

/-! ## What never panics -/

theorem subU64_of_le {a b : UInt64} (h : b ≤ a) : subU64 a b = some (a - b) := if_pos h

theorem divU64_of_ne_zero {a b : UInt64} (h : b ≠ 0) : divU64 a b = some (a / b) := if_neg h

theorem addU64_of_lt {a b : UInt64} (h : a.toNat + b.toNat < 2 ^ 64) : addU64 a b = some (a + b) :=
  if_pos h

theorem addU64_of_not_lt {a b : UInt64} (h : ¬ a.toNat + b.toNat < 2 ^ 64) : addU64 a b = none :=
  if_neg h

theorem looksLikeRtpVideoDelta_eq (delta : UInt64) :
    looksLikeRtpVideoDelta delta = some (VcpMediaServer.looksLikeRtpVideoDelta delta.toNat) := by
  have hrest : decide (delta % UInt64.ofNat VIDEO_RTP_TICKS_PER_MS = 0) =
      decide (delta.toNat % VIDEO_RTP_TICKS_PER_MS = 0) := by
    apply decide_eq_decide.mpr
    rw [← UInt64.toNat_inj, UInt64.toNat_mod]
    rfl
  have hspecial : [1501, 1502, 3003, 3753, 3754].contains delta =
      [1501, 1502, 3003, 3753, 3754].contains delta.toNat := by
    simp [← UInt64.toNat_inj]
  rw [looksLikeRtpVideoDelta, VcpMediaServer.looksLikeRtpVideoDelta]
  split
  · next h =>
    rw [decide_eq_true h, Bool.true_and, ← hrest, ← hspecial]
    rfl
  · next h =>
    rw [decide_eq_false h, Bool.false_and]
    rfl

/-- The rate is tested for zero before it is divided by. -/
theorem mediaTimestampDeltaMsWithClock_eq (prev curr : UInt64) (clockRate : Option UInt32) :
    ∃ delta, mediaTimestampDeltaMsWithClock prev curr clockRate = some delta ∧
      delta.toNat = VcpMediaServer.mediaTimestampDeltaMsWithClock prev curr clockRate := by
  rw [mediaTimestampDeltaMsWithClock, VcpMediaServer.mediaTimestampDeltaMsWithClock]
  split
  · exact ⟨0, rfl, rfl⟩
  · next hle =>
    have hprev : prev ≤ curr := UInt64.le_of_lt (UInt64.not_le.mp hle)
    have hdelta : (curr - prev).toNat = curr.toNat - prev.toNat := UInt64.toNat_sub_of_le _ _ hprev
    have hticks : ((curr - prev) / UInt64.ofNat VIDEO_RTP_TICKS_PER_MS).toNat =
        (curr.toNat - prev.toNat) / VIDEO_RTP_TICKS_PER_MS := by
      rw [UInt64.toNat_div, hdelta]
      rfl
    rw [subU64_of_le hprev, ← hdelta]
    simp only [Option.bind_eq_bind, Option.bind_some]
    cases clockRate with
    | some rate =>
      dsimp only
      split
      · exact ⟨0, rfl, rfl⟩
      · next hzero =>
        split
        · exact ⟨_, rfl, rfl⟩
        · have hne : rate.toUInt64 ≠ 0 := fun h => hzero (UInt32.toUInt64_inj.mp h)
          refine ⟨_, divU64_of_ne_zero hne, ?_⟩
          rw [UInt64.toNat_div, UInt32.toNat_toUInt64, UInt64.toNat_ofNat_of_lt' (by
            exact Nat.lt_of_le_of_lt (Nat.min_le_right _ _) (by decide))]
    | none =>
      have hticksNe : UInt64.ofNat VIDEO_RTP_TICKS_PER_MS ≠ 0 := by decide
      have hlong : 2000 < curr - prev ↔ 2000 < (curr - prev).toNat := UInt64.lt_iff_toNat_lt
      dsimp only
      rw [looksLikeRtpVideoDelta_eq]
      by_cases h : 2000 < curr - prev
      · rw [if_pos h, divU64_of_ne_zero hticksNe, decide_eq_true (hlong.mp h), Bool.true_or,
          if_pos rfl]
        exact ⟨_, rfl, hdelta ▸ hticks⟩
      · rw [if_neg h, decide_eq_false fun h' => h (hlong.mpr h'), Bool.false_or, Option.bind_some]
        split
        · exact ⟨_, divU64_of_ne_zero hticksNe, hdelta ▸ hticks⟩
        · exact ⟨_, rfl, rfl⟩

theorem advanceVideoMuxMs_eq (sessionLastRawVideo sessionVideoMuxMs frameTimestamp : UInt64)
    (clockRate : Option UInt32) :
    advanceVideoMuxMs sessionLastRawVideo sessionVideoMuxMs frameTimestamp clockRate =
      some (VcpMediaServer.advanceVideoMuxMs sessionLastRawVideo sessionVideoMuxMs frameTimestamp
          clockRate) := by
  obtain ⟨delta, hdelta, htoNat⟩ :=
    mediaTimestampDeltaMsWithClock_eq sessionLastRawVideo frameTimestamp clockRate
  have hin : 0 < delta ∧ delta < 500 ↔ 0 < delta.toNat ∧ delta.toNat < 500 := by
    rw [UInt64.lt_iff_toNat_lt, UInt64.lt_iff_toNat_lt]
    rfl
  rw [advanceVideoMuxMs, VcpMediaServer.advanceVideoMuxMs, hdelta, ← htoNat]
  simp only [Option.bind_eq_bind, Option.bind_some, hin]
  split
  · rfl
  · split
    · simp
    · rfl

/-- A product of a timestamp of 32 bits has room. -/
theorem flvTimestampMs_isSome (codec : CodecType) {raw : UInt64} (h : raw.toNat < 2 ^ 32) :
    (flvTimestampMs codec raw).isSome := by
  have hticks : UInt64.ofNat VIDEO_RTP_TICKS_PER_MS ≠ 0 := by decide
  have hproduct : mulU64 raw 1000 = some (raw * 1000) := if_pos (by
    change raw.toNat * 1000 < 2 ^ 64
    omega)
  have hsample : divU64 (raw * 1000) 44100 = some (raw * 1000 / 44100) := rfl
  have hvideo : divU64 raw (UInt64.ofNat VIDEO_RTP_TICKS_PER_MS) = some _ :=
    divU64_of_ne_zero hticks
  simp only [flvTimestampMs, hvideo, hproduct, hsample, Option.bind_eq_bind, Option.bind_some]
  cases codec with
  | h264 | h265 | aac => dsimp only; split <;> rfl
  | opus | g711 | unknown => rfl

end Checked

/-! ## The timeline of tags -/

namespace FlvPlayTimeline

/-- What a frame of video adds to its clock without saturation. -/
def addedMs (t : FlvPlayTimeline) (frame : MediaFrame) : ℕ :=
  match t.lastRawVideoTs with
  | none => 0
  | some last =>
    let delta := mediaTimestampDeltaMsWithClock last frame.timestamp
      (frame.clockRate.or t.lastRawVideoClockRate)
    if delta < 2000 then delta else 0

/-- The condition on a frame: the rate of audio is not zero, and what is added without saturation
has room. -/
structure HasRoom (t : FlvPlayTimeline) (frame : MediaFrame) : Prop where
  video : frame.codec.isVideo → t.videoMs.toNat + t.addedMs frame < 2 ^ 64
  rate : frame.codec = .aac → frame.clockRate ≠ some 0
  audio : frame.codec = .aac → t.audioFrames.toNat + 1 < 2 ^ 64

variable {t : FlvPlayTimeline} {frame : MediaFrame}

theorem hasRoom_of_isVideo (h : frame.codec.isVideo = true) :
    t.HasRoom frame ↔ t.videoMs.toNat + t.addedMs frame < 2 ^ 64 := by
  have haac : frame.codec ≠ .aac := by
    intro haac
    rw [haac] at h
    cases h
  exact ⟨fun hroom => hroom.video h, fun hlt =>
    ⟨fun _ => hlt, fun h => absurd h haac, fun h => absurd h haac⟩⟩

theorem hasRoom_of_aac (h : frame.codec = .aac) :
    t.HasRoom frame ↔ frame.clockRate ≠ some 0 ∧ t.audioFrames.toNat + 1 < 2 ^ 64 := by
  have hvideo : ¬ frame.codec.isVideo = true := by
    rw [h]
    exact Bool.false_ne_true
  exact ⟨fun hroom => ⟨hroom.rate h, hroom.audio h⟩,
    fun hlt => ⟨fun h => absurd h hvideo, fun _ => hlt.1, fun _ => hlt.2⟩⟩

/-- There is room for every frame that has no clock. -/
theorem hasRoom_of_other (hvideo : ¬ frame.codec.isVideo = true) (haac : frame.codec ≠ .aac) :
    t.HasRoom frame :=
  ⟨fun h => absurd h hvideo, fun h => absurd h haac, fun h => absurd h haac⟩

/-- As long as no frame of audio has come, none is counted. -/
def CountsAudio (t : FlvPlayTimeline) : Prop := t.lastRawAudioTs = none → t.audioFrames = 0

end FlvPlayTimeline

namespace Checked

open FlvPlayTimeline

variable {t : FlvPlayTimeline} {frame : MediaFrame}

theorem idealVideo_of_lt (h : t.videoMs.toNat + t.addedMs frame < 2 ^ 64) :
    idealVideo t frame = some (t.idealVideo frame) := by
  rw [addedMs] at h
  rw [idealVideo, FlvPlayTimeline.idealVideo]
  cases hlast : t.lastRawVideoTs with
  | none => rfl
  | some last =>
    obtain ⟨delta, hdelta, htoNat⟩ := mediaTimestampDeltaMsWithClock_eq last frame.timestamp
      (frame.clockRate.or t.lastRawVideoClockRate)
    have hin : 0 < delta ∧ delta < 2000 ↔ 0 < delta.toNat ∧ delta.toNat < 2000 := by
      rw [UInt64.lt_iff_toNat_lt, UInt64.lt_iff_toNat_lt]
      rfl
    rw [hlast] at h
    dsimp only at h ⊢
    rw [← htoNat] at h
    rw [hdelta, ← htoNat, UInt64.ofNat_toNat]
    simp only [Option.bind_eq_bind, Option.bind_some, hin]
    split
    · split
      · next hsmall =>
        rw [if_pos hsmall.2] at h
        rw [addU64_of_lt h]
        rfl
      · rfl
    · rfl

theorem idealVideo_of_not_lt (h : ¬ t.videoMs.toNat + t.addedMs frame < 2 ^ 64) :
    idealVideo t frame = none := by
  have hms := t.videoMs.toNat_lt
  rw [addedMs] at h
  rw [idealVideo]
  cases hlast : t.lastRawVideoTs with
  | none =>
    rw [hlast] at h
    exact absurd hms h
  | some last =>
    obtain ⟨delta, hdelta, htoNat⟩ := mediaTimestampDeltaMsWithClock_eq last frame.timestamp
      (frame.clockRate.or t.lastRawVideoClockRate)
    rw [hlast] at h
    dsimp only at h ⊢
    rw [← htoNat] at h
    have hsmall : delta.toNat < 2000 := by
      by_contra hlarge
      rw [if_neg hlarge] at h
      exact h hms
    rw [if_pos hsmall] at h
    have hpos : 0 < delta.toNat := by omega
    have hforward : last < frame.timestamp := by
      by_contra hnot
      rw [htoNat, VcpMediaServer.mediaTimestampDeltaMsWithClock, if_pos (UInt64.not_lt.mp hnot)]
        at hpos
      exact Nat.lt_irrefl 0 hpos
    rw [if_pos hforward, hdelta]
    simp only [Option.bind_eq_bind, Option.bind_some]
    rw [if_pos ⟨UInt64.lt_iff_toNat_lt.mpr hpos, UInt64.lt_iff_toNat_lt.mpr hsmall⟩,
      addU64_of_not_lt h]
    rfl

/-- The division is the first thing that is done with a frame of audio. -/
theorem idealAudio_of_rate_zero (h : frame.clockRate = some 0) : idealAudio t frame = none := by
  rw [idealAudio, h]
  rfl

theorem idealAudio_of_full (h : ¬ t.audioFrames.toNat + 1 < 2 ^ 64) :
    idealAudio t frame = none := by
  rw [idealAudio, addU64_of_not_lt h]
  simp only [Option.bind_eq_bind, Option.bind_none]
  cases divU64 (1024 * 1000) (frame.clockRate.getD AAC_DEFAULT_CLOCK_RATE).toUInt64 with
  | none => rfl
  | some stepMs =>
    simp only [Option.bind_some, Option.bind_fun_none, ite_self]
    cases t.lastRawAudioTs <;> rfl

theorem idealAudio_of_lt (hcounts : t.CountsAudio) (hrate : frame.clockRate ≠ some 0)
    (h : t.audioFrames.toNat + 1 < 2 ^ 64) : idealAudio t frame = t.idealAudio frame := by
  have hne : frame.clockRate.getD AAC_DEFAULT_CLOCK_RATE ≠ 0 := by
    cases hclock : frame.clockRate with
    | none => decide
    | some rate =>
      rintro rfl
      exact hrate hclock
  rw [idealAudio, FlvPlayTimeline.idealAudio, if_neg hne]
  generalize frame.clockRate.getD AAC_DEFAULT_CLOCK_RATE = rate at hne ⊢
  have hdiv : divU64 (1024 * 1000) rate.toUInt64 = some (1024 * 1000 / rate.toUInt64) :=
    divU64_of_ne_zero fun h => hne (UInt32.toUInt64_inj.mp h)
  have hstep : (1024 * 1000 / rate.toUInt64).toNat = 1024 * 1000 / rate.toNat := by
    rw [UInt64.toNat_div, UInt32.toNat_toUInt64]
    rfl
  have hadd : addU64 t.audioFrames 1 = some (t.audioFrames + 1) := addU64_of_lt h
  rw [hdiv, hadd]
  cases hlast : t.lastRawAudioTs with
  | none =>
    have hzero := hcounts hlast
    have hmul : mulU64 0 (1024 * 1000 / rate.toUInt64) = some 0 := by
      rw [mulU64, if_pos (by rw [UInt64.toNat_zero, Nat.zero_mul]; decide), UInt64.zero_mul]
    simp only [Option.bind_eq_bind, Option.bind_some, hzero, hmul, UInt64.zero_mul]
    rfl
  | some last =>
    obtain ⟨delta, hdelta, htoNat⟩ := mediaTimestampDeltaMsWithClock_eq last frame.timestamp
      (frame.clockRate.or t.lastRawAudioClockRate)
    have hin : 0 < delta ∧ delta < 2000 ↔ 0 < delta.toNat ∧ delta.toNat < 2000 := by
      rw [UInt64.lt_iff_toNat_lt, UInt64.lt_iff_toNat_lt]
      rfl
    simp only [Option.bind_eq_bind, Option.bind_some, hdelta, hin, ← htoNat, ← hstep]
    split
    · split <;> rfl
    · rfl

/-- On a frame that it has room for, the timeline goes where it goes without the checks. -/
theorem map_of_hasRoom (hcounts : t.CountsAudio) (h : t.HasRoom frame) :
    map t frame = t.map frame := by
  rw [map, FlvPlayTimeline.map, ideal]
  cases hcodec : frame.codec with
  | h264 | h265 =>
    dsimp only
    rw [idealVideo_of_lt ((hasRoom_of_isVideo (by rw [hcodec]; rfl)).mp h)]
    rfl
  | aac =>
    dsimp only
    rw [idealAudio_of_lt hcounts (h.rate hcodec) (h.audio hcodec)]
    cases t.idealAudio frame <;> rfl
  | opus | g711 | unknown => rfl

/-- On every other frame it panics. -/
theorem map_of_not_hasRoom (h : ¬ t.HasRoom frame) : map t frame = none := by
  rw [map]
  cases hcodec : frame.codec with
  | h264 | h265 =>
    rw [hasRoom_of_isVideo (by rw [hcodec]; rfl)] at h
    dsimp only
    rw [idealVideo_of_not_lt h]
    rfl
  | aac =>
    rw [hasRoom_of_aac hcodec, not_and] at h
    dsimp only
    by_cases hrate : frame.clockRate = some 0
    · rw [idealAudio_of_rate_zero hrate]
      rfl
    · rw [idealAudio_of_full (h hrate)]
      rfl
  | opus | g711 | unknown =>
    exact absurd
      (hasRoom_of_other (by rw [hcodec]; exact Bool.false_ne_true) (by rw [hcodec]; decide)) h

theorem isSome_map_iff (hcounts : t.CountsAudio) : (map t frame).isSome ↔ t.HasRoom frame := by
  constructor
  · intro hsome
    by_contra h
    rw [map_of_not_hasRoom h] at hsome
    cases hsome
  · intro h
    rw [map_of_hasRoom hcounts h]
    by_cases hrate : frame.clockRate = some 0
    · rw [FlvPlayTimeline.map, ideal]
      cases hcodec : frame.codec with
      | aac => exact absurd hrate (h.rate hcodec)
      | _ => rfl
    · exact map_isSome hrate t

/-! ## Runs -/

/-- The timeline behind a frame. -/
def advance (t : FlvPlayTimeline) (frame : MediaFrame) : Option FlvPlayTimeline :=
  (map t frame).map Prod.fst

theorem isSome_advance_iff (hcounts : t.CountsAudio) :
    (advance t frame).isSome ↔ t.HasRoom frame := by
  rw [advance, Option.isSome_map, isSome_map_iff hcounts]

/-- What a frame does to the clocks: video moves by less than two seconds, and a frame of audio is
counted. -/
structure Advances (t t' : FlvPlayTimeline) : Prop where
  videoMs_le : t'.videoMs.toNat ≤ t.videoMs.toNat + 2000
  audioFrames_le : t'.audioFrames.toNat ≤ t.audioFrames.toNat + 1
  countsAudio : t'.CountsAudio

theorem videoMs_idealVideo_le (t : FlvPlayTimeline) (frame : MediaFrame) :
    (t.idealVideo frame).1.videoMs.toNat ≤ t.videoMs.toNat + 2000 := by
  have hstep : (saturatingAdd t.videoMs FLV_MUX_MIN_STEP_MS).toNat ≤ t.videoMs.toNat + 2000 := by
    rw [toNat_saturatingAdd, FLV_MUX_MIN_STEP_MS]
    omega
  rw [FlvPlayTimeline.idealVideo]
  dsimp only
  split
  · split
    · split
      · next hin =>
        rw [UInt64.toNat_add, UInt64.toNat_ofNat']
        omega
      · exact hstep
    · exact hstep
  · exact Nat.le_add_right _ _

theorem advances_of_advance {t' : FlvPlayTimeline} (hcounts : t.CountsAudio)
    (h : advance t frame = some t') :
    Advances t t' := by
  have hroom : t.HasRoom frame := (isSome_advance_iff hcounts).mp (by rw [h]; rfl)
  rw [advance, map_of_hasRoom hcounts hroom, FlvPlayTimeline.map, ideal] at h
  cases hcodec : frame.codec with
  | h264 | h265 =>
    rw [hcodec] at h
    obtain rfl := Option.some.inj h
    exact ⟨videoMs_idealVideo_le t frame, Nat.le_add_right _ _, hcounts⟩
  | aac =>
    rw [hcodec] at h
    dsimp only at h
    rw [FlvPlayTimeline.idealAudio] at h
    split at h
    · cases h
    · obtain rfl := Option.some.inj h
      refine ⟨Nat.le_add_right _ _, ?_, fun hnone => by cases hnone⟩
      rw [UInt64.toNat_add]
      exact Nat.mod_le _ _
  | opus | g711 | unknown =>
    rw [hcodec] at h
    obtain rfl := Option.some.inj h
    exact ⟨Nat.le_add_right _ _, Nat.le_add_right _ _, hcounts⟩

theorem countsAudio_new : FlvPlayTimeline.new.CountsAudio := fun _ => rfl

/-- A run gets to its end exactly if there is room for every frame. -/
theorem isSome_exec_advance_iff (frames : List MediaFrame) :
    (exec advance .new frames).isSome ↔ Always advance HasRoom .new frames := by
  have hroom : ∀ t frame, CountsAudio t → ((advance t frame).isSome ↔ t.HasRoom frame) :=
    fun _ _ => isSome_advance_iff
  have hkeep : ∀ t frame t', CountsAudio t → advance t frame = some t' → t'.CountsAudio :=
    fun _ _ _ hcounts h => (advances_of_advance hcounts h).countsAudio
  exact isSome_exec_iff hroom hkeep countsAudio_new

/-- Among the first 2^53 frames there is room for each that has a rate, if it has a clock. -/
theorem always_hasRoom_iff {n : ℕ} (hcounts : t.CountsAudio) (hvideo : t.videoMs.toNat ≤ n * 2000)
    (haudio : t.audioFrames.toNat ≤ n) {frames : List MediaFrame}
    (hlen : n + frames.length ≤ 2 ^ 53) :
    Always advance HasRoom t frames ↔ ∀ frame ∈ frames, frame.codec = .aac →
        frame.clockRate ≠ some 0 := by
  induction frames generalizing t n with
  | nil => simp
  | cons frame frames ih =>
    rw [List.length_cons] at hlen
    have hadded : t.addedMs frame < 2000 := by
      rw [addedMs]
      split
      · decide
      · dsimp only
        split
        · assumption
        · decide
    have hroom : t.HasRoom frame ↔ (frame.codec = .aac → frame.clockRate ≠ some 0) :=
      ⟨HasRoom.rate, fun hrate => ⟨fun _ => by omega, hrate, fun _ => by omega⟩⟩
    rw [always_cons, List.forall_mem_cons, hroom]
    refine and_congr_right fun hrate => ?_
    obtain ⟨t', ht'⟩ :=
      Option.isSome_iff_exists.mp ((isSome_advance_iff hcounts).mpr (hroom.mpr hrate))
    have hadvances := advances_of_advance hcounts ht'
    have hvideo' := hadvances.videoMs_le
    have haudio' := hadvances.audioFrames_le
    rw [← ih (n := n + 1) hadvances.countsAudio (by omega) (by omega) (by omega)]
    constructor
    · intro hall
      exact hall t' ht'
    · intro hall s' hs'
      rw [ht'] at hs'
      rwa [← Option.some.inj hs']

end Checked

end VcpMediaServer
