import Mathlib.Data.List.Chain
import VcpMediaServer.Timestamp

/-!
# The timeline of FLV tags

`FlvPlayTimeline`: video and audio have clocks of their own, and a tag has the time of its clock,
unless a tag before it was as late. The times **go forward from the first that is not zero on, until
they are full**.

* `FlvPlayTimeline.map` — the time of a frame; there is none if its audio clock has a rate of zero.
* `emit` — the time of a tag from that of its clock and that of the last tag.
* `goesForward_run` — every run.
-/

namespace VcpMediaServer

/-- `FLV_MUX_MIN_STEP_MS`. -/
def FLV_MUX_MIN_STEP_MS : ℕ := 1

/-- `FlvPlayTimeline`. -/
structure FlvPlayTimeline where
  /-- The time of the last tag. -/
  lastEmitMs : UInt64
  /-- The clock of video. -/
  videoMs : UInt64
  /-- The timestamp of the last frame of video. -/
  lastRawVideoTs : Option UInt64
  /-- Its clock rate. -/
  lastRawVideoClockRate : Option UInt32
  /-- The clock of audio. -/
  audioMs : UInt64
  /-- The timestamp of the last frame of audio. -/
  lastRawAudioTs : Option UInt64
  /-- Its clock rate. -/
  lastRawAudioClockRate : Option UInt32
  /-- The frames of audio so far. -/
  audioFrames : UInt64
  deriving DecidableEq

namespace FlvPlayTimeline

/-- `FlvPlayTimeline::default`. -/
def new : FlvPlayTimeline where
  lastEmitMs := 0
  videoMs := 0
  lastRawVideoTs := none
  lastRawVideoClockRate := none
  audioMs := 0
  lastRawAudioTs := none
  lastRawAudioClockRate := none
  audioFrames := 0

/-- The clock of video moves to a frame. The sum of a delta **wraps**, that of the smallest step
does not. -/
def idealVideo (t : FlvPlayTimeline) (frame : MediaFrame) : FlvPlayTimeline × UInt64 :=
  let videoMs :=
    match t.lastRawVideoTs with
    | some last =>
      if last < frame.timestamp then
        let delta := mediaTimestampDeltaMsWithClock last frame.timestamp
          (frame.clockRate.or t.lastRawVideoClockRate)
        if 0 < delta ∧ delta < 2000 then t.videoMs + UInt64.ofNat delta
        else saturatingAdd t.videoMs FLV_MUX_MIN_STEP_MS
      else saturatingAdd t.videoMs FLV_MUX_MIN_STEP_MS
    | none => t.videoMs
  ({ t with
    videoMs
    lastRawVideoTs := some frame.timestamp
    lastRawVideoClockRate := frame.clockRate }, videoMs)

/-- The clock of audio moves to a frame of 1024 samples. A rate of zero is a division by zero. -/
def idealAudio (t : FlvPlayTimeline) (frame : MediaFrame) : Option (FlvPlayTimeline × UInt64) :=
  let rate := frame.clockRate.getD AAC_DEFAULT_CLOCK_RATE
  if rate = 0 then none
  else
    let stepMs := 1024 * 1000 / rate.toNat
    let audioMs :=
      match t.lastRawAudioTs with
      | some last =>
        if last < frame.timestamp then
          let delta := mediaTimestampDeltaMsWithClock last frame.timestamp
            (frame.clockRate.or t.lastRawAudioClockRate)
          saturatingAdd t.audioMs (if 0 < delta ∧ delta < 2000 then delta else stepMs)
        else saturatingAdd t.audioMs stepMs
      | none => t.audioFrames * UInt64.ofNat stepMs
    some ({ t with
      audioMs
      lastRawAudioTs := some frame.timestamp
      lastRawAudioClockRate := frame.clockRate
      audioFrames := t.audioFrames + 1 }, audioMs)

/-- The time that a frame should have. -/
def ideal (t : FlvPlayTimeline) (frame : MediaFrame) : Option (FlvPlayTimeline × UInt64) :=
  match frame.codec with
  | .h264 | .h265 => some (t.idealVideo frame)
  | .aac => t.idealAudio frame
  | _ => some (t, t.lastEmitMs)

/-- The time of a tag that should have the time `ideal`, behind one of the time `last`. -/
def emit (last ideal : UInt64) : UInt64 :=
  if last < ideal then ideal
  else if ideal = last ∧ last = 0 then 0
  else saturatingAdd last FLV_MUX_MIN_STEP_MS

/-- `FlvPlayTimeline::map`. -/
def map (t : FlvPlayTimeline) (frame : MediaFrame) : Option (FlvPlayTimeline × UInt32) :=
  (t.ideal frame).map fun (t, ideal) =>
    let ts := emit t.lastEmitMs ideal
    ({ t with lastEmitMs := ts }, (ts &&& 0xFFFFFFFF).toUInt32)

/-- The clock of a codec, if it has one. -/
def clock (t : FlvPlayTimeline) : CodecType → Option UInt64
  | .h264 | .h265 => some t.videoMs
  | .aac => some t.audioMs
  | _ => none

/-- The frames of a run: the timeline behind each of them, and the time of its tag. -/
def mapAll : FlvPlayTimeline → List MediaFrame → Option (List (FlvPlayTimeline × UInt32))
  | _, [] => some []
  | t, frame :: frames =>
    (t.map frame).bind fun r => (mapAll r.1 frames).map fun rs => r :: rs

/-! ## A tag -/

theorem le_emit (last ideal : UInt64) : last ≤ emit last ideal ∧ ideal ≤ emit last ideal := by
  rw [emit]
  split
  · next hlt => exact ⟨UInt64.le_of_lt hlt, UInt64.le_refl _⟩
  · next hnot =>
    have hle : ideal ≤ last := UInt64.not_lt.mp hnot
    split
    · next hzero =>
      rw [hzero.1, hzero.2]
      exact ⟨UInt64.le_refl _, UInt64.le_refl _⟩
    · exact ⟨le_saturatingAdd _ _, UInt64.le_trans hle (le_saturatingAdd _ _)⟩

/-- A tag is **later** than the last one, unless that is at zero or full. -/
theorem lt_emit {last : UInt64} (hpos : 0 < last) (hlt : last.toNat < 2 ^ 64 - 1) (ideal : UInt64) :
    last < emit last ideal := by
  have hne : last ≠ 0 := (UInt64.ne_of_lt hpos).symm
  rw [emit]
  split
  · assumption
  · rw [if_neg fun h => hne h.2, UInt64.lt_iff_toNat_lt, toNat_saturatingAdd, FLV_MUX_MIN_STEP_MS]
    omega

theorem toNat_low (ts : UInt64) : (ts &&& 0xFFFFFFFF).toUInt32.toNat = ts.toNat % 2 ^ 32 := by
  rw [UInt64.toNat_toUInt32, UInt64.toNat_and,
    show (0xFFFFFFFF : UInt64).toNat = 2 ^ 32 - 1 from rfl, Nat.and_two_pow_sub_one_eq_mod,
    Nat.mod_mod]

/-- A clock moves, and the time of the last tag stays. -/
theorem ideal_eq_some {t t' : FlvPlayTimeline} {frame : MediaFrame} {ms : UInt64}
    (h : t.ideal frame = some (t', ms)) :
    t'.lastEmitMs = t.lastEmitMs ∧ ∀ clockMs ∈ t'.clock frame.codec, clockMs = ms := by
  rw [ideal] at h
  cases hcodec : frame.codec with
  | h264 | h265 =>
    rw [hcodec] at h
    obtain ⟨rfl, rfl⟩ := Prod.mk.inj (Option.some.inj h)
    exact ⟨rfl, fun clockMs hms => (Option.some.inj hms).symm⟩
  | aac =>
    rw [hcodec] at h
    dsimp only at h
    rw [idealAudio] at h
    split at h
    · cases h
    · obtain ⟨rfl, rfl⟩ := Prod.mk.inj (Option.some.inj h)
      exact ⟨rfl, fun clockMs hms => (Option.some.inj hms).symm⟩
  | opus | g711 | unknown =>
    rw [hcodec] at h
    obtain ⟨rfl, rfl⟩ := Prod.mk.inj (Option.some.inj h)
    exact ⟨rfl, nofun⟩

/-- There is a time for a frame with a clock. -/
theorem map_isSome {frame : MediaFrame} (h : frame.clockRate ≠ some 0) (t : FlvPlayTimeline) :
    (t.map frame).isSome := by
  have hrate : frame.clockRate.getD AAC_DEFAULT_CLOCK_RATE ≠ 0 := by
    cases hclock : frame.clockRate with
    | none => decide
    | some rate =>
      rintro rfl
      exact h hclock
  rw [map, Option.isSome_map, ideal]
  cases frame.codec with
  | aac =>
    dsimp only
    rw [idealAudio, if_neg hrate]
    rfl
  | _ => rfl

/-- A frame on a timeline: the tag is behind the last one, at its clock or behind it. -/
structure Maps (t : FlvPlayTimeline) (frame : MediaFrame) (r : FlvPlayTimeline × UInt32) :
    Prop where
  le : t.lastEmitMs ≤ r.1.lastEmitMs
  lt : 0 < t.lastEmitMs → t.lastEmitMs.toNat < 2 ^ 64 - 1 → t.lastEmitMs < r.1.lastEmitMs
  clock : ∀ clockMs ∈ r.1.clock frame.codec, clockMs ≤ r.1.lastEmitMs
  low : r.2.toNat = r.1.lastEmitMs.toNat % 2 ^ 32

theorem maps_of_map {t : FlvPlayTimeline} {frame : MediaFrame} {r : FlvPlayTimeline × UInt32}
    (h : t.map frame = some r) : Maps t frame r := by
  obtain ⟨⟨t', ms⟩, hideal, rfl⟩ := Option.map_eq_some_iff.mp h
  obtain ⟨hlast, hclock⟩ := ideal_eq_some hideal
  have hle := le_emit t.lastEmitMs ms
  refine ⟨?_, ?_, ?_, toNat_low _⟩
  · change t.lastEmitMs ≤ emit t'.lastEmitMs ms
    rw [hlast]
    exact hle.1
  · intro hpos hlt
    change t.lastEmitMs < emit t'.lastEmitMs ms
    rw [hlast]
    exact lt_emit hpos hlt ms
  · intro clockMs hms
    have hsame :
      ({ t' with lastEmitMs := emit t'.lastEmitMs ms } : FlvPlayTimeline).clock frame.codec =
        t'.clock frame.codec := by cases frame.codec <;> rfl
    have heq : clockMs = ms := hclock clockMs (hsame ▸ hms)
    change clockMs ≤ emit t'.lastEmitMs ms
    rw [hlast, heq]
    exact hle.2

/-! ## Runs -/

/-- The times of two tags, one behind the other: they go forward once they are not zero. -/
def Forward (before after : FlvPlayTimeline × UInt32) : Prop :=
  before.1.lastEmitMs ≤ after.1.lastEmitMs ∧
    (0 < before.1.lastEmitMs → before.1.lastEmitMs < after.1.lastEmitMs)

/-- The times of two tags, one behind the other: they go forward from zero on **until they are
full**. -/
def ForwardInRoom (before after : FlvPlayTimeline × UInt32) : Prop :=
  before.1.lastEmitMs ≤ after.1.lastEmitMs ∧
    (0 < before.1.lastEmitMs → before.1.lastEmitMs.toNat < 2 ^ 64 - 1 →
      before.1.lastEmitMs < after.1.lastEmitMs)

/-- A tag is not in front of its clock, and has the lower half of its time. -/
def Stamped (frame : MediaFrame) (r : FlvPlayTimeline × UInt32) : Prop :=
  (∀ clockMs ∈ r.1.clock frame.codec, clockMs ≤ r.1.lastEmitMs) ∧ r.2.toNat =
    r.1.lastEmitMs.toNat % 2 ^ 32

theorem mapAll_cons_eq_some {t : FlvPlayTimeline} {frame : MediaFrame} {frames : List MediaFrame}
    {rs : List (FlvPlayTimeline × UInt32)} :
    t.mapAll (frame :: frames) = some rs ↔
      ∃ r, t.map frame = some r ∧ ∃ rest, r.1.mapAll frames = some rest ∧ r :: rest = rs := by
  rw [mapAll, Option.bind_eq_some_iff]
  exact exists_congr fun r => and_congr_right fun _ => Option.map_eq_some_iff

/-- Every run of frames with a clock gets times, from that of the timeline on. -/
theorem exists_mapAll {frames : List MediaFrame} (h : ∀ frame ∈ frames, frame.clockRate ≠ some 0)
    (t : FlvPlayTimeline) (low : UInt32) :
    ∃ rs, t.mapAll frames = some rs ∧ ((t, low) :: rs).IsChain ForwardInRoom ∧
      List.Forall₂ Stamped frames rs := by
  induction frames generalizing t low with
  | nil => exact ⟨[], rfl, .singleton _, .nil⟩
  | cons frame frames ih =>
    obtain ⟨hframe, hframes⟩ := List.forall_mem_cons.mp h
    obtain ⟨r, hr⟩ := Option.isSome_iff_exists.mp (map_isSome hframe t)
    obtain ⟨rs, hrs, hchain, hstamped⟩ := ih hframes r.1 r.2
    have hmaps := maps_of_map hr
    refine ⟨r :: rs, ?_, .cons_cons ⟨hmaps.le, hmaps.lt⟩ hchain,
      .cons ⟨hmaps.clock, hmaps.low⟩ hstamped⟩
    exact mapAll_cons_eq_some.mpr ⟨r, hr, rs, hrs, rfl⟩

/-- In every run of frames with a clock the times of the tags go forward from the first that is not
zero on until they are full; each is not in front of the clock of its codec, and its lower half is
returned. -/
theorem goesForward_run {frames : List MediaFrame}
    (h : ∀ frame ∈ frames, frame.clockRate ≠ some 0) :
    ∃ rs, new.mapAll frames = some rs ∧ rs.IsChain ForwardInRoom ∧
        List.Forall₂ Stamped frames rs := by
  obtain ⟨rs, hrs, hchain, hstamped⟩ := exists_mapAll h new 0
  exact ⟨rs, hrs, hchain.tail, hstamped⟩

/-- A frame of audio with one sample a second. -/
def slowFrame : MediaFrame := (MediaFrame.new "live/cam" 1 0 [] false .aac).withClockRate 1

theorem goesForward_slowFrames :
    (∀ frame ∈ [slowFrame, slowFrame, slowFrame], frame.clockRate ≠ some 0) ∧
      ∃ rs, new.mapAll [slowFrame, slowFrame, slowFrame] = some rs ∧ rs.IsChain ForwardInRoom ∧
        List.Forall₂ Stamped [slowFrame, slowFrame, slowFrame] rs := by
  have hclock : ∀ frame ∈ [slowFrame, slowFrame, slowFrame], frame.clockRate ≠ some 0 := by
    simp [slowFrame, MediaFrame.withClockRate]
  exact ⟨hclock, goesForward_run hclock⟩

/-- A timeline of slow frames moves by 1024 seconds with each of them. -/
theorem map_slowFrame {t : FlvPlayTimeline} (hraw : t.lastRawAudioTs = some 0)
    (hms : t.audioMs = t.lastEmitMs) :
    ∃ r, t.map slowFrame = some r ∧ r.1.lastRawAudioTs = some 0 ∧ r.1.audioMs = r.1.lastEmitMs ∧
      r.1.lastEmitMs = saturatingAdd t.lastEmitMs 1024000 := by
  have hideal : t.ideal slowFrame = some ({ t with
      audioMs := saturatingAdd t.lastEmitMs 1024000
      lastRawAudioTs := some 0
      lastRawAudioClockRate := some 1
      audioFrames := t.audioFrames + 1 }, saturatingAdd t.lastEmitMs 1024000) := by
    have hstep : t.ideal slowFrame = t.idealAudio slowFrame := rfl
    rw [hstep, idealAudio, if_neg (by decide), hraw, ← hms]
    rfl
  have hemit : emit t.lastEmitMs (saturatingAdd t.lastEmitMs 1024000) =
      saturatingAdd t.lastEmitMs 1024000 := by
    have hlt := t.lastEmitMs.toNat_lt
    rw [emit]
    split
    · rfl
    · next hnot =>
      rw [UInt64.lt_iff_toNat_lt, toNat_saturatingAdd] at hnot
      have hne : t.lastEmitMs ≠ 0 := by
        intro hzero
        have hnat : t.lastEmitMs.toNat = 0 := congrArg UInt64.toNat hzero
        omega
      rw [if_neg fun h => hne h.2]
      apply UInt64.toNat_inj.mp
      rw [toNat_saturatingAdd, toNat_saturatingAdd, FLV_MUX_MIN_STEP_MS]
      omega
  generalize saturatingAdd t.lastEmitMs 1024000 = next at hideal hemit ⊢
  exact ⟨_, by rw [map, hideal, Option.map_some], rfl, hemit.symm, hemit⟩

/-- Slow frames whose times go forward **are few**. -/
theorem le_of_forward {n : ℕ} {t : FlvPlayTimeline} (hraw : t.lastRawAudioTs = some 0)
    (hms : t.audioMs = t.lastEmitMs) (hpos : 0 < t.lastEmitMs) {low : UInt32}
    {rs : List (FlvPlayTimeline × UInt32)}
    (hrs : t.mapAll (List.replicate (n + 1) slowFrame) = some rs)
    (hchain : ((t, low) :: rs).IsChain Forward) :
    t.lastEmitMs.toNat + 1024000 * n < 2 ^ 64 - 1 := by
  obtain ⟨r, hr, hraw', hms', hnext⟩ := map_slowFrame hraw hms
  rw [List.replicate_succ] at hrs
  obtain ⟨r', hr', rs, hrest, rfl⟩ := mapAll_cons_eq_some.mp hrs
  obtain rfl : r = r' := Option.some.inj (hr.symm.trans hr')
  obtain ⟨⟨hle, hlt⟩, hchain⟩ := List.isChain_cons_cons.mp hchain
  have hsum := toNat_saturatingAdd t.lastEmitMs 1024000
  have hlater : t.lastEmitMs.toNat < r.1.lastEmitMs.toNat := UInt64.lt_iff_toNat_lt.mp (hlt hpos)
  rw [← hnext] at hsum
  cases n with
  | zero => omega
  | succ n =>
    have hpos' : 0 < r.1.lastEmitMs := UInt64.lt_of_lt_of_le hpos hle
    have hfew := le_of_forward hraw' hms' hpos' hrest hchain
    omega

/-- Frames that fill the timeline. -/
def slowFrames : List MediaFrame := List.replicate (2 ^ 45 + 3) slowFrame

/-- The times of tags do not go forward for ever: a time that is **full** is given again. -/
theorem not_goesForward_slowFrames : (∀ frame ∈ slowFrames, frame.clockRate ≠ some 0) ∧
    ¬∃ rs, new.mapAll slowFrames = some rs ∧ rs.IsChain Forward := by
  have hclock : slowFrame.clockRate ≠ some 0 := by decide
  refine ⟨fun frame hframe => List.eq_of_mem_replicate hframe ▸ hclock, ?_⟩
  rintro ⟨rs, hrs, hchain⟩
  have hframes : slowFrames = slowFrame :: slowFrame :: List.replicate (2 ^ 45 + 1) slowFrame := by
    rw [slowFrames, List.replicate_succ, List.replicate_succ]
  rw [hframes] at hrs
  -- the first frame is at zero, and the second at 1024 seconds
  obtain ⟨r, hr, tail, htail, rfl⟩ := mapAll_cons_eq_some.mp hrs
  obtain ⟨hraw, hms, hlast⟩ : r.1.lastRawAudioTs = some 0 ∧ r.1.audioMs = 0 ∧
      r.1.lastEmitMs = 0 := by
    obtain rfl := Option.some.inj hr
    exact ⟨rfl, rfl, rfl⟩
  obtain ⟨r', hr', rest, hrest, rfl⟩ := mapAll_cons_eq_some.mp htail
  obtain ⟨next, hnext, hraw', hms', hlater⟩ := map_slowFrame hraw (hms.trans hlast.symm)
  obtain rfl : next = r' := Option.some.inj (hnext.symm.trans hr')
  have hpos : 0 < next.1.lastEmitMs := by
    rw [hlater, hlast]
    decide
  have hfew := le_of_forward hraw' hms' hpos hrest hchain.tail
  omega

end FlvPlayTimeline

end VcpMediaServer
