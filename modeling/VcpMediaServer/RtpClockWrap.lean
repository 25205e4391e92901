import VcpMediaServer.FlvPlayTimeline
import VcpMediaServer.HlsVideoTime

/-!
# The RTP clock wraps

Frames of H264 with timestamps of 32 bits of a 90 kHz clock. At the frame where the timestamp wraps
**both timelines see a jump backwards**: that of FLV moves by its smallest step, that of HLS by its
fallback step. The helpers of the WebRTC path compare such timestamps modulo 2³².

* `RtpStamped` — the frames.
* `KeepsPace` — a clock that moves as the timestamps do.
* `step_iff` — one frame.
-/

namespace VcpMediaServer

open Mealy

/-! ## Timestamps -/

/-- How far a timestamp is behind another, modulo 2³². -/
def rtpTicks (prev curr : UInt64) : ℕ := (curr.toUInt32 - prev.toUInt32).toNat

/-- A frame of H264 with an RTP timestamp. -/
structure IsRtpFrame (frame : MediaFrame) : Prop where
  codec : frame.codec = .h264
  clockRate : frame.clockRate = some VIDEO_RTP_CLOCK_RATE
  timestamp : frame.timestamp.toNat < 2 ^ 32

/-- A frame that is at least a millisecond and less than half a second behind another. -/
def FollowsSoon (prev curr : MediaFrame) : Prop :=
  90 ≤ rtpTicks prev.timestamp curr.timestamp ∧ rtpTicks prev.timestamp curr.timestamp < 45000

/-- Frames with RTP timestamps. -/
structure RtpStamped (frames : List MediaFrame) : Prop where
  rtp : ∀ frame ∈ frames, IsRtpFrame frame
  soon : frames.IsChain FollowsSoon

theorem rtpTicks_eq {prev curr : UInt64} (hprev : prev.toNat < 2 ^ 32)
    (hcurr : curr.toNat < 2 ^ 32) :
    rtpTicks prev curr = (2 ^ 32 - prev.toNat + curr.toNat) % 2 ^ 32 := by
  rw [rtpTicks, UInt32.toNat_sub, UInt64.toNat_toUInt32, UInt64.toNat_toUInt32,
    Nat.mod_eq_of_lt hprev, Nat.mod_eq_of_lt hcurr]

/-- Where the timestamp does not wrap it rises by the ticks. -/
theorem rtpTicks_cases {prev curr : MediaFrame} (hprev : IsRtpFrame prev) (hcurr : IsRtpFrame curr)
    (h : FollowsSoon prev curr) :
    prev.timestamp < curr.timestamp ∧
        rtpTicks prev.timestamp curr.timestamp = curr.timestamp.toNat - prev.timestamp.toNat ∨
      curr.timestamp ≤ prev.timestamp := by
  obtain ⟨hlow, hhigh⟩ := h
  have hticks := rtpTicks_eq hprev.timestamp hcurr.timestamp
  have hlt := hprev.timestamp
  have hlt' := hcurr.timestamp
  rw [UInt64.lt_iff_toNat_lt, UInt64.le_iff_toNat_le]
  omega

/-- The delta of the timestamps in milliseconds. -/
theorem delta_eq {prev curr : UInt64} (hlt : prev < curr) (hcurr : curr.toNat < 2 ^ 32) :
    mediaTimestampDeltaMsWithClock prev curr (some VIDEO_RTP_CLOCK_RATE) =
        (curr.toNat - prev.toNat) / 90 := by
  have hnot : ¬curr ≤ prev := UInt64.not_le.mpr hlt
  have hrate : VIDEO_RTP_CLOCK_RATE.toNat = 90000 := rfl
  rw [mediaTimestampDeltaMsWithClock, if_neg hnot]
  dsimp only
  rw [if_neg (by decide), if_neg (by decide), hrate, Nat.min_eq_left (by omega)]
  omega

/-! ## One frame -/

/-- A clock moves from one frame to another by the ticks between them. -/
def Paces (prev curr : MediaFrame × UInt64) : Prop :=
  curr.2.toNat = prev.2.toNat + rtpTicks prev.1.timestamp curr.1.timestamp / 90

instance (prev curr : MediaFrame × UInt64) : Decidable (Paces prev curr) :=
  inferInstanceAs (Decidable (_ = _))

/-- A clock keeps pace with frames. -/
def KeepsPace (frames : List MediaFrame) (ms : List UInt64) : Prop := (frames.zip ms).IsChain Paces

variable {prev curr : MediaFrame}

/-- The clock of FLV behind a frame. -/
theorem flv_map_eq {t : FlvPlayTimeline} {frame : MediaFrame} {r : FlvPlayTimeline × UInt32}
    (hframe : IsRtpFrame frame) (h : t.map frame = some r) :
    r.1.lastRawVideoTs = some frame.timestamp ∧ r.1.videoMs = (t.idealVideo frame).2 := by
  have hideal : t.ideal frame = some (t.idealVideo frame) := by
    rw [FlvPlayTimeline.ideal, hframe.codec]
  rw [FlvPlayTimeline.map, hideal] at h
  obtain rfl := Option.some.inj h
  exact ⟨rfl, rfl⟩

/-- FLV moves by the ticks, or by **one millisecond** at a wrap. -/
theorem flv_step {t : FlvPlayTimeline} (hraw : t.lastRawVideoTs = some prev.timestamp)
    (hms : t.videoMs.toNat ≤ prev.timestamp.toNat) (hprev : IsRtpFrame prev)
    (hcurr : IsRtpFrame curr) (h : FollowsSoon prev curr) :
    (t.idealVideo curr).2.toNat = t.videoMs.toNat +
      if prev.timestamp < curr.timestamp then rtpTicks prev.timestamp curr.timestamp / 90
          else 1 := by
  have hlt := hprev.timestamp
  have hsize : UInt64.size = 2 ^ 64 := rfl
  rw [FlvPlayTimeline.idealVideo, hraw, hcurr.clockRate]
  dsimp only
  split
  · next hrises =>
    obtain ⟨hlow, hhigh⟩ := h
    rcases rtpTicks_cases hprev hcurr ⟨hlow, hhigh⟩ with ⟨-, hticks⟩ | hle
    · rw [Option.some_or, delta_eq hrises hcurr.timestamp, ← hticks, if_pos (by omega),
        UInt64.toNat_add, UInt64.toNat_ofNat_of_lt' (by omega), Nat.mod_eq_of_lt (by omega)]
    · exact absurd hrises (UInt64.not_lt.mpr hle)
  · rw [toNat_saturatingAdd, FLV_MUX_MIN_STEP_MS]
    omega

/-- HLS moves by the ticks; at a wrap by its fallback step, **or not at all** if it is at zero. -/
theorem hls_step {ms : UInt64} (hms : ms.toNat ≤ prev.timestamp.toNat) (hprev : IsRtpFrame prev)
    (hcurr : IsRtpFrame curr) (h : FollowsSoon prev curr) :
    (clockStep (prev.timestamp, ms) curr).1 =
      (curr.timestamp, (clockStep (prev.timestamp, ms) curr).1.2) ∧
      (clockStep (prev.timestamp, ms) curr).2 = [(clockStep (prev.timestamp, ms) curr).1.2] ∧
      (clockStep (prev.timestamp, ms) curr).1.2.toNat = ms.toNat +
        if 0 < prev.timestamp ∧ prev.timestamp < curr.timestamp then
          rtpTicks prev.timestamp curr.timestamp / 90
        else if ms = 0 then 0 else 40 := by
  have hlt := hprev.timestamp
  have hstep : videoStep prev.timestamp curr =
      if 0 < prev.timestamp ∧ prev.timestamp < curr.timestamp then
        rtpTicks prev.timestamp curr.timestamp / 90 else 40 := by
    obtain ⟨hlow, hhigh⟩ := h
    rw [videoStep, hcurr.clockRate]
    split
    · next hrises =>
      rcases rtpTicks_cases hprev hcurr ⟨hlow, hhigh⟩ with ⟨-, hticks⟩ | hle
      · dsimp only
        rw [delta_eq hrises.2 hcurr.timestamp, ← hticks, if_pos (by omega)]
      · exact absurd hrises.2 (UInt64.not_lt.mpr hle)
    · rfl
  have hlow := h.1
  have hhigh := h.2
  refine ⟨rfl, rfl, ?_⟩
  by_cases hzero : ms = 0
  · have hnat : (0 : UInt64).toNat = 0 := rfl
    rw [hzero, clockStep_zero]
    split
    · next hrises =>
      rw [toNat_saturatingAdd, hstep, if_pos hrises, hnat]
      omega
    · rfl
  · rw [clockStep_of_ne_zero hzero, toNat_saturatingAdd, hstep, if_neg hzero]
    split <;> omega

/-- Both keep pace with a frame **exactly if** its timestamp does not wrap, and that of the frame in
front of it is not zero: at a wrap FLV needs a step of 1 ms, and HLS one of 40 ms. -/
theorem step_iff {t : FlvPlayTimeline} {ms : UInt64} (hraw : t.lastRawVideoTs = some prev.timestamp)
    (hflv : t.videoMs.toNat ≤ prev.timestamp.toNat) (hhls : ms.toNat ≤ prev.timestamp.toNat)
    (hprev : IsRtpFrame prev) (hcurr : IsRtpFrame curr) (h : FollowsSoon prev curr) :
    (Paces (prev, t.videoMs) (curr, (t.idealVideo curr).2) ∧
      Paces (prev, ms) (curr, (clockStep (prev.timestamp, ms) curr).1.2)) ↔
    0 < prev.timestamp ∧ prev.timestamp < curr.timestamp := by
  have hlow := h.1
  obtain ⟨-, -, hmoves⟩ := hls_step hhls hprev hcurr h
  rw [Paces, Paces, flv_step hraw hflv hprev hcurr h, hmoves]
  dsimp only
  by_cases hrises : prev.timestamp < curr.timestamp
  · by_cases hpos : 0 < prev.timestamp
    · simp [hrises, hpos]
    · have hnot : ¬(0 < prev.timestamp ∧ prev.timestamp < curr.timestamp) :=
        fun hboth => hpos hboth.1
      have hzero : ms.toNat = 0 := by
        have hnat : (0 : UInt64).toNat = 0 := rfl
        rw [UInt64.lt_iff_toNat_lt] at hpos
        omega
      have hms : ms = 0 := UInt64.toNat_inj.mp hzero
      rw [if_neg hnot, if_pos hms]
      exact ⟨fun hpaces => by omega, fun hboth => absurd hboth.1 hpos⟩
  · have hnot : ¬(0 < prev.timestamp ∧ prev.timestamp < curr.timestamp) :=
      fun hboth => hrises hboth.2
    rw [if_neg hrises, if_neg hnot]
    refine ⟨fun hpaces => ?_, fun hboth => absurd hboth.2 hrises⟩
    obtain ⟨hone, hstep⟩ := hpaces
    split at hstep <;> omega

/-! ## Runs -/

/-- Timestamps that do not wrap, the first of which is not zero. -/
def NoWrap (frames : List MediaFrame) : Prop :=
  frames.length ≤ 1 ∨ (∀ first ∈ frames.head?, 0 < first.timestamp) ∧
    frames.IsChain fun prev curr => prev.timestamp < curr.timestamp

theorem noWrap_cons {prev curr : MediaFrame} {frames : List MediaFrame} :
    NoWrap (prev :: curr :: frames) ↔
      (0 < prev.timestamp ∧ prev.timestamp < curr.timestamp) ∧ NoWrap (curr :: frames) := by
  have hlen : ¬(prev :: curr :: frames).length ≤ 1 := by simp
  have hlater : 0 < prev.timestamp ∧ prev.timestamp < curr.timestamp → 0 < curr.timestamp :=
    fun h =>
    UInt64.lt_trans h.1 h.2
  rw [NoWrap, NoWrap, or_iff_right hlen, List.isChain_cons_cons]
  simp only [List.head?_cons, Option.mem_some_iff, forall_eq']
  cases frames with
  | nil => simp
  | cons next frames =>
    have hlen' : ¬(curr :: next :: frames).length ≤ 1 := by simp
    rw [or_iff_right hlen']
    exact ⟨fun h => ⟨⟨h.1, h.2.1⟩, hlater ⟨h.1, h.2.1⟩, h.2.2⟩, fun h => ⟨h.1.1, h.1.2, h.2.2⟩⟩

/-- From one frame on. -/
theorem keepsPace_from {t : FlvPlayTimeline} {ms : UInt64} {frames : List MediaFrame}
    (hraw : t.lastRawVideoTs = some prev.timestamp) (hflv : t.videoMs.toNat ≤ prev.timestamp.toNat)
    (hhls : ms.toNat ≤ prev.timestamp.toNat) (h : RtpStamped (prev :: frames))
    {rs : List (FlvPlayTimeline × UInt32)} (hrs : t.mapAll frames = some rs) :
    (KeepsPace (prev :: frames) (t.videoMs :: rs.map fun r => r.1.videoMs) ∧
      KeepsPace (prev :: frames) (ms :: (trace clockStep (prev.timestamp, ms) frames).flatten)) ↔
    NoWrap (prev :: frames) := by
  induction frames generalizing prev t ms rs with
  | nil => simp [KeepsPace, NoWrap]
  | cons curr frames ih =>
    obtain ⟨r, hr, rest, hrest, rfl⟩ := FlvPlayTimeline.mapAll_cons_eq_some.mp hrs
    obtain ⟨hprev, hcurr⟩ : IsRtpFrame prev ∧ IsRtpFrame curr :=
      ⟨h.rtp prev List.mem_cons_self, h.rtp curr (List.mem_cons_of_mem _ List.mem_cons_self)⟩
    obtain ⟨hsoon, htail⟩ := List.isChain_cons_cons.mp h.soon
    obtain ⟨hraw', hvideo⟩ := flv_map_eq hcurr hr
    obtain ⟨hclock, hout, hmoves⟩ := hls_step hhls hprev hcurr hsoon
    have hstep := step_iff hraw hflv hhls hprev hcurr hsoon
    have hflvMoves := flv_step hraw hflv hprev hcurr hsoon
    have hsplit : ∀ ms' : UInt64, ∀ later : List UInt64, ∀ ms : UInt64,
        KeepsPace (prev :: curr :: frames) (ms :: ms' :: later) ↔
          Paces (prev, ms) (curr, ms') ∧ KeepsPace (curr :: frames) (ms' :: later) :=
            fun ms' later ms =>
      List.isChain_cons_cons
    rw [trace_cons, List.flatten_cons, hout, hclock, List.map_cons, List.singleton_append, hsplit,
      hsplit, noWrap_cons, ← hstep, hvideo, and_and_and_comm]
    refine and_congr_right fun hpaces => ?_
    obtain ⟨hpos, hrises⟩ := hstep.mp hpaces
    have hticks : rtpTicks prev.timestamp curr.timestamp =
        curr.timestamp.toNat - prev.timestamp.toNat := by
      rcases rtpTicks_cases hprev hcurr hsoon with ⟨-, hticks⟩ | hle
      · exact hticks
      · exact absurd hrises (UInt64.not_lt.mpr hle)
    rw [if_pos hrises] at hflvMoves
    rw [if_pos ⟨hpos, hrises⟩] at hmoves
    rw [UInt64.lt_iff_toNat_lt] at hrises
    rw [← hvideo]
    refine ih hraw' ?_ ?_ ⟨fun frame hframe => h.rtp frame (List.mem_cons_of_mem _ hframe), htail⟩
      hrest
    · rw [hvideo]
      omega
    · change (clockStep (prev.timestamp, ms) curr).1.2.toNat ≤ curr.timestamp.toNat
      omega

/-- The clocks of a new FLV timeline and of a new session of HLS keep pace with RTP timestamps
**exactly if** these do not wrap, and the first of them is not zero. -/
theorem rtp_keepsPace_iff {frames : List MediaFrame} (h : RtpStamped frames) :
    (∃ rs, FlvPlayTimeline.new.mapAll frames = some rs ∧
      KeepsPace frames (rs.map fun r => r.1.videoMs)) ∧
      KeepsPace frames (trace clockStep (0, 0) frames).flatten ↔
    NoWrap frames := by
  cases frames with
  | nil => simp [FlvPlayTimeline.mapAll, KeepsPace, NoWrap]
  | cons first frames =>
    have hclock : ∀ frame ∈ first :: frames, frame.clockRate ≠ some 0 := by
      intro frame hframe
      rw [(h.rtp frame hframe).clockRate]
      decide
    obtain ⟨rs, hrs, -, -⟩ := FlvPlayTimeline.goesForward_run hclock
    obtain ⟨r, hr, rest, hrest, rfl⟩ := FlvPlayTimeline.mapAll_cons_eq_some.mp hrs
    obtain ⟨hraw, hvideo⟩ := flv_map_eq (h.rtp first List.mem_cons_self) hr
    have hzero : r.1.videoMs.toNat ≤ first.timestamp.toNat := by
      rw [hvideo]
      exact Nat.zero_le _
    have hfirst : clockStep (0, 0) first = ((first.timestamp, 0), [0]) := by
      rw [clockStep_zero]
      exact if_neg fun hboth => absurd hboth.1 (by decide)
    have hstart : (0 : UInt64).toNat ≤ first.timestamp.toNat := Nat.zero_le _
    have hfrom := keepsPace_from hraw hzero hstart h hrest
    rw [trace_cons, hfirst, List.flatten_cons, List.singleton_append, ← hfrom]
    refine and_congr_left' ⟨?_, fun hpace => ⟨_, hrs, hpace⟩⟩
    rintro ⟨rs', hrs', hpace⟩
    obtain rfl := Option.some.inj (hrs.symm.trans hrs')
    exact hpace

/-- A frame of H264 with an RTP timestamp. -/
def rtpFrame (timestamp : UInt64) : MediaFrame :=
  (MediaFrame.new "live/cam" 0 timestamp [0x00, 0x00, 0x00, 0x01, 0x65] true .h264).withClockRate
    VIDEO_RTP_CLOCK_RATE

theorem rtp_keepsPace_two : RtpStamped [rtpFrame 3000, rtpFrame 6000] ∧
    ((∃ rs, FlvPlayTimeline.new.mapAll [rtpFrame 3000, rtpFrame 6000] = some rs ∧
        KeepsPace [rtpFrame 3000, rtpFrame 6000] (rs.map fun r => r.1.videoMs)) ∧
      KeepsPace [rtpFrame 3000, rtpFrame 6000]
        (trace clockStep (0, 0) [rtpFrame 3000, rtpFrame 6000]).flatten) := by
  have hstamped : RtpStamped [rtpFrame 3000, rtpFrame 6000] := by
    refine ⟨List.forall_mem_cons.mpr
      ⟨⟨rfl, rfl, by decide⟩, List.forall_mem_singleton.mpr ⟨rfl, rfl, by decide⟩⟩, ?_⟩
    exact List.isChain_pair.mpr ⟨by decide, by decide⟩
  refine ⟨hstamped, (rtp_keepsPace_iff hstamped).mpr
    (.inr ⟨fun first hfirst => ?_, List.isChain_pair.mpr (by decide)⟩)⟩
  obtain rfl := Option.some.inj hfirst
  decide

/-- Three frames, 33 milliseconds each behind the other: the timestamp of the last one has wrapped.
-/
def wrappingFrames : List MediaFrame := [rtpFrame 4294962000, rtpFrame 4294965000, rtpFrame 704]

/-- At the wrap FLV moves by **one** millisecond, and HLS by **40**. -/
theorem not_keepsPace_wrap : RtpStamped wrappingFrames ∧
    ¬((∃ rs, FlvPlayTimeline.new.mapAll wrappingFrames = some rs ∧
        KeepsPace wrappingFrames (rs.map fun r => r.1.videoMs)) ∧
      KeepsPace wrappingFrames (trace clockStep (0, 0) wrappingFrames).flatten) := by
  have hflv : (FlvPlayTimeline.new.mapAll wrappingFrames).map (List.map fun r => r.1.videoMs) =
      some [0, 33, 34] := by decide
  have hhls : (trace clockStep (0, 0) wrappingFrames).flatten = [0, 33, 73] := by decide
  constructor
  · refine ⟨?_, ?_⟩
    · simp only [wrappingFrames, List.forall_mem_cons, List.not_mem_nil, false_implies,
        implies_true, and_true]
      exact ⟨⟨rfl, rfl, by decide⟩, ⟨rfl, rfl, by decide⟩, ⟨rfl, rfl, by decide⟩⟩
    · exact List.isChain_cons_cons.mpr
        ⟨⟨by decide, by decide⟩, List.isChain_pair.mpr ⟨by decide, by decide⟩⟩
  · rintro ⟨⟨rs, hrs, hpace⟩, -⟩
    rw [hrs] at hflv
    rw [Option.some.inj hflv] at hpace
    exact absurd (List.isChain_pair.mp (List.isChain_cons_cons.mp hpace).2) (by decide)

end VcpMediaServer
