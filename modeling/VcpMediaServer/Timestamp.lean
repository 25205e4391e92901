import Mathlib.Algebra.Ring.Nat
import VcpMediaServer.Media

/-!
# Media time

`timestamp.rs`: how far two timestamps are apart in milliseconds, where RTMP
counts milliseconds, RTP counts a 90 kHz clock, and a frame may or may not say
which.
-/

namespace VcpMediaServer

/-- `VIDEO_RTP_CLOCK_HZ`. -/
def VIDEO_RTP_CLOCK_HZ : ℕ := 90000

/-- `VIDEO_RTP_TICKS_PER_MS`. -/
def VIDEO_RTP_TICKS_PER_MS : ℕ := VIDEO_RTP_CLOCK_HZ / 1000

/-- `RTP_VIDEO_DELTA_MIN_TICKS`. -/
def RTP_VIDEO_DELTA_MIN_TICKS : ℕ := VIDEO_RTP_TICKS_PER_MS * 10

/-- `RTP_VIDEO_DELTA_MAX_TICKS`. -/
def RTP_VIDEO_DELTA_MAX_TICKS : ℕ := VIDEO_RTP_CLOCK_HZ

/-- `MILLISECOND_CLOCK_RATE`. -/
def MILLISECOND_CLOCK_RATE : UInt32 := 1000

/-- `VIDEO_RTP_CLOCK_RATE`. -/
def VIDEO_RTP_CLOCK_RATE : UInt32 := 90000

/-- `AAC_DEFAULT_CLOCK_RATE`. -/
def AAC_DEFAULT_CLOCK_RATE : UInt32 := 44100

/-- `looks_like_rtp_video_delta`. -/
def looksLikeRtpVideoDelta (delta : ℕ) : Bool :=
  decide (RTP_VIDEO_DELTA_MIN_TICKS ≤ delta ∧ delta ≤ RTP_VIDEO_DELTA_MAX_TICKS) &&
    (decide (delta % VIDEO_RTP_TICKS_PER_MS = 0) || [1501, 1502, 3003, 3753, 3754].contains delta)

/-- `media_timestamp_delta_ms_with_clock`. The product with 1000 saturates. -/
def mediaTimestampDeltaMsWithClock (prev curr : UInt64) (clockRate : Option UInt32) : ℕ :=
  if curr ≤ prev then 0
  else
    let delta := curr.toNat - prev.toNat
    match clockRate with
    | some rate =>
      if rate = 0 then 0
      else if rate = MILLISECOND_CLOCK_RATE then delta
      else min (delta * 1000) (2 ^ 64 - 1) / rate.toNat
    | none =>
      if 2000 < delta || looksLikeRtpVideoDelta delta then delta / VIDEO_RTP_TICKS_PER_MS
      else delta

/-- `media_frame_timestamp_delta_ms`. -/
def mediaFrameTimestampDeltaMs (prev curr : MediaFrame) : ℕ :=
  mediaTimestampDeltaMsWithClock prev.timestamp curr.timestamp (curr.clockRate.or prev.clockRate)

/-! ## Arithmetic of 64 bits -/

/-- `saturating_add` of 64 bits. -/
def saturatingAdd (a : UInt64) (n : ℕ) : UInt64 := UInt64.ofNat (min (a.toNat + n) (2 ^ 64 - 1))

/-- `saturating_sub` of 64 bits. -/
def saturatingSub (a : UInt64) (n : ℕ) : UInt64 := UInt64.ofNat (a.toNat - n)

theorem toNat_saturatingAdd (a : UInt64) (n : ℕ) :
    (saturatingAdd a n).toNat = min (a.toNat + n) (2 ^ 64 - 1) :=
  UInt64.toNat_ofNat_of_lt' (Nat.lt_of_le_of_lt (Nat.min_le_right _ _) (by decide))

theorem toNat_saturatingSub (a : UInt64) (n : ℕ) : (saturatingSub a n).toNat = a.toNat - n :=
  UInt64.toNat_ofNat_of_lt' (Nat.lt_of_le_of_lt (Nat.sub_le _ _) a.toNat_lt)

theorem le_saturatingAdd (a : UInt64) (n : ℕ) : a ≤ saturatingAdd a n := by
  have hlt := a.toNat_lt
  rw [UInt64.le_iff_toNat_le, toNat_saturatingAdd]
  omega

end VcpMediaServer
