import VcpMediaServer.IngestedFrames

/-!
# Later, and further away

Whether a later timestamp is further away in milliseconds. At a rate it is. Where nothing says what
the ticks are, a delta is read as milliseconds or as ticks of 90 kHz by its size and by what it is a
multiple of: a **later** timestamp may be read in the finer unit.

* `ReadAsTicks` — how a delta is read.
* `mediaTimestampDeltaMsWithClock_le_iff` — exactly when it is not nearer.
* `Ingested.mediaFrameTimestampDeltaMs_mono` — what the ingests publish has a rate.
-/

namespace VcpMediaServer

/-- A delta without a rate is read as ticks of 90 kHz. -/
def ReadAsTicks (delta : ℕ) : Prop := 2000 < delta ∨ looksLikeRtpVideoDelta delta = true

instance (delta : ℕ) : Decidable (ReadAsTicks delta) := inferInstanceAs (Decidable (_ ∨ _))

/-- A delta without a rate, in milliseconds. -/
def guessedMs (delta : ℕ) : ℕ := if ReadAsTicks delta then delta / VIDEO_RTP_TICKS_PER_MS else delta

variable {prev a b curr : UInt64}

theorem mediaTimestampDeltaMsWithClock_none :
    mediaTimestampDeltaMsWithClock prev curr none = guessedMs (curr.toNat - prev.toNat) := by
  have hticks :
      (2000 < curr.toNat - prev.toNat || looksLikeRtpVideoDelta (curr.toNat - prev.toNat)) = true ↔
        ReadAsTicks (curr.toNat - prev.toNat) := by
    rw [Bool.or_eq_true, decide_eq_true_iff]
    rfl
  rw [mediaTimestampDeltaMsWithClock]
  split
  · next hle =>
    rw [Nat.sub_eq_zero_of_le (UInt64.le_iff_toNat_le.mp hle)]
    rfl
  · rw [guessedMs]
    dsimp only
    simp only [hticks]

/-- At a rate, later timestamps are further away. -/
theorem mediaTimestampDeltaMsWithClock_mono (h : a ≤ b) (rate : UInt32) :
    mediaTimestampDeltaMsWithClock prev a (some rate) ≤
        mediaTimestampDeltaMsWithClock prev b (some rate) := by
  rw [mediaTimestampDeltaMsWithClock, mediaTimestampDeltaMsWithClock]
  by_cases ha : a ≤ prev
  · rw [if_pos ha]
    exact Nat.zero_le _
  · rw [if_neg ha, if_neg fun hb => ha (UInt64.le_trans h hb)]
    have hdelta : a.toNat - prev.toNat ≤ b.toNat - prev.toNat :=
      Nat.sub_le_sub_right (UInt64.le_iff_toNat_le.mp h) _
    dsimp only
    split
    · exact Nat.le_refl 0
    · split
      · exact hdelta
      · exact Nat.div_le_div_right (min_le_min_right _ (Nat.mul_le_mul_right _ hdelta))

/-- Of two deltas the longer one is less only if it alone is read as ticks, and they are fewer
milliseconds. -/
theorem guessedMs_le_iff {m n : ℕ} (h : m ≤ n) :
    guessedMs m ≤ guessedMs n ↔
        ¬(¬ReadAsTicks m ∧ ReadAsTicks n ∧ n / VIDEO_RTP_TICKS_PER_MS < m) := by
  have hdiv : m / VIDEO_RTP_TICKS_PER_MS ≤ n / VIDEO_RTP_TICKS_PER_MS := Nat.div_le_div_right h
  have hself : m / VIDEO_RTP_TICKS_PER_MS ≤ m := Nat.div_le_self _ _
  rw [guessedMs, guessedMs]
  by_cases hm : ReadAsTicks m
  · rw [if_pos hm]
    refine iff_of_true ?_ fun hnot => hnot.1 hm
    split
    · exact hdiv
    · exact hself.trans h
  · rw [if_neg hm]
    by_cases hn : ReadAsTicks n
    · rw [if_pos hn, ← Nat.not_lt]
      simp [hm, hn]
    · rw [if_neg hn]
      exact iff_of_true h fun hnot => hn hnot.2.1

/-- A later timestamp is not nearer, **unless** there is no rate, the delta to it is read as ticks,
the delta to the other one is not, and they are fewer milliseconds. -/
theorem mediaTimestampDeltaMsWithClock_le_iff (prev a b : UInt64) (clockRate : Option UInt32)
    (h : a ≤ b) :
    mediaTimestampDeltaMsWithClock prev a clockRate ≤
      mediaTimestampDeltaMsWithClock prev b clockRate ↔
      ¬(clockRate = none ∧ ¬ReadAsTicks (a.toNat - prev.toNat) ∧
        ReadAsTicks (b.toNat - prev.toNat) ∧
        (b.toNat - prev.toNat) / VIDEO_RTP_TICKS_PER_MS < a.toNat - prev.toNat) := by
  cases clockRate with
  | some rate =>
    exact iff_of_true (mediaTimestampDeltaMsWithClock_mono h rate) fun hnot => by cases hnot.1
  | none =>
    have hdelta : a.toNat - prev.toNat ≤ b.toNat - prev.toNat :=
      Nat.sub_le_sub_right (UInt64.le_iff_toNat_le.mp h) _
    rw [mediaTimestampDeltaMsWithClock_none, mediaTimestampDeltaMsWithClock_none,
      guessedMs_le_iff hdelta]
    simp

/-- Without a rate, 2000 ticks are two seconds, and 2001 are 22 milliseconds. -/
theorem not_mediaTimestampDeltaMsWithClock_mono :
    ¬ ∀ (prev : UInt64) (clockRate : Option UInt32) (a b : UInt64), a ≤ b →
      mediaTimestampDeltaMsWithClock prev a clockRate ≤
          mediaTimestampDeltaMsWithClock prev b clockRate := by
  intro h
  have hle := h 0 none 2000 2001 (by decide)
  revert hle
  decide

/-- From 2000 ticks to 180000. -/
theorem mediaTimestampDeltaMsWithClock_le_two_seconds :
    mediaTimestampDeltaMsWithClock 0 2000 none ≤ mediaTimestampDeltaMsWithClock 0 180000 none :=
  (mediaTimestampDeltaMsWithClock_le_iff 0 2000 180000 none (by decide)).mpr (by decide)

/-! ## What is published -/

/-- Every ingest says what its ticks are. -/
theorem Ingested.clockRate_isSome {frame : MediaFrame} (h : Ingested frame) :
    frame.clockRate.isSome := by
  cases h with
  | rtmpVideo h =>
    rw [clockRate_videoFrame h]
    rfl
  | rtmpPull h =>
    rw [RtmpPull.rtmpMessageToFrame] at h
    split_ifs at h
    · rw [clockRate_videoFrame h]
      rfl
    · rw [← Option.some.inj h]
      rfl
  | rtspAudio hrun hp h =>
    rw [clockRate_aacFrame h]
    rfl
  | rtspPullAudio h =>
    rw [clockRate_aacFrame h]
    rfl
  | rtmpAudio | rtspVideo | webrtcVideo | webrtcAudio => rfl

/-- Of two frames of one clock, the later one is not nearer. -/
theorem Ingested.mediaFrameTimestampDeltaMs_mono {f g : MediaFrame} (hf : Ingested f)
    (hclock : f.clockRate = g.clockRate) (h : f.timestamp ≤ g.timestamp) (prev : MediaFrame) :
    mediaFrameTimestampDeltaMs prev f ≤ mediaFrameTimestampDeltaMs prev g := by
  obtain ⟨rate, hrate⟩ := Option.isSome_iff_exists.mp hf.clockRate_isSome
  rw [mediaFrameTimestampDeltaMs, mediaFrameTimestampDeltaMs, ← hclock, hrate, Option.some_or]
  exact mediaTimestampDeltaMsWithClock_mono h rate

end VcpMediaServer
