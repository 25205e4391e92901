import VcpMediaServer.HlsVideoTime

/-!
# The time of audio

A frame of AAC is moved on by its timestamp, or **placed at the time of video** where the timestamp
has risen by less than a millisecond or by two seconds; and it is kept in a window around the time
of video. It is always in the window, but where it was ahead of video and is placed anew, it goes
back.

* `Reanchors` — the frames that are placed anew.
* `le_muxTimestampMs_aac_iff` — the frames that do not go back.
* `audio_run_iff` — the same of a run.
-/

namespace VcpMediaServer

open Lts Mealy

theorem toNat_max_uint64 (a b : UInt64) : (max a b).toNat = max a.toNat b.toNat := by
  change (if a ≤ b then b else a).toNat = _
  split
  · next h => exact (Nat.max_eq_right (UInt64.le_iff_toNat_le.mp h)).symm
  · next h =>
      exact (Nat.max_eq_left (Nat.le_of_not_le fun hle => h (UInt64.le_iff_toNat_le.mpr hle))).symm

theorem toNat_min_uint64 (a b : UInt64) : (min a b).toNat = min a.toNat b.toNat := by
  change (if a ≤ b then a else b).toNat = _
  split
  · next h => exact (Nat.min_eq_left (UInt64.le_iff_toNat_le.mp h)).symm
  · next h =>
      exact (Nat.min_eq_right (Nat.le_of_not_le fun hle => h (UInt64.le_iff_toNat_le.mpr hle))).symm

namespace MuxTimeline

variable {t : MuxTimeline} {frame : MediaFrame}

/-- The frame is behind another one, and is placed at the time of video. -/
def Reanchors (t : MuxTimeline) (frame : MediaFrame) : Prop :=
  match t.sessionLastRawAudio with
  | some lastRaw =>
    let delta := mediaTimestampDeltaMsWithClock lastRaw frame.timestamp frame.clockRate
    lastRaw < frame.timestamp ∧ ¬ (0 < delta ∧ delta < 2000)
  | none => False

/-- A frame of AAC. -/
theorem muxTimestampMs_aac (haac : frame.codec = .aac) :
    let ms := max (saturatingSub t.sessionVideoMuxMs 200)
      (min (t.audioPts frame) (saturatingAdd t.sessionVideoMuxMs 100))
    t.muxTimestampMs frame =
      ({ t with sessionLastRawAudio := some frame.timestamp, sessionAudioMuxMs := ms }, ms) := by
  rw [muxTimestampMs, haac]

/-- The time that it would have, brought into the window. -/
theorem toNat_muxTimestampMs_aac (haac : frame.codec = .aac) : (t.muxTimestampMs frame).2.toNat =
    max (t.sessionVideoMuxMs.toNat - 200)
      (min (t.audioPts frame).toNat (min (t.sessionVideoMuxMs.toNat + 100) (2 ^ 64 - 1))) := by
  rw [muxTimestampMs_aac haac, toNat_max_uint64, toNat_min_uint64, toNat_saturatingSub,
    toNat_saturatingAdd]

/-- It is muxed in the window. -/
theorem window_aac (haac : frame.codec = .aac) :
    t.sessionVideoMuxMs.toNat - 200 ≤ (t.muxTimestampMs frame).2.toNat ∧
      (t.muxTimestampMs frame).2.toNat ≤ t.sessionVideoMuxMs.toNat + 100 := by
  have hlt := t.sessionVideoMuxMs.toNat_lt
  rw [toNat_muxTimestampMs_aac haac]
  omega

/-- Audio that has not begun is at zero, and it is not too far ahead of video. -/
structure Placed (t : MuxTimeline) : Prop where
  zero : t.sessionLastRawAudio = none → t.sessionAudioMuxMs = 0
  ahead : t.sessionAudioMuxMs.toNat ≤ t.sessionVideoMuxMs.toNat + 100

/-- A frame that is not placed anew does not go back by its timestamp, and one that is, is at the
time of video. -/
theorem audioPts_cases (h : Placed t) (frame : MediaFrame) :
    ¬ t.Reanchors frame ∧ t.sessionAudioMuxMs ≤ t.audioPts frame ∨
      t.Reanchors frame ∧ t.audioPts frame = t.sessionVideoMuxMs := by
  rw [Reanchors, audioPts]
  cases hraw : t.sessionLastRawAudio with
  | none =>
    refine .inl ⟨id, ?_⟩
    rw [h.zero hraw, UInt64.le_iff_toNat_le]
    exact Nat.zero_le _
  | some lastRaw =>
    dsimp only
    by_cases hrises : lastRaw < frame.timestamp
    · rw [if_pos hrises]
      split
      · next hdelta => exact .inl ⟨fun hanew => hanew.2 hdelta, le_saturatingAdd _ _⟩
      · next hdelta => exact .inr ⟨⟨hrises, hdelta⟩, rfl⟩
    · rw [if_neg hrises]
      exact .inl ⟨fun hanew => hrises hanew.1, UInt64.le_refl _⟩

/-- A frame of AAC does not go back exactly if it is not placed anew while audio is ahead. -/
theorem le_muxTimestampMs_aac_iff (h : Placed t) (haac : frame.codec = .aac) :
    t.sessionAudioMuxMs ≤ (t.muxTimestampMs frame).2 ↔
      (t.Reanchors frame → t.sessionAudioMuxMs ≤ t.sessionVideoMuxMs) := by
  have hahead := h.ahead
  have haudio := t.sessionAudioMuxMs.toNat_lt
  have hvideo := t.sessionVideoMuxMs.toNat_lt
  rw [UInt64.le_iff_toNat_le, toNat_muxTimestampMs_aac haac, UInt64.le_iff_toNat_le]
  rcases audioPts_cases h frame with ⟨hnot, hle⟩ | ⟨hanew, hpts⟩
  · rw [UInt64.le_iff_toNat_le] at hle
    refine iff_of_true ?_ fun hanew => absurd hanew hnot
    omega
  · rw [hpts, forall_prop_of_true hanew]
    omega

/-- Other frames leave audio. -/
theorem audio_of_ne_aac (haac : frame.codec ≠ .aac) :
    (t.muxTimestampMs frame).1.sessionAudioMuxMs = t.sessionAudioMuxMs ∧
      (t.muxTimestampMs frame).1.sessionLastRawAudio = t.sessionLastRawAudio := by
  rw [muxTimestampMs]
  cases hcodec : frame.codec with
  | aac => exact absurd hcodec haac
  | _ => exact ⟨rfl, rfl⟩

theorem Placed.muxTimestampMs (h : Placed t) (frame : MediaFrame) :
    Placed (t.muxTimestampMs frame).1 := by
  by_cases haac : frame.codec = .aac
  · have hwindow := (window_aac (t := t) haac).2
    rw [muxTimestampMs_aac haac] at hwindow ⊢
    exact ⟨fun hnone => absurd hnone (Option.some_ne_none _), hwindow⟩
  · obtain ⟨haudio, hraw⟩ := audio_of_ne_aac (t := t) haac
    have hvideo := UInt64.le_iff_toNat_le.mp (t.le_muxTimestampMs frame)
    refine ⟨?_, ?_⟩
    · rw [haudio, hraw]
      exact h.zero
    · rw [haudio]
      exact Nat.le_trans h.ahead (Nat.add_le_add_right hvideo 100)

end MuxTimeline

/-! ## Sessions -/

namespace HlsSession

variable {F : Type} [F64 F] {s : HlsSession F}

/-- The time at which a call muxes a frame of AAC, beside the time of video. -/
def audioTimes (s : HlsSession F) : HlsCall F → List (UInt64 × UInt64)
  | .onFrame _ frame =>
    if s.accepts frame && decide (frame.codec = .aac) then
      [(((s.ready frame).prepareFrameForMux frame).2.timestamp, s.sessionVideoMuxMs)]
    else []
  | _ => []

/-- A call, and the time of its frame of AAC. -/
def audioCall (s : HlsSession F) (c : HlsCall F) : HlsSession F × List (UInt64 × UInt64) :=
  ((s.call c).1, s.audioTimes c)

/-- A call does not place a frame of AAC anew while audio is ahead of video. -/
def AnchorsForward (s : HlsSession F) : HlsCall F → Prop
  | .onFrame _ frame => s.accepts frame → frame.codec = .aac → s.Reanchors frame →
      s.sessionAudioMuxMs ≤ s.sessionVideoMuxMs
  | _ => True

theorem audioTimes_of_aac {frame : MediaFrame} (haccepts : s.accepts frame)
    (haac : frame.codec = .aac) (now : ℤ) :
    s.audioTimes (.onFrame now frame) =
        [((s.toMuxTimeline.muxTimestampMs frame).2, s.sessionVideoMuxMs)] := by
  rw [audioTimes, haccepts, haac, ← timeline_ready s frame]
  rfl

/-- Every frame of AAC is muxed in the window. -/
theorem window_audioTimes (s : HlsSession F) (c : HlsCall F) :
    ∀ p ∈ s.audioTimes c, p.2.toNat - 200 ≤ p.1.toNat ∧ p.1.toNat ≤ p.2.toNat + 100 := by
  cases c with
  | onFrame now frame =>
    by_cases hmuxed : s.accepts frame ∧ frame.codec = .aac
    · rw [audioTimes_of_aac hmuxed.1 hmuxed.2]
      exact List.forall_mem_singleton.mpr (MuxTimeline.window_aac hmuxed.2)
    · have hnone : s.audioTimes (.onFrame now frame) = [] := by
        rw [audioTimes]
        exact if_neg (by simpa using hmuxed)
      rw [hnone]
      exact List.forall_mem_nil _
  | _ => exact List.forall_mem_nil _

/-- A call gives no time and leaves audio, or it gives the next time of audio: one that is not
before the last exactly if it does not place the frame anew while audio is ahead. -/
theorem audioTimes_cases (h : s.Placed) (c : HlsCall F) : (s.call c).1.Placed ∧
    (s.audioTimes c = [] ∧ (s.call c).1.sessionAudioMuxMs = s.sessionAudioMuxMs ∧
      s.AnchorsForward c ∨
      ∃ ms, s.audioTimes c = [(ms, s.sessionVideoMuxMs)] ∧ (s.call c).1.sessionAudioMuxMs = ms ∧
        (s.sessionAudioMuxMs ≤ ms ↔ s.AnchorsForward c)) := by
  cases c with
  | addSegment => exact ⟨⟨h.zero, h.ahead⟩, .inl ⟨rfl, rfl, trivial⟩⟩
  | recoverFromLag => exact ⟨⟨h.zero, h.ahead⟩, .inl ⟨rfl, rfl, trivial⟩⟩
  | onFrame now frame =>
    rw [call]
    dsimp only
    by_cases haccepts : s.accepts frame
    · obtain ⟨htimeline, -⟩ := timeline_onFrame haccepts now
      rw [htimeline]
      refine ⟨h.muxTimestampMs frame, ?_⟩
      by_cases haac : frame.codec = .aac
      · refine .inr ⟨_, audioTimes_of_aac haccepts haac now, ?_, ?_⟩
        · rw [MuxTimeline.muxTimestampMs_aac haac]
        · rw [MuxTimeline.le_muxTimestampMs_aac_iff h haac, AnchorsForward,
            forall_prop_of_true haccepts, forall_prop_of_true haac]
      · have hnone : s.audioTimes (.onFrame now frame) = [] := by simp [audioTimes, haac]
        exact .inl ⟨hnone, (MuxTimeline.audio_of_ne_aac haac).1, fun _ h => absurd h haac⟩
    · obtain ⟨n, hcall⟩ := onFrame_of_not_accepts haccepts now
      have hnone : s.audioTimes (.onFrame now frame) = [] := by simp [audioTimes, haccepts]
      rw [hcall]
      exact ⟨⟨h.zero, h.ahead⟩, .inl ⟨hnone, rfl, fun h => absurd h haccepts⟩⟩

/-- The times of a run do not go back behind that of audio exactly if the frames are placed forward.
-/
theorem isChain_audioTimes (h : s.Placed) (calls : List (HlsCall F)) :
    (s.sessionAudioMuxMs :: (trace audioCall s calls).flatten.map Prod.fst).IsChain (· ≤ ·) ↔
      Always (fun s c => some (call s c).1) AnchorsForward s calls := by
  induction calls generalizing s with
  | nil => simp
  | cons c calls ih =>
    obtain ⟨hplaced, hcases⟩ := audioTimes_cases h c
    have hrest := ih hplaced
    rw [trace_cons, List.flatten_cons, List.map_append, always_cons]
    simp only [Option.some.injEq, forall_eq']
    rcases hcases with ⟨hnone, hsame, hforward⟩ | ⟨ms, htime, hnext, hforward⟩
    · rw [hsame] at hrest
      have htimes : (s.audioCall c).2 = [] := hnone
      rw [htimes, List.map_nil, List.nil_append, and_iff_right hforward]
      exact hrest
    · rw [hnext] at hrest
      have htimes : (s.audioCall c).2 = [(ms, s.sessionVideoMuxMs)] := htime
      rw [htimes, List.map_singleton, List.singleton_append, List.isChain_cons_cons, hforward]
      exact and_congr_right fun _ => hrest

end HlsSession

/-- In every run the times of audio are in the window around the time of video, and they do not go
back, **exactly if** no frame is placed anew while audio is ahead. -/
theorem audio_run_iff {F : Type} [F64 F] (streamId : StreamId) (segmentDuration : F)
    (maxSegments : ℕ) (calls : List (HlsCall F)) :
    let times :=
      (trace HlsSession.audioCall (.new streamId segmentDuration maxSegments) calls).flatten
    ((times.map Prod.fst).IsChain (· ≤ ·) ∧
        ∀ p ∈ times, p.2.toNat - 200 ≤ p.1.toNat ∧ p.1.toNat ≤ p.2.toNat + 100) ↔
      Always (fun s c => some (HlsSession.call s c).1) HlsSession.AnchorsForward
        (.new streamId segmentDuration maxSegments) calls := by
  intro times
  have hnew : (HlsSession.new streamId segmentDuration maxSegments).Placed :=
    ⟨fun _ => rfl, Nat.zero_le _⟩
  have hzero : ∀ l : List UInt64, (0 :: l).IsChain (· ≤ ·) ↔ l.IsChain (· ≤ ·) := by
    intro l
    cases l with
    | nil => simp
    | cons ms l =>
      rw [List.isChain_cons_cons]
      exact and_iff_right (UInt64.le_iff_toNat_le.mpr (Nat.zero_le _))
  rw [← HlsSession.isChain_audioTimes hnew calls,
    and_iff_left (forall_trace HlsSession.window_audioTimes _ _)]
  exact (hzero _).symm

/-- A frame of AAC at a clock rate of 44100. -/
def aacAt (timestamp : UInt64) : HlsCall ℚ :=
  .onFrame 0
    ((MediaFrame.new "live/cam" 1 timestamp [0x21, 0x10, 0x04, 0x60, 0x8C, 0x1C, 0x00, 0x00]
    false .aac)
    |>.withClockRate 44100)

/-- A key frame, and audio: 90 milliseconds, **one tick**, 90 milliseconds, and a gap of two
seconds. -/
def audioAhead : List (HlsCall ℚ) :=
  [.onFrame 0 (.new "live/cam" 0 1000 [0x00, 0x00, 0x00, 0x01, 0x65, 0x88] true .h264),
    aacAt 44100, aacAt 48069, aacAt 48070, aacAt 52039, aacAt 140239]

/-- Audio goes back behind the tick, and behind the gap. -/
theorem audio_goesBack :
    (trace HlsSession.audioCall (.new "live/cam" 2 6) audioAhead).flatten.map Prod.fst =
      [0, 90, 0, 90, 0] ∧
      ¬((trace HlsSession.audioCall (.new "live/cam" 2 6) audioAhead).flatten.map Prod.fst).IsChain
          (· ≤ ·) := by
  have htimes : (trace HlsSession.audioCall (.new "live/cam" 2 6) audioAhead).flatten.map Prod.fst =
      [0, 90, 0, 90, 0] := by decide +kernel
  refine ⟨htimes, ?_⟩
  rw [htimes]
  decide

end VcpMediaServer
