import VcpMediaServer.HlsTiming

/-!
# The playlist

`hls/m3u8.rs`: a window of the last segments with their sequence numbers. A segment is in the
playlist once its file is written; its number is the one that was next **when it was closed**.

* `M3u8Generator.addSegment` — a segment at the end, and none more than the window holds.
* `M3u8Generator.generate` — the text, which **always** declares that segments are independent.
-/

namespace VcpMediaServer

/-- `Segment`. -/
structure Segment (F : Type) where
  /-- The sequence number. -/
  sequence : ℕ
  /-- The duration in seconds. -/
  duration : F
  /-- The name of its file. -/
  filename : String
  /-- When its media starts. -/
  programDateTime : ℤ
  /-- The timeline breaks in front of it. -/
  discontinuity : Bool

/-- `M3u8Generator`. -/
structure M3u8Generator (F : Type) where
  /-- The duration that segments should have. -/
  targetDuration : F
  /-- The segments that the window holds. -/
  maxSegments : ℕ
  /-- The number of the first segment of the window. -/
  mediaSequence : ℕ
  /-- The window. -/
  segments : List (Segment F)
  /-- The number of the next segment. -/
  nextSequence : ℕ
  /-- The discontinuities in front of the window. -/
  discontinuitySequence : ℕ
  /-- The stream has ended. -/
  ended : Bool

namespace M3u8Generator

variable {F : Type}

/-- `M3u8Generator::new`. -/
def new (targetDuration : F) (maxSegments : ℕ) : M3u8Generator F :=
  { targetDuration, maxSegments := max maxSegments 1, mediaSequence := 0, segments := [],
    nextSequence := 0, discontinuitySequence := 0, ended := false }

/-- `M3u8Generator::segment_filename`. -/
def segmentFilename (sequence : ℕ) : String := "segment_" ++ toString sequence ++ ".ts"

/-- The loop of `add_segment`: segments leave the window at its front. -/
def shrink (maxSegments : ℕ) : List (Segment F) → ℕ → ℕ → List (Segment F) × ℕ × ℕ
  | [], mediaSequence, discontinuitySequence => ([], mediaSequence, discontinuitySequence)
  | removed :: segments, mediaSequence, discontinuitySequence =>
    if maxSegments < (removed :: segments).length then
      shrink maxSegments segments (mediaSequence + 1)
        (if removed.discontinuity then discontinuitySequence + 1 else discontinuitySequence)
    else (removed :: segments, mediaSequence, discontinuitySequence)

/-- `M3u8Generator::add_segment`. -/
def addSegment (playlist : M3u8Generator F) (duration : F) (sequence : ℕ) (programDateTime : ℤ)
    (discontinuity : Bool) : M3u8Generator F :=
  let segment :=
    { sequence, duration, filename := segmentFilename sequence, programDateTime, discontinuity }
  let (segments, mediaSequence, discontinuitySequence) := shrink playlist.maxSegments
    (playlist.segments ++ [segment]) playlist.mediaSequence playlist.discontinuitySequence
  { playlist with segments, mediaSequence, discontinuitySequence, nextSequence := sequence + 1 }

/-- `M3u8Generator::segment_count`. -/
def segmentCount (playlist : M3u8Generator F) : ℕ := playlist.segments.length

/-- How the text writes numbers and times. -/
structure PlaylistFormat (F : Type) where
  /-- `observed.ceil().max(1.0) as u64`. -/
  ceil : F → ℕ
  /-- `format!("{:.3}", duration)`. -/
  duration : F → String
  /-- `format_program_date_time`. -/
  programDateTime : ℤ → String

/-- `M3u8Generator::playlist_target_duration`. -/
def playlistTargetDuration [F64 F] (playlist : M3u8Generator F) (format : PlaylistFormat F) : ℕ :=
  format.ceil ((playlist.segments.map Segment.duration).foldl max playlist.targetDuration)

/-- The lines of a segment. -/
def segmentText (format : PlaylistFormat F) (segment : Segment F) : String :=
  (if segment.discontinuity then "#EXT-X-DISCONTINUITY\r\n" else "") ++
    ("#EXT-X-PROGRAM-DATE-TIME:" ++ format.programDateTime segment.programDateTime ++ "\r\n" ++
      "#EXTINF:" ++ format.duration segment.duration ++ ",\r\n" ++ segment.filename ++ "\r\n")

/-- `M3u8Generator::generate`. -/
def generate [F64 F] (playlist : M3u8Generator F) (format : PlaylistFormat F) : String :=
  "#EXTM3U\r\n" ++ ("#EXT-X-VERSION:3\r\n" ++ ("#EXT-X-INDEPENDENT-SEGMENTS\r\n" ++
    ("#EXT-X-TARGETDURATION:" ++ toString (playlist.playlistTargetDuration format) ++ "\r\n" ++
      "#EXT-X-MEDIA-SEQUENCE:" ++ toString playlist.mediaSequence ++ "\r\n" ++
      (if 0 < playlist.discontinuitySequence then
        "#EXT-X-DISCONTINUITY-SEQUENCE:" ++ toString playlist.discontinuitySequence ++ "\r\n"
          else "") ++
      String.join (playlist.segments.map (segmentText format)) ++
      if playlist.ended then "#EXT-X-ENDLIST\r\n" else "")))

/-- Every playlist **declares** that its segments are independent. -/
theorem generate_declares [F64 F] (playlist : M3u8Generator F) (format : PlaylistFormat F) :
    ∃ rest, playlist.generate format =
      "#EXTM3U\r\n#EXT-X-VERSION:3\r\n#EXT-X-INDEPENDENT-SEGMENTS\r\n" ++ rest := by
  rw [generate, ← String.append_assoc, ← String.append_assoc]
  exact ⟨_, rfl⟩

/-- What leaves the window is counted. -/
theorem shrink_eq (limit : ℕ) (segments : List (Segment F))
    (mediaSequence discontinuitySequence : ℕ) :
    let n := segments.length - limit
    shrink limit segments mediaSequence discontinuitySequence =
      (segments.drop n, mediaSequence + n,
        discontinuitySequence + (segments.take n).countP Segment.discontinuity) := by
  induction segments generalizing mediaSequence discontinuitySequence with
  | nil => simp [shrink]
  | cons removed segments ih =>
    rw [shrink]
    split
    · next hlong =>
      rw [List.length_cons] at hlong ⊢
      have hcount : segments.length + 1 - limit = (segments.length - limit) + 1 := by omega
      rw [ih, hcount]
      dsimp only
      rw [List.drop_succ_cons, List.take_succ_cons, List.countP_cons]
      cases removed.discontinuity with
      | false =>
        simp only [Bool.false_eq_true, if_false, Nat.add_assoc, Nat.add_zero, Nat.add_comm 1]
      | true => simp only [if_true, Nat.add_assoc, Nat.add_comm 1]
    · next hshort =>
      rw [Nat.sub_eq_zero_of_le (Nat.not_lt.mp hshort)]
      rfl

end M3u8Generator

end VcpMediaServer
