import VcpMediaServer.Sdp

/-!
# The track parsers of SDP

`RtspCommon` reads the tracks of a description twice: `parse_sdp_tracks` by two nested loops over
the lines, and `parse_sdp_with_sps_pps` on its way to the parameter sets.

* `parseSdpTracks` — the nested loops: the inner one leaves the line that ends it to the outer one.
* `parseSdpTracks_eq` — both find **the same tracks** in every text.
-/

namespace VcpMediaServer

/-! ## The nested loops -/

/-- The inner loop, on the lines behind `m=`: the codec and the clock rate of the media, and the
lines from where it breaks. -/
def mediaLoop (codec : CodecType) (clockRate : UInt32) :
    List (List Char) → (CodecType × UInt32) × List (List Char)
  | [] => ((codec, clockRate), [])
  | next :: rest =>
    if "a=rtpmap:".toList.isPrefixOf next then
      match rtpmap next with
      | some (codec, clockRate) => mediaLoop codec clockRate rest
      | none => mediaLoop codec clockRate rest
    else if "m=".toList.isPrefixOf next || "s=".toList.isPrefixOf next then
      ((codec, clockRate), next :: rest)
    else mediaLoop codec clockRate rest

/-- The outer loop. Each turn takes a line, so the number of lines is fuel enough. -/
def tracksLoop : ℕ → List Track → List (List Char) → List Track
  | 0, tracks, _ => tracks
  | _ + 1, tracks, [] => tracks
  | fuel + 1, tracks, line :: rest =>
    if "m=".toList.isPrefixOf line then
      match (Text.splitWhitespace line)[3]? with
      | none => tracksLoop fuel tracks rest
      | some part =>
        let payloadType := ((Text.parseUnsigned 256 part).map UInt8.ofNat).getD 96
        let ((codec, clockRate), rest) := mediaLoop .h264 90000 rest
        tracksLoop fuel
          (tracks ++ [{ id := UInt8.ofNat tracks.length, codec, payloadType, clockRate }]) rest
    else tracksLoop fuel tracks rest

/-- `RtspCommon::parse_sdp_tracks`. -/
def parseSdpTracks (sdp : List Char) : List Track :=
  let lines := Text.lines sdp
  tracksLoop lines.length [] lines

/-- The inner loop takes lines off the front, or none. -/
theorem mediaLoop_length (codec : CodecType) (clockRate : UInt32) (lines : List (List Char)) :
    (mediaLoop codec clockRate lines).2.length ≤ lines.length := by
  induction lines generalizing codec clockRate with
  | nil => exact Nat.le_refl 0
  | cons next rest ih =>
    rw [mediaLoop]
    split
    · split
      · exact (ih _ _).trans (Nat.le_succ _)
      · exact (ih _ _).trans (Nat.le_succ _)
    · split
      · exact Nat.le_refl _
      · exact (ih _ _).trans (Nat.le_succ _)

/-- More turns than there are lines do not matter. -/
theorem tracksLoop_of_le {n m : ℕ} (tracks : List Track) (lines : List (List Char))
    (hn : lines.length ≤ n) (hm : lines.length ≤ m) :
    tracksLoop n tracks lines = tracksLoop m tracks lines := by
  induction n generalizing m tracks lines with
  | zero =>
    obtain rfl := List.length_eq_zero_iff.mp (Nat.le_zero.mp hn)
    cases m <;> rfl
  | succ n ih =>
    cases lines with
    | nil => cases m <;> rfl
    | cons line rest =>
      obtain ⟨m, rfl⟩ : ∃ k, m = k + 1 := ⟨m - 1, by simp at hm; omega⟩
      have hn' : rest.length ≤ n := Nat.le_of_succ_le_succ hn
      have hm' : rest.length ≤ m := Nat.le_of_succ_le_succ hm
      have hmedia := mediaLoop_length .h264 90000 rest
      rw [tracksLoop, tracksLoop]
      split
      · split
        · exact ih _ _ hn' hm'
        · exact ih _ _ (hmedia.trans hn') (hmedia.trans hm')
      · exact ih _ _ hn' hm'

/-! ## The scan -/

/-- A line of parameters begins no media, and ends none. -/
theorem not_isPrefixOf_of_fmtp {line : List Char} (h : "a=fmtp:".toList.isPrefixOf line = true) :
    ¬ "m=".toList.isPrefixOf line = true ∧ ¬ "s=".toList.isPrefixOf line = true := by
  obtain ⟨rest, rfl⟩ := List.isPrefixOf_iff_prefix.mp h
  exact ⟨Bool.false_ne_true, Bool.false_ne_true⟩

/-- The tracks that are found from a place on: outside of a media by the outer loop, inside of one
by the inner loop first. -/
def tracksFrom (s : SdpScan) (lines : List (List Char)) : List Track :=
  match s.media with
  | none => tracksLoop lines.length s.tracks lines
  | some (payloadType, codec, clockRate) =>
    let ((codec, clockRate), rest) := mediaLoop codec clockRate lines
    tracksLoop rest.length
      (s.tracks ++ [{ id := UInt8.ofNat s.tracks.length, codec, payloadType, clockRate }]) rest

/-- At the end the media is closed. -/
theorem tracksFrom_nil (s : SdpScan) : tracksFrom s [] = s.close.tracks := by
  obtain ⟨tracks, sets, _ | ⟨payloadType, codec, clockRate⟩⟩ := s <;> rfl

/-- A line of the outer loop. -/
theorem tracksFrom_outer (b64 : Base64Engine) {s : SdpScan} (h : s.media = none) (line : List Char)
    (rest : List (List Char)) : tracksFrom s (line :: rest) =
        tracksFrom (s.outer b64 line) rest := by
  obtain ⟨tracks, sets, media⟩ := s
  obtain rfl : media = none := h
  change tracksLoop (rest.length + 1) tracks (line :: rest) = _
  rw [SdpScan.outer, tracksLoop]
  by_cases hfmtp : "a=fmtp:".toList.isPrefixOf line = true
  · rw [if_pos hfmtp, if_neg (not_isPrefixOf_of_fmtp hfmtp).1]
    rfl
  · rw [if_neg hfmtp]
    split
    · rcases (Text.splitWhitespace line)[3]? with _ | part
      · rfl
      · exact tracksLoop_of_le _ _ (mediaLoop_length _ _ _) (Nat.le_refl _)
    · rfl

/-- A line of the inner loop: the one that breaks it is the next line of the outer loop. -/
theorem tracksFrom_inner (b64 : Base64Engine) {s : SdpScan} {media : UInt8 × CodecType × UInt32}
    (h : s.media = some media) (line : List Char) (rest : List (List Char)) :
    tracksFrom s (line :: rest) = tracksFrom (s.inner b64 media line) rest := by
  obtain ⟨tracks, sets, _⟩ := s
  obtain rfl := h
  obtain ⟨payloadType, codec, clockRate⟩ := media
  by_cases hmap : "a=rtpmap:".toList.isPrefixOf line = true
  · rw [SdpScan.inner, if_pos hmap, tracksFrom]
    dsimp only
    rw [mediaLoop, if_pos hmap]
    rcases rtpmap line with _ | ⟨codec', clockRate'⟩ <;> rfl
  by_cases hend : ("m=".toList.isPrefixOf line || "s=".toList.isPrefixOf line) = true
  · have hfmtp : ¬ ("a=fmtp:".toList.isPrefixOf line && sets.1.isNone) = true := by
      intro hfmtp
      obtain ⟨hm, hs⟩ := not_isPrefixOf_of_fmtp (Bool.and_eq_true_iff.mp hfmtp).1
      rcases Bool.or_eq_true_iff.mp hend with h | h
      · exact hm h
      · exact hs h
    rw [SdpScan.inner, if_neg hmap, if_neg hfmtp, if_pos hend, ← tracksFrom_outer b64 rfl,
      tracksFrom]
    dsimp only
    rw [mediaLoop, if_neg hmap, if_pos hend]
    rfl
  · -- a line that says nothing of the tracks
    rw [SdpScan.inner, if_neg hmap, if_neg hend, tracksFrom]
    dsimp only
    rw [mediaLoop, if_neg hmap, if_neg hend]
    split <;> rfl

/-- A line takes the scan where it takes the loops. -/
theorem tracksFrom_step (b64 : Base64Engine) (s : SdpScan) (line : List Char)
    (rest : List (List Char)) :
    tracksFrom s (line :: rest) = tracksFrom (s.step b64 line) rest := by
  rw [SdpScan.step]
  split
  · next h => exact tracksFrom_outer b64 h line rest
  · next media h => exact tracksFrom_inner b64 h line rest

theorem tracksFrom_foldl (b64 : Base64Engine) (s : SdpScan) (lines : List (List Char)) :
    tracksFrom s lines = (lines.foldl (SdpScan.step b64) s).close.tracks := by
  induction lines generalizing s with
  | nil => exact tracksFrom_nil s
  | cons line rest ih => rw [tracksFrom_step b64, ih, List.foldl_cons]

/-- In every text, the two parsers find **the same tracks**: their ids, codecs, payload types and
clock rates. -/
theorem parseSdpTracks_eq (b64 : Base64Engine) (sdp : List Char) :
    parseSdpTracks sdp = (parseSdpWithSpsPps b64 sdp).1 :=
  tracksFrom_foldl b64 { tracks := [], sets := (none, none), media := none } (Text.lines sdp)

end VcpMediaServer
