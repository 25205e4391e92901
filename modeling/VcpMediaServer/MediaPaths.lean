import VcpMediaServer.M3u8
import VcpMediaServer.Paths
import VcpMediaServer.Text

/-!
# Media on disk

The paths that HLS (`hls/mod.rs`), the recorder (`record/mod.rs`), snapshots (`snapshot/mod.rs`) and
the detection of faces (`analysis/mod.rs`) make of a stream id. HLS joins the id to its directory
**as it is**; the others sanitise it in the name of a directory, but the recorder and snapshots put
it as it is into the names of files, and the detection of faces lets dots through.

* `Touches` — a path that is created, removed or served for an id and a requested file name.
* `contained_iff` — all of them lie inside the configured directories exactly where the texts do not
  lead out.
-/

namespace VcpMediaServer

open Paths

/-- The configured directories. -/
structure MediaDirs where
  /-- `HlsConfig::output_dir`. -/
  hls : Path
  /-- `RecordConfig::base_dir`. -/
  record : Path
  /-- `SnapshotConfig::base_dir`. -/
  snapshot : Path
  /-- `AnalysisConfig::face_detection_dir`. -/
  faces : Path

/-! ## HLS -/

/-- `HlsSession::new`: the directory that is removed with all that is in it, and created. -/
def hlsOutputDir (dirs : MediaDirs) (streamId : List Char) : Path := join dirs.hls streamId

/-- `get_segment_path`: a session and a server without one look at the same place. -/
def getSegmentPath (dirs : MediaDirs) (present : Path → Bool) (session : Option Path)
    (streamId filename : List Char) : Option Path :=
  let fallback :=
    let path := join (join dirs.hls streamId) filename
    if present path then some path else none
  match session with
  | some outputDir => if present (join outputDir filename) then some (join outputDir filename)
    else fallback
  | none => fallback

/-- The id and the file name of a request for a segment. -/
def hlsSegmentRequest (path : List Char) : Option (List Char × List Char) :=
  if "/hls/".toList.isPrefixOf path ∧ ".ts".toList.isSuffixOf path then
    match (Text.trimStartMatches "/hls/".toList path).splitOn '/' with
    | streamId :: filename :: _ => some (streamId, filename)
    | _ => none
  else none

/-! ## Sanitisers -/

/-- Letters, digits and what a sanitiser keeps besides them; other characters become underscores. -/
def sanitizeWith (keep : List Char) (input : List Char) : List Char :=
  input.map fun c => if c.isAlphanum || keep.contains c then c else '_'

/-- `sanitize_path_component` of the recorder and of snapshots. -/
def sanitizePathComponent (input : List Char) : List Char := sanitizeWith ['-', '_'] input

/-- `sanitize_path_component` of the analysis. -/
def sanitizeAnalysisComponent (value : List Char) : List Char :=
  let sanitized := sanitizeWith ['-', '_', '.'] value
  if sanitized = [] then "stream".toList else sanitized

/-! ## The recorder and snapshots -/

/-- A number with zeros in front of it. -/
def padded (width n : ℕ) : List Char :=
  List.replicate (width - (toString n).toList.length) '0' ++ (toString n).toList

/-- `date_dir_yyyymmdd`, with the year, the month and the day of a reading of the clock. -/
def dateDir (date : ℕ × ℕ × ℕ) : List Char :=
  padded 4 date.1 ++ padded 2 date.2.1 ++ padded 2 date.2.2

/-- The directory of a day. -/
def dayDir (base : Path) (streamId : List Char) (date : ℕ × ℕ × ℕ) : Path :=
  join (join base (sanitizePathComponent streamId)) (dateDir date)

/-- The id of a recording session that starts at the reading `now`. -/
def recordSessionId (streamId : List Char) (now : ℕ) : List Char :=
  "rec_".toList ++ streamId ++ "_".toList ++ (toString now).toList

/-- The id of a segment. -/
def recordSegmentId (sessionId : List Char) (startedAtMs : ℕ) : List Char :=
  sessionId ++ "_".toList ++ (toString startedAtMs).toList

/-- The name of the file of a segment; the only format is TS. -/
def recordFile (streamId : List Char) (session started : ℕ) : List Char :=
  recordSegmentId (recordSessionId streamId session) started ++ ".ts".toList

/-- The name of a snapshot that was submitted at `created`. -/
def snapshotFile (streamId : List Char) (created : ℕ) (extension : List Char) : List Char :=
  "snap_".toList ++ streamId ++ "_".toList ++ (toString created).toList ++ extension

/-- The name of an image of the detection of faces. -/
def faceFile (streamId : List Char) (now : ℕ) (extension : List Char) : List Char :=
  "face_".toList ++ sanitizeAnalysisComponent streamId ++ "_".toList ++ (toString now).toList ++
    extension

def faceDir (dirs : MediaDirs) (streamId : List Char) : Path :=
  join dirs.faces (sanitizeAnalysisComponent streamId)

/-! ## What is touched -/

/-- The endings of the files around an image. -/
def imageExtensions : List (List Char) := [".h264".toList, ".jpg".toList]

/-- `prune_old_segments` and the writer of segments: the names of files in the directory of a
session. -/
def IsHlsFile (name : List Char) : Prop :=
  (∃ seq, name = (M3u8Generator.segmentFilename seq).toList ∨
    name = (M3u8Generator.segmentFilename seq).toList ++ ".part".toList) ∨
    name = "live.m3u8".toList ∨ name = "live.m3u8.part".toList ∨
    ∃ seq, (Text.parseUnsigned (2 ^ 64) seq).isSome ∧ name =
      "segment_".toList ++ seq ++ ".ts".toList

/-- A path below the configured directory `base` is created, removed or served; `date` is the local
date of a reading of the clock. -/
inductive Touches (date : ℕ → ℕ × ℕ × ℕ) (dirs : MediaDirs) (streamId filename : List Char) :
    Path → Path → Prop
  | hlsDir : Touches date dirs streamId filename dirs.hls (hlsOutputDir dirs streamId)
  | hlsFile (name : List Char) (hname : IsHlsFile name) :
      Touches date dirs streamId filename dirs.hls (join (hlsOutputDir dirs streamId) name)
  | hlsServed (present : Path → Bool) (session : Bool) (path : Path)
      (hpath : getSegmentPath dirs present
        (if session then some (hlsOutputDir dirs streamId) else none) streamId
        filename = some path) :
      Touches date dirs streamId filename dirs.hls path
  | recordDir (started : ℕ) (hid : Text.trim streamId ≠ []) :
      Touches date dirs streamId filename dirs.record (dayDir dirs.record streamId (date started))
  | recordFile (session started : ℕ) (hid : Text.trim streamId ≠ []) :
      Touches date dirs streamId filename dirs.record
        (join (dayDir dirs.record streamId (date started)) (recordFile streamId session started))
  | recordIndex (session started : ℕ) (hid : Text.trim streamId ≠ []) :
      Touches date dirs streamId filename dirs.record
        (join (parent (join (dayDir dirs.record streamId (date started))
          (recordFile streamId session started)))
          "index.json".toList)
  | snapshotDir (now : ℕ) (hid : Text.trim streamId ≠ []) :
      Touches date dirs streamId filename dirs.snapshot (dayDir dirs.snapshot streamId (date now))
  | snapshotFile (created now : ℕ) (extension : List Char) (hext : extension ∈ imageExtensions)
      (hid : Text.trim streamId ≠ []) :
      Touches date dirs streamId filename dirs.snapshot
        (join (dayDir dirs.snapshot streamId (date now)) (snapshotFile streamId created extension))
  | faceDir (hid : Text.trim streamId ≠ []) :
    Touches date dirs streamId filename dirs.faces (faceDir dirs streamId)
  | faceFile (now : ℕ) (extension : List Char) (hext : extension ∈ imageExtensions)
    (hid : Text.trim streamId ≠ []) :
      Touches date dirs streamId filename dirs.faces
        (join (faceDir dirs streamId) (faceFile streamId now extension))

/-- **Containment**: what is touched lies inside the directory that is configured for it. -/
def Contained (date : ℕ → ℕ × ℕ × ℕ) (dirs : MediaDirs) (streamId filename : List Char) : Prop :=
  ∀ base path, Touches date dirs streamId filename base path →
    Dir.Inside (normalise base) (normalise path)

/-! ## Names -/

/-- A sanitiser lets a character through that it keeps. -/
theorem not_mem_sanitizeWith {keep input : List Char} {x : Char}
    (hx : (x.isAlphanum || keep.contains x) = false) (hunderscore : x ≠ '_') :
    x ∉ sanitizeWith keep input := by
  intro hmem
  obtain ⟨c, -, hc⟩ := List.mem_map.mp hmem
  split_ifs at hc with hkept
  · rw [hc, hx] at hkept
    cases hkept
  · exact hunderscore hc.symm

/-- What comes out without an underscore went in as it is. -/
theorem sanitizeWith_eq_self {keep input : List Char} (h : '_' ∉ sanitizeWith keep input) :
    sanitizeWith keep input = input := by
  refine (List.map_congr_left fun c hc => ?_).trans (List.map_id input)
  by_cases hkept : (c.isAlphanum || keep.contains c) = true
  · exact if_pos hkept
  · have hmem : '_' ∈ sanitizeWith keep input := List.mem_map.mpr ⟨c, hc, if_neg hkept⟩
    exact absurd hmem h

theorem isName_sanitizePathComponent {streamId : List Char} (h : streamId ≠ []) :
    IsName (sanitizePathComponent streamId) := by
  have hslash : '/' ∉ sanitizePathComponent streamId := not_mem_sanitizeWith (by decide) (by decide)
  have hdot : '.' ∉ sanitizePathComponent streamId := not_mem_sanitizeWith (by decide) (by decide)
  obtain ⟨c, hc⟩ := List.exists_mem_of_ne_nil _ (mt List.map_eq_nil_iff.mp h)
  exact .of_mem hslash hc fun heq => hdot (heq ▸ hc)

/-- Only the ids `.` and `..` are no names when the analysis has sanitised them. -/
theorem isName_sanitizeAnalysisComponent {streamId : List Char} (hhere : streamId ≠ ['.'])
    (hup : streamId ≠ ['.', '.']) : IsName (sanitizeAnalysisComponent streamId) := by
  have hslash : '/' ∉ sanitizeWith ['-', '_', '.'] streamId :=
    not_mem_sanitizeWith (by decide) (by decide)
  have hself : ∀ dots : List Char, '_' ∉ dots → streamId ≠ dots →
      sanitizeWith ['-', '_', '.'] streamId ≠ dots := by
    intro dots hdots hne heq
    exact hne ((sanitizeWith_eq_self (heq ▸ hdots)).symm.trans heq)
  unfold sanitizeAnalysisComponent
  dsimp only
  split_ifs with hnil
  · exact .of_mem (c := 's') (by decide) (by decide) (by decide)
  · exact ⟨hslash, hnil, hself _ (by decide) hhere, hself _ (by decide) hup⟩

theorem isDigit_of_mem_padded {width n : ℕ} {c : Char} (h : c ∈ padded width n) :
    c.isDigit = true := by
  rcases List.mem_append.mp h with h | h
  · rw [List.eq_of_mem_replicate h]
    rfl
  · exact Text.isDigit_of_mem_toString h

theorem padded_ne_nil {width : ℕ} (h : 0 < width) (n : ℕ) : padded width n ≠ [] := by
  intro hnil
  obtain ⟨hzeros, hdigits⟩ := List.append_eq_nil_iff.mp hnil
  rw [hdigits, List.replicate_eq_nil_iff] at hzeros
  exact absurd hzeros (Nat.ne_of_gt h)

theorem isName_dateDir (date : ℕ × ℕ × ℕ) : IsName (dateDir date) := by
  have hdigit : ∀ c ∈ dateDir date, c.isDigit = true := by
    intro c hc
    simp only [dateDir, List.mem_append] at hc
    rcases hc with (hc | hc) | hc <;> exact isDigit_of_mem_padded hc
  have hother : ∀ c, c.isDigit = false → c ∉ dateDir date := fun c hc hmem => by
    rw [hdigit c hmem] at hc
    cases hc
  have hne : dateDir date ≠ [] := by simp [dateDir, padded_ne_nil]
  obtain ⟨c, hc⟩ := List.exists_mem_of_ne_nil _ hne
  exact .of_mem (hother '/' (by decide)) hc fun hdot => hother '.' (by decide) (hdot ▸ hc)

theorem slash_not_mem_toString (n : ℕ) : '/' ∉ (toString n).toList := fun hmem =>
  absurd (Text.isDigit_of_mem_toString hmem) (by decide)

theorem slash_not_mem_of_parseUnsigned {bound : ℕ} {seq : List Char}
    (h : (Text.parseUnsigned bound seq).isSome) :
    '/' ∉ seq := by
  have hdigits : ∀ digits : List Char, ∀ n : Option ℕ,
      (if digits ≠ [] ∧ digits.all Char.isDigit then n else none).isSome → '/' ∉ digits := by
    intro digits n hn hmem
    split_ifs at hn with hall
    · exact absurd (List.all_eq_true.mp hall.2 _ hmem) (by decide)
    · cases hn
  unfold Text.parseUnsigned at h
  dsimp only at h
  split at h
  · exact List.not_mem_cons_of_ne_of_not_mem (by decide) (hdigits _ _ h)
  · exact hdigits _ _ h

/-- The files of a session have plain names. -/
theorem isName_of_isHlsFile {name : List Char} (h : IsHlsFile name) : IsName name := by
  have hsegment : IsName "segment_".toList := by decide
  have hfile : ∀ seq, IsName (M3u8Generator.segmentFilename seq).toList := by
    intro seq
    rw [M3u8Generator.segmentFilename, String.toList_append, String.toList_append]
    exact (hsegment.append (slash_not_mem_toString seq)).append (by decide)
  rcases h with ⟨seq, rfl | rfl⟩ | rfl | rfl | ⟨seq, hseq, rfl⟩
  · exact hfile seq
  · exact (hfile seq).append (by decide)
  · decide
  · decide
  · exact (hsegment.append (slash_not_mem_of_parseUnsigned hseq)).append (by decide)

theorem slash_not_mem_sanitizeAnalysisComponent (streamId : List Char) :
    '/' ∉ sanitizeAnalysisComponent streamId := by
  unfold sanitizeAnalysisComponent
  dsimp only
  split_ifs
  · decide
  · exact not_mem_sanitizeWith (by decide) (by decide)

theorem isName_faceFile (streamId : List Char) (now : ℕ) {extension : List Char}
    (h : extension ∈ imageExtensions) :
    IsName (faceFile streamId now extension) := by
  have hface : IsName "face_".toList := by decide
  have hextension : '/' ∉ extension := by
    rcases List.mem_pair.mp h with rfl | rfl <;> decide
  exact (((hface.append (slash_not_mem_sanitizeAnalysisComponent streamId)).append
    (by decide)).append
    (slash_not_mem_toString now)).append hextension

/-! ## Where the media of a day is -/

theorem normalise_dayDir (base : Path) {streamId : List Char} (h : streamId ≠ [])
    (date : ℕ × ℕ × ℕ) :
    normalise (dayDir base streamId date) =
      (normalise base).below [sanitizePathComponent streamId, dateDir date] := by
  rw [dayDir, normalise_join_name (isName_dateDir date),
    normalise_join_name (isName_sanitizePathComponent h), Dir.below_below]
  rfl

theorem ne_nil_of_trim {streamId : List Char} (h : Text.trim streamId ≠ []) : streamId ≠ [] := by
  rintro rfl
  exact h rfl

theorem hlsServed_eq {dirs : MediaDirs} {present : Path → Bool} {session : Bool}
    {streamId filename : List Char} {path : Path}
    (h : getSegmentPath dirs present (if session then some (hlsOutputDir dirs streamId) else none)
      streamId filename = some path) : path = join dirs.hls (join streamId filename) := by
  rw [← join_assoc]
  cases session <;> simp only [getSegmentPath, hlsOutputDir, if_true, Bool.false_eq_true, if_false]
    at h
  · split_ifs at h
    exact (Option.some.inj h).symm
  · split_ifs at h
    exact (Option.some.inj h).symm

/-! ## Containment -/

/-- The ids `.` and `..` lead out of the directory of HLS, too. -/
theorem ne_dots_of_descends {base : Path} {streamId : List Char} (h : Descends base 0 streamId) :
    streamId ≠ ['.'] ∧ streamId ≠ ['.', '.'] := by
  constructor <;>
  · rintro rfl
    exact Dir.Stays.names_ne_nil h rfl

theorem getLast?_recordFile (streamId : List Char) (session started : ℕ) :
    (recordFile streamId session started).getLast? = some 's' :=
      List.getLast?_append_of_ne_nil _ (by decide)

/-- **Containment** is decided by the texts that are joined: by the id and the requested file name
for HLS, and by the id in the names of files for the recorder and snapshots. -/
theorem contained_iff (date : ℕ → ℕ × ℕ × ℕ) (dirs : MediaDirs) (streamId filename : List Char) :
    Contained date dirs streamId filename ↔
      Descends dirs.hls 0 streamId ∧ Descends dirs.hls 0 (join streamId filename) ∧
        (Text.trim streamId ≠ [] →
          (∀ session started, Descends dirs.record 2 (recordFile streamId session started)) ∧
            ∀ created, ∀ extension ∈ imageExtensions,
              Descends dirs.snapshot 2 (snapshotFile streamId created extension)) := by
  have hhls : ∀ text, Dir.Inside (normalise dirs.hls) (normalise (join dirs.hls text)) ↔
      Descends dirs.hls 0 text :=
    inside_join_iff (Dir.below_nil _).symm
  have hday : ∀ base now text, streamId ≠ [] →
      (Dir.Inside (normalise base) (normalise (join (dayDir base streamId (date now)) text)) ↔
          Descends base 2 text) :=
    fun base now text hid => inside_join_iff (normalise_dayDir base hid (date now)) text
  have hdir : ∀ base now, streamId ≠ [] →
      Dir.Inside (normalise base) (normalise (dayDir base streamId (date now))) := by
    intro base now hid
    rw [normalise_dayDir base hid]
    exact Dir.inside_below (List.cons_ne_nil _ _)
  constructor
  · intro h
    refine ⟨(hhls _).mp (h _ _ .hlsDir),
      (hhls _).mp (h _ _ (.hlsServed (fun _ => true) false _ ?_)), fun hid => ⟨?_, ?_⟩⟩
    · simp [getSegmentPath, join_assoc]
    · exact fun session started =>
        (hday _ _ _ (ne_nil_of_trim hid)).mp (h _ _ (.recordFile session started hid))
    · exact fun created extension hext =>
        (hday _ _ _ (ne_nil_of_trim hid)).mp (h _ _ (.snapshotFile created 0 extension hext hid))
  · rintro ⟨hid, hserved, hfiles⟩ base path htouch
    have hface : Dir.Inside (normalise dirs.faces) (normalise (faceDir dirs streamId)) := by
      obtain ⟨hhere, hup⟩ := ne_dots_of_descends hid
      rw [faceDir, normalise_join_name (isName_sanitizeAnalysisComponent hhere hup)]
      exact Dir.inside_below (List.cons_ne_nil _ _)
    cases htouch with
    | hlsDir => exact (hhls _).mpr hid
    | hlsFile name hname =>
      rw [normalise_join_name (isName_of_isHlsFile hname)]
      exact ((hhls _).mpr hid).below _
    | hlsServed present session path hpath =>
      rw [hlsServed_eq hpath]
      exact (hhls _).mpr hserved
    | recordDir started hne => exact hdir _ _ (ne_nil_of_trim hne)
    | recordFile session started hne =>
      exact (hday _ _ _ (ne_nil_of_trim hne)).mpr ((hfiles hne).1 session started)
    | recordIndex session started hne =>
      have hfile := (hday _ started _ (ne_nil_of_trim hne)).mpr ((hfiles hne).1 session started)
      have hlast :
        (join (dayDir dirs.record streamId (date started))
        (recordFile streamId session started)).getLast? =
          some 's' := by
        rw [join_of_relative rfl, List.getLast?_append, getLast?_recordFile]
        rfl
      exact inside_beside hlast (by decide) (by decide) (by decide) hfile
    | snapshotDir now hne => exact hdir _ _ (ne_nil_of_trim hne)
    | snapshotFile created now extension hext hne =>
      exact (hday _ _ _ (ne_nil_of_trim hne)).mpr ((hfiles hne).2 created extension hext)
    | faceDir hne => exact hface
    | faceFile now extension hext hne =>
      rw [normalise_join_name (isName_faceFile streamId now hext)]
      exact hface.below _

/-- A request for a segment names `..` as its stream, and is served from **beside** the directory of
HLS. -/
theorem not_contained_dots :
    hlsSegmentRequest "/hls/../x.ts".toList = some ("..".toList, "x.ts".toList) ∧
      ¬ Contained (fun _ => (2025, 1, 1)) ⟨"./hls".toList, "./records".toList, "./snapshots".toList,
        "./analysis".toList⟩
        "..".toList "x.ts".toList := by
  refine ⟨by decide, fun h => ?_⟩
  have hinside := h _ _ (.hlsServed (fun _ => true) false _ rfl)
  revert hinside
  decide

end VcpMediaServer
