import VcpMediaServer.M3u8
import VcpMediaServer.Text

/-!
# The sliding window

The playlist of a run in which each segment has the number that is next: the window is the **end of
all segments**, and the two sequence numbers count what left it at its front. A player reads the
window from the text.

* `Window` — a playlist as a window on segments.
* `readSegments` — how a player reads the text, line by line.
* `slides_run` — every run.
-/

namespace VcpMediaServer

/-- What `add_segment` is given beside the number. -/
structure AddedSegment (F : Type) where
  /-- The duration in seconds. -/
  duration : F
  /-- When its media starts. -/
  programDateTime : ℤ
  /-- The timeline breaks in front of it. -/
  discontinuity : Bool

variable {F : Type}

/-- The segment with its number. -/
def AddedSegment.numbered (a : AddedSegment F) (sequence : ℕ) : Segment F :=
  { sequence, duration := a.duration, filename := M3u8Generator.segmentFilename sequence,
    programDateTime := a.programDateTime, discontinuity := a.discontinuity }

/-- The segments of a run, numbered from zero on. -/
def numberedSegments (calls : List (AddedSegment F)) : List (Segment F) :=
  calls.mapIdx fun i a => a.numbered i

namespace M3u8Generator

/-- A segment is added with the number that is next. -/
def addNext (playlist : M3u8Generator F) (a : AddedSegment F) : M3u8Generator F :=
  playlist.addSegment a.duration playlist.nextSequence a.programDateTime a.discontinuity

theorem addNext_eq (playlist : M3u8Generator F) (a : AddedSegment F) :
    let window :=
      shrink playlist.maxSegments (playlist.segments ++ [a.numbered playlist.nextSequence])
      playlist.mediaSequence playlist.discontinuitySequence
    playlist.addNext a = { playlist with
      segments := window.1
      mediaSequence := window.2.1
      discontinuitySequence := window.2.2
      nextSequence := playlist.nextSequence + 1 } := rfl

/-! ## The window -/

/-- A playlist is the end of the segments `added`: no more of them than the window holds, and what
is in front of it is counted. -/
structure Window (limit : ℕ) (added : List (Segment F)) (playlist : M3u8Generator F) : Prop where
  maxSegments : playlist.maxSegments = limit
  nextSequence : playlist.nextSequence = added.length
  segments : playlist.segments = added.drop (added.length - limit)
  mediaSequence : playlist.mediaSequence = added.length - limit
  discontinuitySequence :
    playlist.discontinuitySequence =
      (added.take (added.length - limit)).countP Segment.discontinuity

theorem window_new (targetDuration : F) (maxSegments : ℕ) :
    Window (max maxSegments 1) [] (new targetDuration maxSegments) where
  maxSegments := rfl
  nextSequence := rfl
  segments := List.drop_nil.symm
  mediaSequence := (Nat.zero_sub _).symm
  discontinuitySequence := by
    rw [List.take_nil]
    rfl

/-- The window **slides** over the segments. -/
theorem Window.addNext {limit : ℕ} {added : List (Segment F)} {playlist : M3u8Generator F}
    (h : Window limit added playlist) (a : AddedSegment F) :
    Window limit (added ++ [a.numbered added.length]) (playlist.addNext a) := by
  -- `k` segments are in front of the window, and `n` more leave it
  obtain ⟨k, hk⟩ : ∃ k, k = added.length - limit := ⟨_, rfl⟩
  obtain ⟨hmax, hnext, hsegments, hmedia, hdiscontinuity⟩ := h
  rw [← hk] at hsegments hmedia hdiscontinuity
  have hkle : k ≤ added.length := by omega
  have hall : playlist.segments ++ [a.numbered added.length] =
      (added ++ [a.numbered added.length]).drop k := by
    rw [hsegments, List.drop_append_of_le_length hkle]
  have hlen : (playlist.segments ++ [a.numbered added.length]).length = added.length + 1 - k := by
    rw [hall, List.length_drop, List.length_append, List.length_singleton]
  obtain ⟨n, hn⟩ : ∃ n, n = added.length + 1 - k - limit := ⟨_, rfl⟩
  have hsum : (added ++ [a.numbered added.length]).length - limit = k + n := by
    rw [List.length_append, List.length_singleton]
    omega
  have hshrink :=
    shrink_eq limit (playlist.segments ++ [a.numbered added.length]) playlist.mediaSequence
    playlist.discontinuitySequence
  rw [hlen, ← hn, hall] at hshrink
  have htake : (added ++ [a.numbered added.length]).take k = added.take k :=
    List.take_append_of_le_length hkle
  rw [addNext_eq, hmax, hnext, hall, hshrink]
  refine ⟨rfl, ?_, ?_, ?_, ?_⟩
  · rw [List.length_append, List.length_singleton]
  · rw [hsum, List.drop_drop]
  · rw [hsum, hmedia]
  · rw [hsum, List.take_add, List.countP_append, htake, ← hdiscontinuity]

/-- The window of a run. -/
theorem window_run (targetDuration : F) (maxSegments : ℕ) (calls : List (AddedSegment F)) :
    Window (max maxSegments 1) (numberedSegments calls)
      (calls.foldl M3u8Generator.addNext (new targetDuration maxSegments)) := by
  induction calls using List.reverseRecOn with
  | nil => exact window_new targetDuration maxSegments
  | append_singleton calls a ih =>
    have hnumbered : numberedSegments (calls ++ [a]) =
        numberedSegments calls ++ [a.numbered (numberedSegments calls).length] := by
      rw [numberedSegments, List.mapIdx_concat, numberedSegments, List.length_mapIdx]
    rw [List.foldl_concat, hnumbered]
    exact ih.addNext a

/-! ## The text -/

/-- The tag in front of a segment behind a gap. -/
def discontinuityTag : List Char := "#EXT-X-DISCONTINUITY".toList

/-- The lines of a segment. -/
def segmentLines (format : PlaylistFormat F) (segment : Segment F) : List (List Char) :=
  (if segment.discontinuity then [discontinuityTag] else []) ++
    [ "#EXT-X-PROGRAM-DATE-TIME:".toList ++ (format.programDateTime segment.programDateTime).toList,
      "#EXTINF:".toList ++ ((format.duration segment.duration).toList ++ [',']),
      segment.filename.toList ]

/-- The lines in front of the segments. -/
def headerLines [F64 F] (playlist : M3u8Generator F) (format : PlaylistFormat F) :
    List (List Char) :=
  [ "#EXTM3U".toList, "#EXT-X-VERSION:3".toList, "#EXT-X-INDEPENDENT-SEGMENTS".toList,
    "#EXT-X-TARGETDURATION:".toList ++ (toString (playlist.playlistTargetDuration format)).toList,
    "#EXT-X-MEDIA-SEQUENCE:".toList ++ (toString playlist.mediaSequence).toList ] ++
    if 0 < playlist.discontinuitySequence then
      ["#EXT-X-DISCONTINUITY-SEQUENCE:".toList ++ (toString playlist.discontinuitySequence).toList]
    else []

/-- The lines behind the segments. -/
def endLines (playlist : M3u8Generator F) : List (List Char) :=
  if playlist.ended then ["#EXT-X-ENDLIST".toList] else []

/-- Lines as text. -/
def crlf (lines : List (List Char)) : List Char := lines.flatMap fun line => line ++ ['\r', '\n']

theorem crlf_append (front rest : List (List Char)) :
    crlf (front ++ rest) = crlf front ++ crlf rest :=
  List.flatMap_append

theorem toList_segmentText (format : PlaylistFormat F) (segment : Segment F) :
    (segmentText format segment).toList = crlf (segmentLines format segment) := by
  have htag : ∀ discontinuity :
    Bool, (if discontinuity then "#EXT-X-DISCONTINUITY\r\n" else "").toList =
      crlf (if discontinuity then [discontinuityTag] else []) := by decide
  have hend : "\r\n".toList = ['\r', '\n'] := rfl
  have hcomma : ",\r\n".toList = ',' :: ['\r', '\n'] := rfl
  rw [segmentText, String.toList_append, segmentLines, crlf_append, htag]
  simp only [String.toList_append, hend, hcomma, crlf, List.flatMap_cons, List.flatMap_nil,
    List.append_assoc, List.append_nil, List.cons_append, List.nil_append]

theorem toList_generate [F64 F] (playlist : M3u8Generator F) (format : PlaylistFormat F) :
    (playlist.generate format).toList = crlf (playlist.headerLines format ++
      (playlist.segments.flatMap (segmentLines format) ++ playlist.endLines)) := by
  have hsegments : ∀ segments :
    List (Segment F), (String.join (segments.map (segmentText format))).toList =
      crlf (segments.flatMap (segmentLines format)) := by
    intro segments
    rw [String.toList_join, List.flatMap_map, crlf, List.flatMap_assoc]
    exact List.flatMap_congr fun segment _ => toList_segmentText format segment
  have hended : ∀ ended : Bool, (if ended then "#EXT-X-ENDLIST\r\n" else "").toList =
      crlf (if ended then ["#EXT-X-ENDLIST".toList] else []) := by decide
  have hdiscontinuity : (if 0 < playlist.discontinuitySequence then
        "#EXT-X-DISCONTINUITY-SEQUENCE:" ++ toString playlist.discontinuitySequence ++ "\r\n"
          else "").toList =
      crlf (if 0 < playlist.discontinuitySequence then
        ["#EXT-X-DISCONTINUITY-SEQUENCE:".toList ++
            (toString playlist.discontinuitySequence).toList] else []) := by
    split
    · rw [String.toList_append, String.toList_append, crlf, List.flatMap_singleton]
      rfl
    · rfl
  have hm3u : "#EXTM3U\r\n".toList = "#EXTM3U".toList ++ ['\r', '\n'] := rfl
  have hversion : "#EXT-X-VERSION:3\r\n".toList = "#EXT-X-VERSION:3".toList ++ ['\r', '\n'] := rfl
  have hindependent : "#EXT-X-INDEPENDENT-SEGMENTS\r\n".toList =
      "#EXT-X-INDEPENDENT-SEGMENTS".toList ++ ['\r', '\n'] := rfl
  have hend : "\r\n".toList = ['\r', '\n'] := rfl
  rw [generate, headerLines, endLines]
  simp only [String.toList_append, crlf_append, hsegments, hended, hdiscontinuity, hm3u, hversion,
    hindependent, hend]
  simp only [crlf, List.flatMap_cons, List.flatMap_nil, List.append_assoc, List.append_nil]

/-- The formats write one line. -/
structure OneLine (format : PlaylistFormat F) : Prop where
  duration : ∀ secs, '\n' ∉ (format.duration secs).toList
  programDateTime : ∀ time, '\n' ∉ (format.programDateTime time).toList

theorem newline_not_mem_headerLines [F64 F] (playlist : M3u8Generator F)
    (format : PlaylistFormat F) :
    ∀ line ∈ playlist.headerLines format, '\n' ∉ line := by
  have hnumber : ∀ (tag : List Char) (n : ℕ), '\n' ∉ tag → '\n' ∉ tag ++ (toString n).toList :=
    fun tag n h =>
    List.not_mem_append h (Text.newline_not_mem_toString n)
  rw [headerLines, List.forall_mem_append]
  constructor
  · simp only [List.forall_mem_cons, List.not_mem_nil, false_implies, implies_true, and_true]
    exact ⟨by decide, by decide, by decide, hnumber _ _ (by decide), hnumber _ _ (by decide)⟩
  · split
    · exact List.forall_mem_singleton.mpr (hnumber _ _ (by decide))
    · nofun

theorem newline_not_mem_segmentLines {format : PlaylistFormat F} (hformat : OneLine format)
    {segment : Segment F} (hname : '\n' ∉ segment.filename.toList) :
    ∀ line ∈ segmentLines format segment, '\n' ∉ line := by
  rw [segmentLines, List.forall_mem_append]
  constructor
  · cases segment.discontinuity with
    | false => nofun
    | true => exact List.forall_mem_singleton.mpr (by decide)
  · simp only [List.forall_mem_cons, List.not_mem_nil, false_implies, implies_true, and_true]
    exact ⟨List.not_mem_append (by decide) (hformat.programDateTime _),
      List.not_mem_append (by decide) (List.not_mem_append (hformat.duration _) (by decide)), hname⟩

theorem newline_not_mem_endLines (playlist : M3u8Generator F) :
    ∀ line ∈ playlist.endLines, '\n' ∉ line := by
  rw [endLines]
  split
  · exact List.forall_mem_singleton.mpr (by decide)
  · nofun

/-! ## What a player reads -/

/-- The names of a playlist, each with the discontinuity tags in front of it. Lines that are empty
and other lines with a number sign in front are passed over. -/
def readSegments : ℕ → List (List Char) → List (ℕ × List Char)
  | _, [] => []
  | tags, line :: lines =>
    if line = discontinuityTag then readSegments (tags + 1) lines
    else if line = [] ∨ line.head? = some '#' then readSegments tags lines
    else (tags, line) :: readSegments 0 lines

/-- A line that is passed over. -/
def IsOther (line : List Char) : Prop :=
  line ≠ discontinuityTag ∧ (line = [] ∨ line.head? = some '#')

/-- Tags are told apart by the characters that they begin with. -/
theorem isOther_append {tag : List Char}
    (h : tag.take 8 ≠ discontinuityTag.take 8 ∧ 8 ≤ tag.length ∨ 20 < tag.length)
    (hhead : tag.head? = some '#') (rest : List Char) : IsOther (tag ++ rest) := by
  refine ⟨fun heq => ?_, .inr ?_⟩
  · rcases h with ⟨hne, hlen⟩ | hlen
    · rw [← heq, List.take_append_of_le_length hlen] at hne
      exact hne rfl
    · have hlength := congrArg List.length heq
      have htag : discontinuityTag.length = 20 := rfl
      rw [List.length_append, htag] at hlength
      omega
  · rw [List.head?_append, hhead]
    rfl

theorem readSegments_other {lines : List (List Char)} (h : ∀ line ∈ lines, IsOther line) (tags : ℕ)
    (rest : List (List Char)) : readSegments tags (lines ++ rest) = readSegments tags rest := by
  induction lines with
  | nil => rfl
  | cons line lines ih =>
    obtain ⟨⟨hne, hother⟩, hlines⟩ := List.forall_mem_cons.mp h
    rw [List.cons_append, readSegments, if_neg hne, if_pos hother]
    exact ih hlines

theorem isOther_headerLines [F64 F] (playlist : M3u8Generator F) (format : PlaylistFormat F) :
    ∀ line ∈ playlist.headerLines format, IsOther line := by
  have hfixed : ∀ {line : List Char}, line.take 8 ≠ discontinuityTag.take 8 →
    line.head? = some '#' →
      IsOther line := fun hne hhead => ⟨fun heq => hne (congrArg (List.take 8) heq), .inr hhead⟩
  rw [headerLines, List.forall_mem_append]
  constructor
  · simp only [List.forall_mem_cons, List.not_mem_nil, false_implies, implies_true, and_true]
    exact ⟨hfixed (by decide) rfl, hfixed (by decide) rfl, ⟨by decide, .inr rfl⟩,
      isOther_append (.inr (by decide)) rfl _, isOther_append (.inr (by decide)) rfl _⟩
  · split
    · exact List.forall_mem_singleton.mpr (isOther_append (.inr (by decide)) rfl _)
    · nofun

theorem isOther_endLines (playlist : M3u8Generator F) :
    ∀ line ∈ playlist.endLines, IsOther line := by
  rw [endLines]
  split
  · exact List.forall_mem_singleton.mpr ⟨by decide, .inr rfl⟩
  · nofun

/-- A segment is read with **its** tag, and behind it no tag is left. -/
theorem readSegments_segmentLines (format : PlaylistFormat F) {segment : Segment F}
    (hname : segment.filename.toList.head? = some 's') (rest : List (List Char)) :
    readSegments 0 (segmentLines format segment ++ rest) =
      (if segment.discontinuity then 1 else 0, segment.filename.toList) :: readSegments 0 rest := by
  have hbehind : ∀ tags, readSegments tags (
      [ "#EXT-X-PROGRAM-DATE-TIME:".toList ++
        (format.programDateTime segment.programDateTime).toList,
        "#EXTINF:".toList ++ ((format.duration segment.duration).toList ++ [',']),
        segment.filename.toList ] ++ rest) =
        (tags, segment.filename.toList) :: readSegments 0 rest := by
    intro tags
    have hother : ∀ line ∈
        [ "#EXT-X-PROGRAM-DATE-TIME:".toList ++
          (format.programDateTime segment.programDateTime).toList, "#EXTINF:".toList ++
          ((format.duration segment.duration).toList ++ [',']) ], IsOther line := by
      simp only [List.forall_mem_cons, List.not_mem_nil, false_implies, implies_true, and_true]
      exact ⟨isOther_append (.inr (by decide)) rfl _, isOther_append (.inl (by decide)) rfl _⟩
    have hne : segment.filename.toList ≠ discontinuityTag := by
      intro heq
      rw [heq] at hname
      exact absurd hname (by decide)
    have hsome : ¬(segment.filename.toList = [] ∨ segment.filename.toList.head? = some '#') := by
      rw [hname]
      rintro (hnil | hsharp)
      · rw [hnil] at hname
        cases hname
      · exact absurd hsharp (by decide)
    apply (readSegments_other hother tags (segment.filename.toList :: rest)).trans
    rw [readSegments, if_neg hne, if_neg hsome]
  rw [segmentLines, List.append_assoc]
  cases segment.discontinuity with
  | false => exact hbehind 0
  | true =>
    simp only [if_true, List.cons_append, List.nil_append]
    rw [readSegments, if_pos rfl]
    exact hbehind 1

/-- A player reads the window from the text. -/
theorem readSegments_generate [F64 F] {format : PlaylistFormat F} (hformat : OneLine format)
    {playlist : M3u8Generator F}
    (hnames : ∀ segment ∈ playlist.segments, ∃ n, segment.filename = segmentFilename n) :
    readSegments 0 (Text.lines (playlist.generate format).toList) =
      playlist.segments.map fun segment =>
          (if segment.discontinuity then 1 else 0, segment.filename.toList) := by
  have hname : ∀ n, '\n' ∉ (segmentFilename n).toList ∧ (segmentFilename n).toList.head? =
      some 's' := by
    intro n
    have hchars : (segmentFilename n).toList =
        "segment_".toList ++ ((toString n).toList ++ ".ts".toList) := by
      rw [segmentFilename, String.toList_append, String.toList_append, List.append_assoc]
    rw [hchars]
    refine ⟨List.not_mem_append
      (by decide) (List.not_mem_append (Text.newline_not_mem_toString n) (by decide)), ?_⟩
    rw [List.head?_append]
    rfl
  have hlines : ∀ line ∈ playlist.headerLines format ++
      (playlist.segments.flatMap (segmentLines format) ++ playlist.endLines), '\n' ∉ line := by
    refine List.forall_mem_append.mpr ⟨newline_not_mem_headerLines playlist format, ?_⟩
    refine List.forall_mem_append.mpr ⟨?_, newline_not_mem_endLines playlist⟩
    intro line hline
    obtain ⟨segment, hsegment, hline⟩ := List.mem_flatMap.mp hline
    obtain ⟨n, hn⟩ := hnames segment hsegment
    exact newline_not_mem_segmentLines hformat (hn ▸ (hname n).1) line hline
  have hread : ∀ segments :
    List (Segment F), (∀ segment ∈ segments, ∃ n, segment.filename = segmentFilename n) →
      readSegments 0 (segments.flatMap (segmentLines format) ++ playlist.endLines) =
        segments.map fun segment =>
            (if segment.discontinuity then 1 else 0, segment.filename.toList) := by
    intro segments hsegments
    induction segments with
    | nil =>
      have hend := readSegments_other (isOther_endLines playlist) 0 []
      rw [List.append_nil] at hend
      exact hend
    | cons segment segments ih =>
      obtain ⟨⟨n, hn⟩, hrest⟩ := List.forall_mem_cons.mp hsegments
      rw [List.flatMap_cons, List.append_assoc, readSegments_segmentLines format (hn ▸ (hname n).2),
        ih hrest]
      rfl
  rw [toList_generate, crlf, Text.lines_crlf hlines,
    readSegments_other (isOther_headerLines playlist format)]
  exact hread playlist.segments hnames

/-! ## Runs -/

/-- A playlist behind the segments `removed`: the window on the segments `added`, as a player sees
it. -/
structure Slides [F64 F] (format : PlaylistFormat F) (maxSegments : ℕ)
    (added removed : List (Segment F)) (playlist : M3u8Generator F) : Prop where
  /-- The window is the end of all segments. -/
  suffix : removed ++ playlist.segments = added
  /-- It holds as many as it can. -/
  length : playlist.segments.length = min added.length (max maxSegments 1)
  /-- Their numbers are consecutive. -/
  consecutive : playlist.segments.map Segment.sequence =
    List.range' playlist.mediaSequence playlist.segments.length
  /-- The first of them is the media sequence. -/
  first : ∀ segment ∈ playlist.segments.head?, playlist.mediaSequence = segment.sequence
  /-- The discontinuities that are gone are counted. -/
  discontinuities : playlist.discontinuitySequence = removed.countP Segment.discontinuity
  /-- The text lists the window, with one tag in front of each discontinuity. -/
  listed : readSegments 0 (Text.lines (playlist.generate format).toList) =
    playlist.segments.map fun segment =>
      (if segment.discontinuity then 1 else 0, segment.filename.toList)

theorem map_sequence_numberedSegments (calls : List (AddedSegment F)) :
    (numberedSegments calls).map Segment.sequence = List.range' 0 calls.length := by
  refine List.ext_getElem (by simp [numberedSegments]) fun i _ _ => ?_
  rw [List.getElem_map, List.getElem_range']
  simp [numberedSegments, AddedSegment.numbered]

theorem Window.slides [F64 F] {format : PlaylistFormat F} (hformat : OneLine format)
    {maxSegments : ℕ} {calls : List (AddedSegment F)} {playlist : M3u8Generator F}
    (h : Window (max maxSegments 1) (numberedSegments calls) playlist) :
    Slides format maxSegments (numberedSegments calls)
      ((numberedSegments calls).take playlist.mediaSequence) playlist := by
  have hlen : (numberedSegments calls).length = calls.length := List.length_mapIdx
  have hdrop : playlist.segments = (numberedSegments calls).drop playlist.mediaSequence := by
    rw [h.segments, h.mediaSequence]
  have hlength : playlist.segments.length = calls.length - playlist.mediaSequence := by
    rw [hdrop, List.length_drop, hlen]
  have hconsecutive : playlist.segments.map Segment.sequence =
      List.range' playlist.mediaSequence playlist.segments.length := by
    rw [hlength, hdrop, List.map_drop, map_sequence_numberedSegments, List.drop_range',
      Nat.zero_add, Nat.mul_one]
  refine ⟨?_, ?_, hconsecutive, ?_, ?_, readSegments_generate hformat ?_⟩
  · rw [hdrop, List.take_append_drop]
  · have hmedia := h.mediaSequence
    rw [hlen] at hmedia
    rw [hlength, hlen]
    omega
  · intro segment hsegment
    cases hsegments : playlist.segments with
    | nil =>
      rw [hsegments] at hsegment
      cases hsegment
    | cons head segments =>
      rw [hsegments] at hsegment hconsecutive
      obtain rfl : head = segment := Option.some.inj hsegment
      exact (List.cons.inj hconsecutive).1.symm
  · rw [h.discontinuitySequence, h.mediaSequence]
  · intro segment hsegment
    rw [hdrop] at hsegment
    obtain ⟨i, _, rfl⟩ := List.mem_mapIdx.mp (List.mem_of_mem_drop hsegment)
    exact ⟨i, rfl⟩

/-- In every run in which each segment has the number that is next, the playlist is the **window on
its last segments**, and reads so. -/
theorem slides_run [F64 F] {format : PlaylistFormat F} (hformat : OneLine format)
    (targetDuration : F) (maxSegments : ℕ) (calls : List (AddedSegment F)) :
    ∃ removed, Slides format maxSegments (numberedSegments calls) removed
      (calls.foldl addNext (new targetDuration maxSegments)) :=
  ⟨_, (window_run targetDuration maxSegments calls).slides hformat⟩

/-- The format of segments of one second that start at the epoch. -/
def epochFormat : PlaylistFormat ℚ where
  ceil secs := max secs.ceil.toNat 1
  duration _ := "1.000"
  programDateTime _ := "1970-01-01T00:00:00.000Z"

theorem slides_twoSegments : OneLine epochFormat ∧ ∃ removed,
    Slides epochFormat 1 (numberedSegments [⟨1, 0, true⟩, ⟨1, 0, true⟩]) removed
      ([⟨1, 0, true⟩, ⟨1, 0, true⟩].foldl addNext (new 1 1)) := by
  have hduration : '\n' ∉ "1.000".toList := by decide
  have htime : '\n' ∉ "1970-01-01T00:00:00.000Z".toList := by decide
  have hformat : OneLine epochFormat := ⟨fun _ => hduration, fun _ => htime⟩
  exact ⟨hformat, slides_run hformat 1 1 _⟩

end M3u8Generator

end VcpMediaServer
