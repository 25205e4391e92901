import VcpMediaServer.RtspMessages

/-!
# Replies that are read back

`process_request` parses the text of every reply, and writes it again. The header ends at the first
empty line, and the values are trimmed, so what is clean comes back as it was.

* `Messages.bodyStart_lines` — the body begins behind the first empty line.
* `Messages.readHeaders_entries` — the headers are collected one by one.
* `Messages.RtspResponse.parse_toText` — a reply **survives**.
-/

namespace VcpMediaServer

namespace Messages

open Text

/-- A phrase: words with one blank between them, at least one. -/
def IsPhrase (text : List Char) : Prop :=
  ∃ words, words ≠ [] ∧ (∀ w ∈ words, IsWord w) ∧ text = joinSpace words

/-- A header that is written in one line, and read back as it was. -/
structure CleanHeader (name value : List Char) : Prop where
  /-- No line ends in the name. -/
  name_line : '\n' ∉ name
  /-- No line ends in the value. A carriage return alone ends none. -/
  value_line : '\n' ∉ value
  /-- No blanks around the name. -/
  name_trim : trim name = name
  /-- No blanks around the value. -/
  value_trim : trim value = value
  /-- No colon in the name. -/
  name_colon : ':' ∉ name

/-- A value that is written in one line, and read back as it was. -/
structure HeaderValue (value : List Char) : Prop where
  /-- No line ends in it. -/
  one_line : '\n' ∉ value
  /-- No blanks around it. -/
  trimmed : trim value = value

theorem HeaderValue.cleanHeader {name value : List Char} (h : HeaderValue value)
    (hname : '\n' ∉ name ∧ trim name = name ∧ ':' ∉ name) : CleanHeader name value :=
  ⟨hname.1, h.one_line, hname.2.1, h.trimmed, hname.2.2⟩

theorem headerValue_of_unspaced {value : List Char} (h : Unspaced value) : HeaderValue value :=
  ⟨h.newline_not_mem, h.trim_eq⟩

/-! ## The end of the header -/

/-- The header does not end in a line. -/
theorem find_headerEnd_line {line : List Char} (h : '\n' ∉ line) (rest : List Char) :
    find HEADER_END (line ++ '\r' :: rest) =
        (find HEADER_END ('\r' :: rest)).map (· + byteLen line) := by
  induction line with
  | nil => simp
  | cons c line ih =>
    obtain ⟨hc, hline⟩ := not_or.mp (mt List.mem_cons.mpr h)
    have hnot : ¬ HEADER_END.isPrefixOf (c :: (line ++ '\r' :: rest)) = true := by
      -- the character behind the first one is no newline
      cases line with
      | nil => simp [HEADER_END]
      | cons d line =>
        have hd : '\n' ≠ d := fun hd => hline (hd ▸ List.mem_cons_self)
        simp [HEADER_END, hd]
    rw [List.cons_append, find, if_neg hnot, ih hline, Option.map_map]
    congr 1
    funext n
    simp only [Function.comp_apply, byteLen_cons]
    omega

/-- A line end is that of the header only where another one follows. -/
theorem find_headerEnd_crlf {rest : List Char} (h : ¬ ['\r', '\n'].isPrefixOf rest = true) :
    find HEADER_END ('\r' :: '\n' :: rest) = (find HEADER_END rest).map (· + 2) := by
  have hfirst : ¬ HEADER_END.isPrefixOf ('\r' :: '\n' :: rest) = true := by
    simpa [HEADER_END] using h
  have hsecond : ¬ HEADER_END.isPrefixOf ('\n' :: rest) = true := by simp [HEADER_END]
  rw [find, if_neg hfirst, find, if_neg hsecond, Option.map_map]
  congr 1

/-- A line that is not empty does not begin with a line end. -/
theorem not_crlf_isPrefixOf {line : List Char} (hne : line ≠ []) (h : '\n' ∉ line)
    (rest : List Char) :
    ¬ ['\r', '\n'].isPrefixOf (line ++ '\r' :: rest) = true := by
  obtain ⟨c, line, rfl⟩ := List.exists_cons_of_ne_nil hne
  cases line with
  | nil => simp
  | cons d line =>
    have hd : '\n' ≠ d := fun hd => h (hd ▸ List.mem_cons_of_mem _ List.mem_cons_self)
    simp [hd]

/-- Lines, each with its line end. -/
def crlfLines (lines : List (List Char)) : List Char :=
  lines.flatMap fun line => line ++ ['\r', '\n']

theorem crlfLines_cons (line : List Char) (lines : List (List Char)) (rest : List Char) :
    crlfLines (line :: lines) ++ rest = line ++ '\r' :: '\n' :: (crlfLines lines ++ rest) := by
  simp [crlfLines]

theorem byteLen_crlfLines_cons (line : List Char) (lines : List (List Char)) :
    byteLen (crlfLines (line :: lines)) = byteLen line + 2 + byteLen (crlfLines lines) := by
  simp only [crlfLines, List.flatMap_cons, byteLen_append, byteLen_crlf, byteLen_nil]

/-- The header ends with the **first** empty line. -/
theorem find_headerEnd_lines {line : List Char} {lines : List (List Char)}
    (h : ∀ l ∈ line :: lines, l ≠ [] ∧ '\n' ∉ l) (rest : List Char) :
    (find HEADER_END (crlfLines (line :: lines) ++ '\r' :: '\n' :: rest)).map (· + 2) =
      some (byteLen (crlfLines (line :: lines))) := by
  induction lines generalizing line with
  | nil =>
    obtain ⟨-, hline⟩ := h line List.mem_cons_self
    rw [crlfLines_cons, find_headerEnd_line hline]
    have hend : find HEADER_END ('\r' :: '\n' :: (crlfLines [] ++ '\r' :: '\n' :: rest)) =
        some 0 := by
      simp [find, HEADER_END, crlfLines]
    rw [hend, byteLen_crlfLines_cons]
    simp [crlfLines]
  | cons next lines ih =>
    obtain ⟨-, hline⟩ := h line List.mem_cons_self
    obtain ⟨hne, hnext⟩ := h next (List.mem_cons_of_mem _ List.mem_cons_self)
    have hrest := ih fun l hl => h l (List.mem_cons_of_mem _ hl)
    obtain ⟨n, hn, hlen⟩ := Option.map_eq_some_iff.mp hrest
    rw [crlfLines_cons, find_headerEnd_line hline, find_headerEnd_crlf, hn]
    · rw [byteLen_crlfLines_cons, ← hlen]
      simp only [Option.map_some, Option.some.injEq]
      omega
    · rw [crlfLines_cons]
      exact not_crlf_isPrefixOf hne hnext _

/-- The body begins behind it. -/
theorem bodyStart_lines {line : List Char} {lines : List (List Char)}
    (h : ∀ l ∈ line :: lines, l ≠ [] ∧ '\n' ∉ l) (rest : List Char) :
    bodyStart (crlfLines (line :: lines) ++ '\r' :: '\n' :: rest) =
        byteLen (crlfLines (line :: lines)) + 2 := by
  obtain ⟨n, hn, hlen⟩ := Option.map_eq_some_iff.mp (find_headerEnd_lines h rest)
  rw [bodyStart, hn, ← hlen]
  rfl

theorem newline_not_mem_joinSpace {words : List (List Char)} (h : ∀ w ∈ words, '\n' ∉ w) :
    '\n' ∉ joinSpace words := by
  induction words with
  | nil => simp [joinSpace]
  | cons word rest ih =>
    obtain ⟨hword, hrest⟩ := List.forall_mem_cons.mp h
    cases rest with
    | nil => simpa [joinSpace] using hword
    | cons next rest =>
      rw [joinSpace_cons_cons]
      simp [hword, ih hrest]

/-! ## The headers -/

/-- The line of a clean header. -/
theorem readHeaders_headerLine {name value : List Char} (h : CleanHeader name value)
    (lines : List (List Char)) (headers : Headers) (n : ℕ) :
    readHeaders (RtspResponse.headerLine name value :: lines) headers n =
      readHeaders lines (headers.insert name value)
        (if isContentLength name then (parseUnsigned USIZE_VALUES value).getD 0 else n) := by
  have hne : RtspResponse.headerLine name value ≠ [] := by simp [RtspResponse.headerLine]
  rw [readHeaders, if_neg hne, RtspResponse.headerLine, splitOnce_append h.name_colon]
  simp only [trim_cons_space, h.name_trim, h.value_trim]

/-- The headers are collected **one by one**. -/
theorem readHeaders_entries {entries : List (Sigma fun _ : List Char => List Char)}
    (h : ∀ e ∈ entries, CleanHeader e.1 e.2 ∧ isContentLength e.1 = false)
    (lines : List (List Char)) (headers : Headers) (n : ℕ) :
    readHeaders ((entries.map fun e => RtspResponse.headerLine e.1 e.2) ++ lines) headers n =
      readHeaders lines (entries.foldl (fun headers e => headers.insert e.1 e.2) headers) n := by
  induction entries generalizing headers with
  | nil => rfl
  | cons e entries ih =>
    obtain ⟨⟨hclean, hname⟩, hrest⟩ := List.forall_mem_cons.mp h
    rw [List.map_cons, List.cons_append, readHeaders_headerLine hclean, hname, List.foldl_cons]
    exact ih hrest _

/-- What was put in is found, whatever the order. -/
theorem lookup_foldl_insert {entries : List (Sigma fun _ : List Char => List Char)}
    (h : entries.NodupKeys) (headers : Headers) (name : List Char) :
    (entries.foldl (fun headers e => headers.insert e.1 e.2) headers).lookup name =
      (entries.dlookup name).or (headers.lookup name) := by
  induction entries generalizing headers with
  | nil => rfl
  | cons e entries ih =>
    obtain ⟨hnot, hrest⟩ := List.nodupKeys_cons.mp h
    rw [List.foldl_cons, ih hrest]
    by_cases hname : name = e.1
    · obtain rfl := hname
      rw [List.dlookup_eq_none.mpr hnot, List.dlookup_cons_eq, AList.lookup_insert]
      rfl
    · rw [AList.lookup_insert_ne hname, List.dlookup_cons_ne _ _ hname]

/-- A name that the filter lets pass is found in what it lets pass. -/
theorem dlookup_filter {p : List Char → Bool}
    (entries : List (Sigma fun _ : List Char => List Char)) {name : List Char} (h : p name = true) :
    (entries.filter fun e => p e.1).dlookup name = entries.dlookup name := by
  induction entries with
  | nil => rfl
  | cons e entries ih =>
    by_cases hname : name = e.1
    · obtain rfl := hname
      rw [List.filter_cons, if_pos h, List.dlookup_cons_eq, List.dlookup_cons_eq]
    · rw [List.dlookup_cons_ne _ _ hname, ← ih]
      by_cases hp : p e.1 = true
      · rw [List.filter_cons, if_pos hp, List.dlookup_cons_ne _ _ hname]
      · rw [List.filter_cons, if_neg hp]

/-! ## The round trip -/

theorem isWord_digits (n : ℕ) : IsWord (RtspResponse.digits n) := isWord_toString n

/-- The header that is written for a body is clean. -/
theorem cleanHeader_contentLength (n : ℕ) : CleanHeader CONTENT_LENGTH (RtspResponse.digits n) where
  name_line := by decide
  value_line := newline_not_mem_toString n
  name_trim := by decide
  value_trim := (isWord_digits n).unspaced.trim_eq
  name_colon := by decide

namespace RtspResponse

/-- What is asked of a response. -/
structure Clean (r : RtspResponse) : Prop where
  /-- The reason is a phrase. -/
  reason : IsPhrase r.reasonPhrase
  /-- The headers are clean. -/
  headers : ∀ e ∈ r.headers.entries, CleanHeader e.1 e.2
  /-- The body is absent or not empty. -/
  body : r.body ≠ some []

theorem Clean.of_new {statusCode : UInt32} {reason : List Char} (h : IsPhrase reason) :
    (new statusCode reason).Clean where
  reason := h
  headers _ he := by cases he
  body := by simp [new]

theorem Clean.header {r : RtspResponse} {key value : List Char} (h : r.Clean)
    (hheader : CleanHeader key value) :
    (r.header key value).Clean where
  reason := h.reason
  headers e he := by
    rw [RtspResponse.header, AList.entries_insert] at he
    rcases List.mem_cons.mp he with rfl | he
    · exact hheader
    · exact h.headers e ((List.kerase_sublist _ _).subset he)
  body := h.body

theorem Clean.setBody {r : RtspResponse} {body : List Char} (h : r.Clean) (hbody : body ≠ []) :
    (r.setBody body).Clean where
  reason := h.reason
  headers := h.headers
  body := fun heq => hbody (Option.some.inj heq)

/-- What comes back: all but the header with the length of the body. -/
structure SameAs (r r' : RtspResponse) : Prop where
  statusCode : r'.statusCode = r.statusCode
  reasonPhrase : r'.reasonPhrase = r.reasonPhrase
  version : r'.version = r.version
  headers : ∀ name, isContentLength name = false → r'.headers.lookup name = r.headers.lookup name
  body : r'.body = r.body

variable {r : RtspResponse} {entries : List (Sigma fun _ : List Char => List Char)}

theorem toText_eq (r : RtspResponse) (entries : List (Sigma fun _ : List Char => List Char)) :
    r.toText entries = crlfLines (r.headLines entries) ++ '\r' :: '\n' :: r.body.getD [] := rfl

/-- The words of the first line. -/
theorem wordsOf_statusLine (h : IsPhrase r.reasonPhrase) :
    ∃ code words, wordsOf r.statusLine = r.version :: code :: words ∧
      code.val = digits r.statusCode.toNat ∧ words ≠ [] ∧
          joinSpace (words.map Subtype.val) = r.reasonPhrase := by
  obtain ⟨reason, hne, hwords, hreason⟩ := h
  have hline : r.statusLine = joinSpace (r.version.val :: digits r.statusCode.toNat :: reason) := by
    obtain ⟨w, reason, rfl⟩ := List.exists_cons_of_ne_nil hne
    simp [statusLine, hreason, joinSpace, List.intercalate]
  have hsplit : (wordsOf r.statusLine).map Subtype.val =
      r.version.val :: digits r.statusCode.toNat :: reason := by
    rw [map_val_wordsOf, hline, splitWhitespace_joinSpace]
    intro w hw
    rcases List.mem_cons.mp hw with rfl | hw
    · exact r.version.property
    · rcases List.mem_cons.mp hw with rfl | hw
      · exact isWord_digits _
      · exact hwords w hw
  obtain ⟨version, rest, hlist, hversion, hrest⟩ := List.map_eq_cons_iff.mp hsplit
  obtain ⟨code, words, rfl, hcode, hmap⟩ := List.map_eq_cons_iff.mp hrest
  refine ⟨code, words, ?_, hcode, fun hnil => hne ?_, ?_⟩
  · rw [hlist, Subtype.ext hversion]
  · rw [← hmap, hnil, List.map_nil]
  · rw [hmap, hreason]

theorem headerLine_line {name value : List Char} (h : CleanHeader name value) :
    headerLine name value ≠ [] ∧ '\n' ∉ headerLine name value := by
  refine ⟨by simp [headerLine], ?_⟩
  simp [headerLine, h.name_line, h.value_line]

theorem statusLine_line (h : IsPhrase r.reasonPhrase) :
    r.statusLine ≠ [] ∧ '\n' ∉ r.statusLine := by
  obtain ⟨words, -, hwords, hreason⟩ := h
  have hjoin : '\n' ∉ joinSpace words := newline_not_mem_joinSpace fun w hw =>
    (hwords w hw).unspaced.newline_not_mem
  refine ⟨by simp [statusLine], ?_⟩
  simp [statusLine, r.version.property.unspaced.newline_not_mem,
    (isWord_digits _).unspaced.newline_not_mem, hreason, hjoin]

/-- The lines of the header are lines: none is empty, and none ends before its end. -/
theorem headLines_lines (h : r.Clean) (hentries : entries.Perm r.headers.entries) :
    ∀ l ∈ r.headLines entries, l ≠ [] ∧ '\n' ∉ l := by
  intro l hl
  rcases List.mem_append.mp hl with hl | hl
  · rcases List.mem_cons.mp hl with rfl | hl
    · exact statusLine_line h.reason
    · obtain ⟨e, he, rfl⟩ := List.mem_map.mp hl
      exact headerLine_line (h.headers e (hentries.mem_iff.mp (List.mem_filter.mp he).1))
  · obtain ⟨body, -, rfl⟩ := Option.map_eq_some_iff.mp (Option.mem_toList.mp hl)
    exact headerLine_line (cleanHeader_contentLength _)

/-- The lines of the text: those of the header, an empty one, and those of the body. -/
theorem lines_toText (h : r.Clean) (hentries : entries.Perm r.headers.entries) :
    lines (r.toText entries) = r.headLines entries ++ [] :: lines (r.body.getD []) := by
  rw [toText_eq, crlfLines, lines_crlf_append fun l hl => (headLines_lines h hentries l hl).2]
  congr 1
  have hempty : lines ([] ++ '\r' :: '\n' :: r.body.getD []) = [] :: lines (r.body.getD []) :=
    lines_append_crlf List.not_mem_nil _
  exact hempty

/-- The body is cut out as it was written. -/
theorem readBody_toText (h : r.Clean) (hentries : entries.Perm r.headers.entries)
    (hfit : byteLen (r.toText entries) < USIZE_VALUES) :
    readBody ((r.body.map byteLen).getD 0) (r.toText entries) = some r.body := by
  have hstart : bodyStart (r.toText entries) = byteLen (crlfLines (r.headLines entries)) + 2 :=
    bodyStart_lines (headLines_lines h hentries) _
  have hlen : byteLen (r.toText entries) =
      bodyStart (r.toText entries) + byteLen (r.body.getD []) := by
    rw [hstart, toText_eq]
    rw [byteLen_append, byteLen_crlf]
    omega
  have hbody := h.body
  rw [readBody]
  rcases hb : r.body with _ | body
  · rw [hb] at hlen
    rw [if_neg (by simp), restOfBody, if_neg (by rw [hlen]; simp)]
  · rw [hb] at hlen hbody
    have hpos : 0 < byteLen body := byteLen_pos fun hnil => hbody (by rw [hnil])
    have htext : r.toText entries = (crlfLines (r.headLines entries) ++ ['\r', '\n']) ++
        (body ++ []) := by
      rw [toText_eq, hb]
      simp
    have hfront : bodyStart (r.toText entries) =
        byteLen (crlfLines (r.headLines entries) ++ ['\r', '\n']) := by
      rw [hstart, byteLen_append]
      rfl
    simp only [Option.map_some, Option.getD_some] at hlen ⊢
    rw [if_pos hpos, Checked.addUsize_of_lt (by rw [← hlen]; exact hfit)]
    simp only [Option.bind_eq_bind, Option.bind_some]
    rw [if_pos hlen.ge, hfront, htext, sliceRange_append]
    rfl

/-- The headers that are read back, and the length. -/
theorem readHeaders_toText (h : r.Clean) (hentries : entries.Perm r.headers.entries)
    (hfit : byteLen (r.toText entries) < USIZE_VALUES) :
    ∃ headers, readHeaders ((r.headLines entries).tail ++ [] :: lines (r.body.getD [])) ∅ 0 =
        (headers, (r.body.map byteLen).getD 0) ∧
      ∀ name, isContentLength name = false → headers.lookup name = r.headers.lookup name := by
  have hnodup : entries.NodupKeys := (List.perm_nodupKeys hentries).mpr r.headers.nodupKeys
  have hclean : ∀ e ∈ entries.filter (fun e => !isContentLength e.1),
      CleanHeader e.1 e.2 ∧ isContentLength e.1 = false := by
    intro e he
    obtain ⟨hmem, hname⟩ := List.mem_filter.mp he
    exact ⟨h.headers e (hentries.mem_iff.mp hmem), by simpa using hname⟩
  have hlookup : ∀ name, isContentLength name = false →
      ((entries.filter fun e => !isContentLength e.1).foldl
        (fun headers e => headers.insert e.1 e.2) (∅ : Headers)).lookup name =
        r.headers.lookup name := by
    intro name hname
    rw [lookup_foldl_insert (hnodup.sublist List.filter_sublist),
      dlookup_filter (p := fun n => !isContentLength n) _ (by simp [hname]),
      List.perm_dlookup name hnodup hentries, AList.lookup_empty, Option.or_none]
    rfl
  rw [headLines, List.cons_append, List.tail_cons, List.append_assoc, readHeaders_entries hclean]
  generalize List.foldl _ _ _ = headers at hlookup ⊢
  rcases hb : r.body with _ | body
  · exact ⟨_, rfl, hlookup⟩
  · have hlen : byteLen body < USIZE_VALUES := by
      refine Nat.lt_of_le_of_lt ?_ hfit
      rw [toText_eq, hb, byteLen_append, byteLen_cons, byteLen_cons]
      simp only [Option.getD_some]
      omega
    refine ⟨headers.insert CONTENT_LENGTH (digits (byteLen body)), ?_, ?_⟩
    · simp only [Option.map_some, Option.toList_some, List.singleton_append]
      rw [readHeaders_headerLine (cleanHeader_contentLength _), if_pos (by decide), digits,
        parseUnsigned_toString hlen]
      rfl
    · intro name hname
      have hne : name ≠ CONTENT_LENGTH := by
        rintro rfl
        exact absurd hname (by decide)
      rw [AList.lookup_insert_ne hne, hlookup name hname]

/-- Every clean reply **survives**: what it is parsed to has the same status code, reason, version,
headers and body. (A text of Rust has less than `USIZE_VALUES` bytes.) -/
theorem parse_toText (h : r.Clean) (hentries : entries.Perm r.headers.entries)
    (hfit : byteLen (r.toText entries) < USIZE_VALUES) :
    ∃ r', RtspResponse.parse (r.toText entries) = some (some r') ∧ r.SameAs r' := by
  obtain ⟨headers, hread, hlookup⟩ := readHeaders_toText h hentries hfit
  obtain ⟨code, words, hwords, hcode, hne, hreason⟩ := wordsOf_statusLine h.reason
  obtain ⟨reason, rest, rfl⟩ := List.exists_cons_of_ne_nil hne
  have hlines : lines (r.toText entries) =
      r.statusLine :: ((r.headLines entries).tail ++ [] :: lines (r.body.getD [])) :=
        lines_toText h hentries
  have hstatus : parseUnsigned (2 ^ 32) code.val = some r.statusCode.toNat := by
    rw [hcode, digits]
    exact parseUnsigned_toString r.statusCode.toNat_lt
  refine ⟨{ statusCode := .ofNat r.statusCode.toNat
            reasonPhrase := joinSpace ((reason :: rest).map Subtype.val)
            version := r.version, headers, body := r.body },
    ?_, by simp, hreason, rfl, hlookup, rfl⟩
  rw [RtspResponse.parse, hlines]
  simp only [hwords, hstatus, hread, readBody_toText h hentries hfit, Option.map_some]

/-- A reply with a value that has colons in it, and a body of two lines. -/
def sampleReply : RtspResponse :=
  (((new 404 "Not Found".toList).header "CSeq".toList "2".toList).header "RTP-Info".toList
    "url=rtsp://h:554/s".toList).setBody "v=0\r\n\r\n".toList

theorem clean_sampleReply : sampleReply.Clean where
  reason := ⟨["Not".toList, "Found".toList], by simp, by decide, rfl⟩
  headers := by
    intro e he
    have hentries : sampleReply.headers.entries =
        [⟨"RTP-Info".toList, "url=rtsp://h:554/s".toList⟩, ⟨"CSeq".toList, "2".toList⟩] := rfl
    rw [hentries] at he
    rcases List.mem_cons.mp he with rfl | he
    · exact ⟨by decide, by decide, by decide, by decide, by decide⟩
    · obtain rfl := List.mem_singleton.mp he
      exact ⟨by decide, by decide, by decide, by decide, by decide⟩
  body := by simp [sampleReply, setBody]

end RtspResponse

end Messages

end VcpMediaServer
