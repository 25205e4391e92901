import VcpMediaServer.RtspReplies
import VcpMediaServer.Utf8Pieces

/-!
# Reading a response

`RtspCommon::read_response`, by which the client side of RTSP reads its responses. Every read is
made text on its own, all of it, and what was read is not put back.

* `ResponseScan.read`, `readResponse` — the loop, on the reads of the connection.
* `ResponseScan.ofText_read` — the variables of the loop are told by the text.
* `ResponseText` — a response on the wire, with what makes it one.
* `readsExactly_iff` — the response is returned, and nothing of what follows is lost, **exactly if**
  a read ends where it does, no read ends within a character, and its end is told.
-/

namespace VcpMediaServer

open Text
open Messages (HEADER_END CONTENT_LENGTH isContentLength crlfLines)

/-! ## The loop -/

/-- The variables of the loop. -/
structure ResponseScan where
  /-- The text so far. -/
  response : List Char
  /-- The length of the body, if the header has one. -/
  contentLength : Option ℕ
  /-- The end of the header was seen. -/
  headersComplete : Bool
  deriving DecidableEq, Repr

/-- A line of the header. The name has to be spelled like this. -/
def scanHeaderLine (contentLength : Option ℕ) (line : List Char) : Option ℕ :=
  if "Content-Length:".toList.isPrefixOf line then
    match (line.splitOn ':')[1]? with
    | some value => parseUnsigned USIZE_VALUES (trim value)
    | none => contentLength
  else contentLength

/-- The lines of the header. -/
def scanHeaders (headers : List Char) (contentLength : Option ℕ) : Option ℕ :=
  (splitCrlf headers).foldl scanHeaderLine contentLength

namespace ResponseScan

/-- Before the first read. -/
def new : ResponseScan := ⟨[], none, false⟩

/-- The bytes of a read. The slice of the header ends where something was found, so it does not
panic. -/
def read (s : ResponseScan) (buffer : List UInt8) : ResponseScan :=
  let response := s.response ++ lossyChars 0 buffer
  if s.headersComplete then { s with response }
  else
    match find HEADER_END response with
    | none => { s with response }
    | some pos =>
      { response
        contentLength := scanHeaders ((sliceRange 0 pos response).getD []) s.contentLength
        headersComplete := true }

/-- The loop breaks. -/
def done (s : ResponseScan) : Bool :=
  s.headersComplete &&
    let bodyStart := ((find HEADER_END s.response).map (· + 4)).getD 0
    let bodyLength := byteLen s.response - bodyStart
    match s.contentLength with
    | some cl => cl ≤ bodyLength
    | none => HEADER_END.isSuffixOf s.response

end ResponseScan

/-- The loop of `read_response`: the text that is returned, and the reads that are left for the next
caller. There is no result where it **waits** for one more. A read of no bytes is the end of the
connection. -/
def readResponseFrom (s : ResponseScan) : List (List UInt8) → Option (List Char × List (List UInt8))
  | [] => none
  | buffer :: reads =>
    if buffer = [] then some (s.response, reads)
    else if (s.read buffer).done then some ((s.read buffer).response, reads)
    else readResponseFrom (s.read buffer) reads

/-- `RtspCommon::read_response`. -/
def readResponse (reads : List (List UInt8)) : Option (List Char × List (List UInt8)) :=
  readResponseFrom .new reads

example : readResponse ["RTSP/1.0 200 OK\r\nContent-Le".toUTF8.toList,
    "ngth: 2\r\n\r\nv".toUTF8.toList, [0x3D], [0x24]] =
    some ("RTSP/1.0 200 OK\r\nContent-Length: 2\r\n\r\nv=".toList, [[0x24]]) := by decide +kernel

/-! ## What the text tells -/

/-- The header of a text, if it is complete. -/
def headOf (text : List Char) : Option (List Char) :=
  (find HEADER_END text).map fun pos => (sliceRange 0 pos text).getD []

/-- The variables, as the text tells them. -/
def ResponseScan.ofText (text : List Char) : ResponseScan :=
  ⟨text, (headOf text).bind fun head => scanHeaders head none, (headOf text).isSome⟩

/-- The header is what is in front of its end. -/
theorem headOf_append {head : List Char} (rest : List Char)
    (h : find HEADER_END (head ++ (HEADER_END ++ rest)) = some (byteLen head)) :
    headOf (head ++ (HEADER_END ++ rest)) = some head := by
  have hslice : sliceRange 0 (byteLen head) (head ++ (HEADER_END ++ rest)) = some head := by
    simpa using sliceRange_append [] head (HEADER_END ++ rest)
  rw [headOf, h, Option.map_some, hslice, Option.getD_some]

/-- A header that is complete does not change. -/
theorem headOf_append_of_some {text head : List Char} (h : headOf text = some head)
    (more : List Char) :
    headOf (text ++ more) = some head := by
  obtain ⟨pos, hpos, rfl⟩ := Option.map_eq_some_iff.mp h
  obtain ⟨a, b, rfl, rfl⟩ := exists_of_find hpos
  have hmore := find_append hpos more
  rw [← h, headOf_append b hpos]
  rw [List.append_assoc, List.append_assoc] at hmore ⊢
  exact headOf_append (b ++ more) hmore

/-- A text with the end of a header in it has a header. -/
theorem headOf_ne_none (a b : List Char) : headOf (a ++ (HEADER_END ++ b)) ≠ none := by
  obtain ⟨pos, hpos⟩ := Option.isSome_iff_exists.mp (isSome_find HEADER_END a b)
  simp [headOf, hpos]

/-- The loop is not done before the header is complete. -/
theorem ResponseScan.done_ofText_of_none {text : List Char} (h : headOf text = none) :
    (ofText text).done = false := by
  simp [ofText, done, h]

/-- Every read leaves the variables as the text tells them. -/
theorem ResponseScan.ofText_read (text : List Char) (buffer : List UInt8) :
    (ofText text).read buffer = ofText (text ++ lossyChars 0 buffer) := by
  cases hhead : headOf text with
  | some head => simp [ofText, read, hhead, headOf_append_of_some hhead]
  | none =>
    simp only [ofText, read, hhead, Option.isSome_none, Bool.false_eq_true, if_false]
    cases hpos : find HEADER_END (text ++ lossyChars 0 buffer) <;> simp [headOf, hpos]

/-- The text of the reads. -/
def lossyText (reads : List (List UInt8)) : List Char := reads.flatMap (lossyChars 0)

@[simp] theorem lossyText_nil : lossyText [] = [] := rfl

@[simp] theorem lossyText_cons (buffer : List UInt8) (reads : List (List UInt8)) :
    lossyText (buffer :: reads) = lossyChars 0 buffer ++ lossyText reads := rfl

/-- The loop is done with the text of the last of these reads, and not before. -/
structure FirstDone (text : List Char) (front : List (List UInt8)) : Prop where
  ne_nil : front ≠ []
  done : (ResponseScan.ofText (text ++ lossyText front)).done = true
  not_before : ∀ f, f <+: front → f ≠ [] → f ≠ front →
    (ResponseScan.ofText (text ++ lossyText f)).done = false

/-- A first read with which the loop is done is the last. -/
theorem firstDone_cons_of_done {text : List Char} {buffer : List UInt8} {front : List (List UInt8)}
    (h : (ResponseScan.ofText (text ++ lossyChars 0 buffer)).done = true) :
    FirstDone text (buffer :: front) ↔ front = [] := by
  have hbuffer : (ResponseScan.ofText (text ++ lossyText [buffer])).done = true := by simpa using h
  refine ⟨?_, ?_⟩
  · intro hfirst
    by_contra hne
    have hnot := hfirst.not_before [buffer] (by simp) (by simp) (by simpa using Ne.symm hne)
    rw [hbuffer] at hnot
    cases hnot
  · rintro rfl
    refine ⟨by simp, hbuffer, fun f hf hne hproper => ?_⟩
    obtain ⟨b, f, rfl⟩ := List.exists_cons_of_ne_nil hne
    obtain ⟨rfl, hnil⟩ := List.cons_prefix_cons.mp hf
    exact absurd (congrArg _ (List.prefix_nil.mp hnil)) hproper

/-- Otherwise the others decide. -/
theorem firstDone_cons_of_not_done {text : List Char} {buffer : List UInt8}
    {front : List (List UInt8)}
    (h : ¬ (ResponseScan.ofText (text ++ lossyChars 0 buffer)).done = true) :
    FirstDone text (buffer :: front) ↔ FirstDone (text ++ lossyChars 0 buffer) front := by
  have hcons : ∀ f, text ++ lossyText (buffer :: f) =
    text ++ lossyChars 0 buffer ++ lossyText f := by simp
  refine ⟨?_, ?_⟩
  · intro hfirst
    have hdone := hfirst.done
    rw [hcons] at hdone
    refine ⟨?_, hdone, fun f hf _ hproper => ?_⟩
    · rintro rfl
      exact h (by simpa using hdone)
    · have hnot := hfirst.not_before (buffer :: f) (List.cons_prefix_cons.mpr ⟨rfl, hf⟩)
        (by simp) (by simpa using hproper)
      rwa [hcons] at hnot
  · intro hfirst
    refine ⟨by simp, by rw [hcons]; exact hfirst.done, fun f hf hne hproper => ?_⟩
    obtain ⟨b, f, rfl⟩ := List.exists_cons_of_ne_nil hne
    obtain ⟨rfl, htail⟩ := List.cons_prefix_cons.mp hf
    rw [hcons]
    by_cases hnil : f = []
    · simpa [hnil] using h
    · exact hfirst.not_before f htail hnil fun heq => hproper (by rw [heq])

/-- Reads that are texts: what counts is the text up to each of them. -/
theorem firstDone_map_encodeUtf8_iff {texts : List (List Char)} :
    FirstDone [] (texts.map encodeUtf8) ↔
      (ResponseScan.ofText texts.flatten).done = true ∧
        ∀ front, front <+: texts → front ≠ texts →
            (ResponseScan.ofText front.flatten).done = false := by
  have htext : ∀ ts : List (List Char), [] ++ lossyText (ts.map encodeUtf8) = ts.flatten :=
    flatMap_lossyChars_map
  refine ⟨?_, ?_⟩
  · intro hfirst
    have hdone := hfirst.done
    rw [htext] at hdone
    refine ⟨hdone, fun front hfront hproper => ?_⟩
    by_cases hnil : front = []
    · rw [hnil]
      rfl
    · rw [← htext]
      refine hfirst.not_before _ (hfront.map encodeUtf8) (by simpa using hnil) fun heq => ?_
      exact hproper (hfront.eq_of_length (by simpa using congrArg List.length heq))
  · rintro ⟨hdone, hfirst⟩
    refine ⟨?_, by rwa [htext], fun f hf _ hproper => ?_⟩
    · intro hnil
      rw [List.map_eq_nil_iff.mp hnil] at hdone
      cases hdone
    · obtain ⟨front, hfront, rfl⟩ := List.prefix_map_iff.mp hf
      rw [htext]
      exact hfirst front hfront fun heq => hproper (by rw [heq])

/-- The loop returns at the **first** read with which it is done. -/
theorem readResponseFrom_eq_some {text : List Char} {reads : List (List UInt8)}
    (hne : ∀ b ∈ reads, b ≠ []) {response : List Char} {next : List (List UInt8)} :
    readResponseFrom (.ofText text) reads = some (response, next) ↔
      ∃ front, reads = front ++ next ∧ response = text ++ lossyText front ∧
          FirstDone text front := by
  induction reads generalizing text with
  | nil =>
    refine ⟨fun h => (by cases h), ?_⟩
    rintro ⟨front, hreads, -, hfirst⟩
    exact absurd (List.append_eq_nil_iff.mp hreads.symm).1 hfirst.ne_nil
  | cons buffer reads ih =>
    obtain ⟨hbuffer, hreads⟩ := List.forall_mem_cons.mp hne
    rw [readResponseFrom, if_neg hbuffer, ResponseScan.ofText_read]
    by_cases hdone : (ResponseScan.ofText (text ++ lossyChars 0 buffer)).done = true
    · rw [if_pos hdone]
      refine ⟨?_, ?_⟩
      · intro h
        obtain ⟨rfl, rfl⟩ := Prod.mk.inj (Option.some.inj h)
        exact ⟨[buffer], rfl, by simp [ResponseScan.ofText], (firstDone_cons_of_done hdone).mpr rfl⟩
      · rintro ⟨front, hsplit, rfl, hfirst⟩
        obtain ⟨b, front, rfl⟩ := List.exists_cons_of_ne_nil hfirst.ne_nil
        obtain ⟨rfl, rfl⟩ := List.cons_eq_cons.mp hsplit
        obtain rfl := (firstDone_cons_of_done hdone).mp hfirst
        simp [ResponseScan.ofText]
    · rw [if_neg hdone, ih hreads]
      refine ⟨?_, ?_⟩
      · rintro ⟨front, rfl, rfl, hfirst⟩
        exact ⟨buffer :: front, rfl, by simp, (firstDone_cons_of_not_done hdone).mpr hfirst⟩
      · rintro ⟨front, hsplit, rfl, hfirst⟩
        obtain ⟨b, front, rfl⟩ := List.exists_cons_of_ne_nil hfirst.ne_nil
        obtain ⟨rfl, rfl⟩ := List.cons_eq_cons.mp hsplit
        exact ⟨front, rfl, by simp, (firstDone_cons_of_not_done hdone).mp hfirst⟩

/-! ## A response -/

/-- A line has no line end in it. -/
def IsLine (line : List Char) : Prop := '\r' ∉ line ∧ '\n' ∉ line

instance (line : List Char) : Decidable (IsLine line) := inferInstanceAs (Decidable (_ ∧ _))

/-- Lines with line ends between them, and one behind the last. -/
theorem crlfLines_eq_joinCrlf (line : List Char) (lines : List (List Char)) :
    crlfLines (line :: lines) = joinCrlf (line :: lines) ++ ['\r', '\n'] := by
  induction lines generalizing line with
  | nil => simp [crlfLines, joinCrlf]
  | cons next lines ih => simpa [joinCrlf_cons_cons, crlfLines] using ih next

/-- A line is one of the name exactly if that is in front of its colon. -/
theorem contentLength_isPrefixOf_iff {name value : List Char} (h : ':' ∉ name) :
    "Content-Length:".toList.isPrefixOf (name ++ ':' :: value) = true ↔ name = CONTENT_LENGTH := by
  have hprefix : "Content-Length:".toList = CONTENT_LENGTH ++ [':'] := by decide
  rw [List.isPrefixOf_iff_prefix, hprefix]
  refine ⟨?_, ?_⟩
  · rintro ⟨rest, hrest⟩
    have hleft : splitOnce ':' (CONTENT_LENGTH ++ ':' :: rest) = some (CONTENT_LENGTH, rest) :=
      splitOnce_append (by decide) rest
    rw [List.append_assoc, List.singleton_append] at hrest
    rw [hrest, splitOnce_append h] at hleft
    exact (Prod.mk.inj (Option.some.inj hleft)).1
  · rintro rfl
    exact ⟨value, by rw [List.append_assoc, List.singleton_append]⟩

/-- A response on the wire: a status line, headers, and a body, whose length in bytes the header
announces. -/
structure ResponseText where
  /-- The status line. -/
  statusLine : List Char
  /-- The headers: a name, and what is behind its colon. -/
  headers : List (List Char × List Char)
  /-- The body; without one it is empty. -/
  body : List Char
  /-- The status line begins with the protocol. -/
  protocol : "RTSP/".toList <+: statusLine
  /-- The status line is a line. -/
  statusLine_line : IsLine statusLine
  /-- A header is a line. -/
  header_line : ∀ h ∈ headers, IsLine h.1 ∧ IsLine h.2
  /-- A name has no colon. -/
  name_colon : ∀ h ∈ headers, ':' ∉ h.1
  /-- What is announced is the length of the body. Names of headers have no case. -/
  announced : ∀ h ∈ headers, isContentLength h.1 = true →
    parseUnsigned USIZE_VALUES (trim h.2) = some (encodeUtf8 body).length
  /-- A body is announced. -/
  announces : body ≠ [] → ∃ h ∈ headers, isContentLength h.1 = true

namespace ResponseText

/-- The lines in front of the body. -/
def lines (r : ResponseText) : List (List Char) :=
  r.statusLine :: r.headers.map fun h => h.1 ++ ':' :: h.2

/-- The text. -/
def text (r : ResponseText) : List Char := crlfLines r.lines ++ '\r' :: '\n' :: r.body

/-- The bytes. -/
def bytes (r : ResponseText) : List UInt8 := encodeUtf8 r.text

/-- A header that announces the length is spelled as `read_response` spells it. -/
def NamesLength (r : ResponseText) : Prop := ∃ h ∈ r.headers, h.1 = CONTENT_LENGTH

instance (r : ResponseText) : Decidable r.NamesLength := inferInstanceAs (Decidable (∃ h ∈ _, _))

/-- The end of the response is told by what is in front of it, or there is nothing that has to tell
it. Where the name is spelled in another way that is a matter of luck: the body ends as a header
does, and no read before the last one happened to. -/
def EndTold (r : ResponseText) (texts : List (List Char)) : Prop :=
  r.NamesLength ∨ r.body = [] ∨
    HEADER_END <:+ r.text ∧ ∀ front, front <+: texts → front ≠ texts →
      ¬ HEADER_END <:+ front.flatten

/-- The reads are cut well: up to the end of the response they are texts, and its end is told. -/
def CutsWell (r : ResponseText) (reads : List (List UInt8)) : Prop :=
  ∃ texts next, reads = texts.map encodeUtf8 ++ next ∧ texts.flatten = r.text ∧ r.EndTold texts

/-- The response is returned, and what is behind it is what the next read is of. -/
def ReadsExactly (r : ResponseText) (behind : List UInt8) (reads : List (List UInt8)) : Prop :=
  ∃ next, readResponse reads = some (r.text, next) ∧ next.flatten = behind

variable (r : ResponseText)

/-- The text in front of the end of the header. -/
def head : List Char := joinCrlf r.lines

theorem lines_line : ∀ l ∈ r.lines, l ≠ [] ∧ IsLine l := by
  intro l hl
  rcases List.mem_cons.mp hl with rfl | hl
  · refine ⟨?_, r.statusLine_line⟩
    rintro hnil
    have := r.protocol
    rw [hnil] at this
    cases List.prefix_nil.mp this
  · obtain ⟨h, hh, rfl⟩ := List.mem_map.mp hl
    obtain ⟨hname, hvalue⟩ := r.header_line h hh
    refine ⟨by simp, ?_⟩
    simp [IsLine, hname.1, hname.2, hvalue.1, hvalue.2]

theorem text_eq : r.text = r.head ++ (HEADER_END ++ r.body) := by
  rw [text, head, lines, crlfLines_eq_joinCrlf]
  simp [HEADER_END]

/-- The end of the header is found where it is. -/
theorem find_headerEnd : find HEADER_END r.text = some (byteLen r.head) := by
  obtain ⟨n, hn, hlen⟩ := Option.map_eq_some_iff.mp
    (Messages.find_headerEnd_lines (fun l hl => ⟨(r.lines_line l hl).1, (r.lines_line l hl).2.2⟩)
      r.body)
  have hhead : byteLen (crlfLines r.lines) = byteLen r.head + 2 := by
    rw [head, lines, crlfLines_eq_joinCrlf, byteLen_append]
    rfl
  have hn' : n = byteLen r.head := by
    change n + 2 = byteLen (crlfLines r.lines) at hlen
    omega
  rw [← hn']
  exact hn

/-- What has arrived of a response has no complete header, or all of it and something of the body.
-/
theorem headOf_of_prefix {part : List Char} (h : part <+: r.text) :
    headOf part = none ∨
      ∃ body, part = r.head ++ (HEADER_END ++ body) ∧ body <+: r.body ∧
          headOf part = some r.head := by
  cases hpos : find HEADER_END part with
  | none => exact .inl (by rw [headOf, hpos]; rfl)
  | some pos =>
    obtain ⟨more, hmore⟩ := h
    obtain ⟨a, body, rfl, hlen⟩ := exists_of_find hpos
    have hfind := find_append hpos more
    rw [hmore, r.find_headerEnd] at hfind
    -- two fronts of the text that are of the same length
    have hcut : splitAtByte (byteLen a) (a ++ (HEADER_END ++ body ++ more)) =
        splitAtByte (byteLen r.head) r.text := by
      rw [hlen, ← Option.some.inj hfind, ← hmore]
      simp only [List.append_assoc]
    rw [splitAtByte_append, r.text_eq, splitAtByte_append] at hcut
    obtain ⟨rfl, hrest⟩ := Prod.mk.inj (Option.some.inj hcut)
    refine .inr ⟨body, rfl, ⟨more, ?_⟩, headOf_append body (by rw [hpos, hlen])⟩
    exact List.append_cancel_left ((List.append_assoc _ _ _).symm.trans hrest)

/-! ### The length -/

/-- The line of a header. -/
theorem scanHeaderLine_header {h : List Char × List Char} (hh : h ∈ r.headers) (cl : Option ℕ) :
    scanHeaderLine cl (h.1 ++ ':' :: h.2) =
        if h.1 = CONTENT_LENGTH then some (encodeUtf8 r.body).length else cl := by
  rw [scanHeaderLine]
  by_cases hname : h.1 = CONTENT_LENGTH
  · have hvalue := r.announced h hh (by rw [hname]; decide)
    have hsplit : (h.1 ++ ':' :: h.2).splitOn ':' = [h.1, h.2] := by
      rw [List.splitOn_append_cons_self_of_not_mem (r.name_colon h hh),
        List.splitOn_eq_singleton (colon_not_mem_of_parseUnsigned hvalue)]
    rw [if_pos ((contentLength_isPrefixOf_iff (r.name_colon h hh)).mpr hname), if_pos hname, hsplit]
    exact hvalue
  · rw [if_neg (mt (contentLength_isPrefixOf_iff (r.name_colon h hh)).mp hname), if_neg hname]

/-- The status line is none of them. -/
theorem scanHeaderLine_statusLine (cl : Option ℕ) : scanHeaderLine cl r.statusLine = cl := by
  obtain ⟨rest, hrest⟩ := r.protocol
  rw [scanHeaderLine, ← hrest, if_neg]
  simp

/-- The lines of headers: what a header announces is kept. -/
theorem foldl_scanHeaderLine {headers : List (List Char × List Char)} (h : headers ⊆ r.headers)
    (cl : Option ℕ) :
    (headers.map fun h => h.1 ++ ':' :: h.2).foldl scanHeaderLine cl =
      if ∃ h ∈ headers, h.1 = CONTENT_LENGTH then some (encodeUtf8 r.body).length else cl := by
  induction headers generalizing cl with
  | nil => simp
  | cons first headers ih =>
    obtain ⟨hfirst, hheaders⟩ := List.cons_subset.mp h
    rw [List.map_cons, List.foldl_cons, r.scanHeaderLine_header hfirst, ih hheaders]
    by_cases hname : first.1 = CONTENT_LENGTH
    · simp [hname]
    · have hcons : (∃ h ∈ first :: headers, h.1 = CONTENT_LENGTH) ↔
          ∃ h ∈ headers, h.1 = CONTENT_LENGTH := by
        simp [hname]
      rw [if_neg hname, if_congr hcons rfl rfl]

/-- The length is found in the header if it is named there as it is looked for. -/
theorem scanHeaders_head :
    scanHeaders r.head none = if r.NamesLength then some (encodeUtf8 r.body).length else none := by
  have hsplit : splitCrlf r.head = r.lines :=
    splitCrlf_joinCrlf (List.cons_ne_nil _ _) fun l hl => (r.lines_line l hl).2.1
  rw [scanHeaders, hsplit, lines, List.foldl_cons, r.scanHeaderLine_statusLine]
  exact r.foldl_scanHeaderLine (List.Subset.refl _) none

/-! ### When the loop is done -/

/-- With a complete header it is done when the body is, or when the text ends like a header. -/
theorem done_iff {body : List Char} (h : r.head ++ (HEADER_END ++ body) <+: r.text) :
    (ResponseScan.ofText (r.head ++ (HEADER_END ++ body))).done = true ↔
      if r.NamesLength then byteLen r.body ≤ byteLen body else HEADER_END <:+ r.head ++
          (HEADER_END ++ body) := by
  obtain ⟨pos, hpos⟩ := Option.isSome_iff_exists.mp (isSome_find HEADER_END r.head body)
  have hfind : find HEADER_END (r.head ++ (HEADER_END ++ body)) = some (byteLen r.head) := by
    obtain ⟨more, hmore⟩ := h
    rw [hpos, ← r.find_headerEnd, ← hmore, find_append hpos]
  have hhead := headOf_append body hfind
  have hlen : byteLen r.head + (byteLen HEADER_END + byteLen body) - (byteLen r.head + 4) =
      byteLen body := by
    have hend : byteLen HEADER_END = 4 := rfl
    omega
  by_cases hnames : r.NamesLength
  · simp [ResponseScan.ofText, ResponseScan.done, hhead, r.scanHeaders_head, hfind, hlen, hnames,
      length_encodeUtf8]
  · simp [ResponseScan.ofText, ResponseScan.done, hhead, r.scanHeaders_head, hnames]

/-- What has arrived of a response ends the loop if it is all of it, or, without a length that is
found, if it ends like a header. -/
theorem done_iff_of_prefix {part : List Char} (h : part <+: r.text) :
    (ResponseScan.ofText part).done = true ↔
        if r.NamesLength then part = r.text else HEADER_END <:+ part := by
  rcases r.headOf_of_prefix h with hnone | ⟨body, rfl, hbody, -⟩
  · rw [ResponseScan.done_ofText_of_none hnone]
    refine iff_of_false (by simp) ?_
    split
    · rintro rfl
      rw [r.text_eq] at hnone
      exact headOf_ne_none _ _ hnone
    · rintro ⟨a, rfl⟩
      exact headOf_ne_none a [] (by simpa using hnone)
  · rw [r.done_iff h]
    split
    · rw [r.text_eq]
      obtain ⟨more, hmore⟩ := hbody
      simp only [List.append_cancel_left_eq, ← hmore, byteLen_append]
      refine ⟨?_, ?_⟩
      · intro hle
        by_contra hne
        have := byteLen_pos fun hnil : more = [] => hne (by rw [hnil, List.append_nil])
        omega
      · intro heq
        rw [← byteLen_append, ← heq]
    · rfl

/-- Without a body, the response is all that ends like a header. -/
theorem eq_text_of_suffix (hbody : r.body = []) {part : List Char} (h : part <+: r.text)
    (hend : HEADER_END <:+ part) :
    part = r.text := by
  rcases r.headOf_of_prefix h with hnone | ⟨body, rfl, hprefix, -⟩
  · obtain ⟨a, rfl⟩ := hend
    exact absurd (by simpa using hnone) (headOf_ne_none a [])
  · rw [hbody, List.prefix_nil] at hprefix
    rw [r.text_eq, hbody, hprefix]

/-- A cut that is not the last leaves something of the text. -/
theorem flatten_ne_of_prefix {texts front : List (List Char)} (hne : ∀ t ∈ texts, t ≠ [])
    (h : front <+: texts) (hfront : front ≠ texts) : front.flatten ≠ texts.flatten := by
  obtain ⟨tail, rfl⟩ := h
  rcases tail with _ | ⟨t, tail⟩
  · exact absurd (List.append_nil front).symm hfront
  · have := hne t (by simp)
    simp [this]

/-- The end is told exactly if the loop is done with the last text, and not before. -/
theorem endTold_iff {texts : List (List Char)} (hne : ∀ t ∈ texts, t ≠ [])
    (htexts : texts.flatten = r.text) :
    r.EndTold texts ↔ FirstDone [] (texts.map encodeUtf8) := by
  have hpart : ∀ {front}, front <+: texts → front.flatten <+: r.text := by
    rintro front ⟨tail, rfl⟩
    rw [← htexts, List.flatten_append]
    exact List.prefix_append _ _
  rw [firstDone_map_encodeUtf8_iff, htexts, r.done_iff_of_prefix (List.prefix_refl _), EndTold]
  simp only [← Bool.not_eq_true]
  by_cases hnames : r.NamesLength
  · simp only [hnames, true_or, if_true, true_and, true_iff]
    intro front hfront hproper
    rw [r.done_iff_of_prefix (hpart hfront), if_pos hnames, ← htexts]
    exact flatten_ne_of_prefix hne hfront hproper
  · have hdone : ∀ front, front <+: texts →
        ((ResponseScan.ofText front.flatten).done = true ↔ HEADER_END <:+ front.flatten) :=
      fun front hfront => by rw [r.done_iff_of_prefix (hpart hfront), if_neg hnames]
    simp only [hnames, false_or, if_false]
    refine ⟨?_, ?_⟩
    · rintro (hbody | ⟨hend, hfirst⟩)
      · refine ⟨⟨r.head, by simp [r.text_eq, hbody]⟩, fun front hfront hproper hfrontDone => ?_⟩
        have heq := r.eq_text_of_suffix hbody (hpart hfront) ((hdone front hfront).mp hfrontDone)
        exact flatten_ne_of_prefix hne hfront hproper (heq.trans htexts.symm)
      · exact ⟨hend, fun front hfront hproper =>
          mt (hdone front hfront).mp (hfirst front hfront hproper)⟩
    · rintro ⟨hend, hfirst⟩
      exact .inr ⟨hend, fun front hfront hproper =>
        mt (hdone front hfront).mpr (hfirst front hfront hproper)⟩

/-- Reads that are texts are not empty texts. -/
theorem texts_ne_nil {texts : List (List Char)} {next : List (List UInt8)}
    (hne : ∀ b ∈ texts.map encodeUtf8 ++ next, b ≠ []) : ∀ t ∈ texts, t ≠ [] := by
  rintro t ht rfl
  exact hne [] (List.mem_append_left _ (List.mem_map_of_mem ht)) rfl

variable {r}

/-- However the response and what is behind it are cut into reads: the response is returned, and the
next read is of what is behind it, **exactly if** they are cut well. -/
theorem readsExactly_iff {behind : List UInt8} {reads : List (List UInt8)}
    (hne : ∀ b ∈ reads, b ≠ []) (hreads : reads.flatten = r.bytes ++ behind) :
    r.ReadsExactly behind reads ↔ r.CutsWell reads := by
  have hnew : readResponse reads = readResponseFrom (.ofText []) reads := rfl
  refine ⟨?_, ?_⟩
  · rintro ⟨next, hread, rfl⟩
    obtain ⟨front, rfl, htext, hfirst⟩ := (readResponseFrom_eq_some hne).mp (hnew.symm.trans hread)
    have hbytes : front.flatten = encodeUtf8 r.text :=
      List.append_cancel_right (List.flatten_append.symm.trans hreads)
    obtain ⟨texts, rfl, htexts⟩ :=
      (flatMap_lossyChars_eq_iff (fun b hb => hne b (List.mem_append_left _ hb)) hbytes).mp
        htext.symm
    exact ⟨texts, next, rfl, htexts, (r.endTold_iff (texts_ne_nil hne) htexts).mpr hfirst⟩
  · rintro ⟨texts, next, rfl, htexts, htold⟩
    have hfirst := (r.endTold_iff (texts_ne_nil hne) htexts).mp htold
    have htext : r.text = [] ++ lossyText (texts.map encodeUtf8) :=
      htexts.symm.trans (flatMap_lossyChars_map texts).symm
    refine ⟨next, hnew.trans ((readResponseFrom_eq_some hne).mpr ⟨_, rfl, htext, hfirst⟩), ?_⟩
    rw [List.flatten_append, flatten_map_encodeUtf8, htexts] at hreads
    exact List.append_cancel_left hreads

/-- A reply to `PLAY`. -/
def playReply : ResponseText where
  statusLine := "RTSP/1.0 200 OK".toList
  headers := [("CSeq".toList, " 5".toList), ("Session".toList, " 12345678".toList)]
  body := []
  protocol := by decide
  statusLine_line := by decide
  header_line := by decide
  name_colon := by decide
  announced := by decide
  announces h := absurd rfl h

/-- A reply to `DESCRIBE`, with a session that has an accent in its name. -/
def describeReply : ResponseText where
  statusLine := "RTSP/1.0 200 OK".toList
  headers := [("CSeq".toList, " 2".toList), ("Content-Length".toList, " 6".toList)]
  body := "s=é\r\n".toList
  protocol := by decide
  statusLine_line := by decide
  header_line := by decide
  name_colon := by decide
  announced := by decide +kernel
  announces := by decide

/-- A packet of media, with its framing. -/
def mediaPacket : List UInt8 := [0x24, 0, 0, 4, 0x80, 0x60, 0, 1]

/-- A reply in a read of its own. -/
theorem readsExactly_playReply :
    playReply.ReadsExactly mediaPacket [playReply.bytes, mediaPacket] :=
  (readsExactly_iff (by decide +kernel) (by decide +kernel)).mpr
    ⟨[playReply.text], [mediaPacket], rfl, List.append_nil _, .inr (.inl rfl)⟩

/-- Media in the read that has the reply to `PLAY` is swallowed, and the loop waits for more; and a
body that is cut within a character is returned with two replacement characters for it. -/
theorem not_readsExactly :
    ¬ playReply.ReadsExactly mediaPacket [playReply.bytes ++ mediaPacket] ∧
      ¬ describeReply.ReadsExactly []
          [describeReply.bytes.take 50, describeReply.bytes.drop 50] := by
  refine ⟨?_, ?_⟩
  · rintro ⟨next, hread, -⟩
    have hwaits : readResponse [playReply.bytes ++ mediaPacket] = none := by decide +kernel
    rw [hwaits] at hread
    cases hread
  · rintro ⟨next, hread, -⟩
    have hfst :
      (readResponse [describeReply.bytes.take 50, describeReply.bytes.drop 50]).map Prod.fst =
        some describeReply.text := by rw [hread]; rfl
    revert hfst
    decide +kernel

end ResponseText

end VcpMediaServer
