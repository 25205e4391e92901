import Mathlib.Data.List.AList
import VcpMediaServer.Accesses
import VcpMediaServer.RtspFraming
import VcpMediaServer.TextBytes

/-!
# Messages of RTSP

`messages.rs`: requests and responses as text. A parser looks for the length of the body in the
lines of the header, and cuts the body out of the text by that length. The server parses the text of
its own replies; `RtspRequest::parse` has no caller.

* `Messages.RtspRequest.parse`, `Messages.RtspResponse.parse` — the parsers. Where they panic the
  result is `none`, where they give up it is `some none`.
* `Messages.RtspResponse.toText` — the writer, in any order of the headers;
  `Messages.RtspResponse.written`, in the order of a map.
* `Messages.BodyFits` — the condition on a text: its body can be cut out.
* `Messages.RtspRequest.isSome_parse_iff`, `Messages.RtspResponse.isSome_parse_iff` — what panics.
-/

namespace VcpMediaServer

namespace Messages

open Text

/-- The headers, by their names. -/
abbrev Headers := AList fun _ : List Char => List Char

/-- A word, as `split_whitespace` gives it. -/
abbrev Word := {word : List Char // IsWord word}

/-- `split_whitespace`. -/
def wordsOf (text : List Char) : List Word :=
  (splitWhitespace text).attachWith IsWord fun _ h => isWord_of_mem_splitWhitespace h

theorem map_val_wordsOf (text : List Char) :
    (wordsOf text).map Subtype.val = splitWhitespace text := by
  simp [wordsOf]

/-- `RtspRequest`. -/
structure RtspRequest where
  /-- The first word of the first line. -/
  method : Word
  /-- The second one. -/
  url : Word
  /-- The third one. -/
  version : Word
  /-- The headers. -/
  headers : Headers
  /-- The body. -/
  body : Option (List Char)

/-- `RtspResponse`. It is made by `new` and by `parse` only, and the version is a word in both. -/
structure RtspResponse where
  /-- The status code. -/
  statusCode : UInt32
  /-- The reason. -/
  reasonPhrase : List Char
  /-- The version. -/
  version : Word
  /-- The headers. -/
  headers : Headers
  /-- The body. -/
  body : Option (List Char)

/-- The name of the header with the length of the body. -/
def CONTENT_LENGTH : List Char := "Content-Length".toList

/-- The end of a header. -/
def HEADER_END : List Char := ['\r', '\n', '\r', '\n']

/-- The name is that of the header with the length of the body. -/
def isContentLength (name : List Char) : Bool := eqIgnoreAsciiCase name CONTENT_LENGTH

/-! ## Reading -/

/-- The loop over the lines of the header: what it has collected, and the length it has read last.
-/
def readHeaders : List (List Char) → Headers → ℕ → Headers × ℕ
  | [], headers, contentLength => (headers, contentLength)
  | line :: lines, headers, contentLength =>
    if line = [] then (headers, contentLength)
    else
      match splitOnce ':' line with
      | none => readHeaders lines headers contentLength
      | some (key, value) =>
        let key := trim key
        let value := trim value
        readHeaders lines (headers.insert key value)
          (if isContentLength key then (parseUnsigned USIZE_VALUES value).getD 0 else contentLength)

/-- `body_start`. -/
def bodyStart (input : List Char) : ℕ := ((find HEADER_END input).map (· + 4)).getD (byteLen input)

/-- The body without a length, or with one that is too great. -/
def restOfBody (input : List Char) : Option (Option (List Char)) :=
  if bodyStart input < byteLen input then (sliceFrom (bodyStart input) input).map some
    else some none

/-- The body. -/
def readBody (contentLength : ℕ) (input : List Char) : Option (Option (List Char)) :=
  if 0 < contentLength then do
    let bodyEnd ← Checked.addUsize (bodyStart input) contentLength
    if bodyEnd ≤ byteLen input then (sliceRange (bodyStart input) bodyEnd input).map some
    else restOfBody input
  else restOfBody input

/-- `RtspRequest::parse`. -/
def RtspRequest.parse (input : List Char) : Option (Option RtspRequest) :=
  match lines input with
  | [] => some none
  | firstLine :: lines =>
    match wordsOf firstLine with
    | method :: url :: version :: _ =>
      let (headers, contentLength) := readHeaders lines ∅ 0
      (readBody contentLength input).map fun body => some { method, url, version, headers, body }
    | _ => some none

/-- `RtspResponse::parse`. -/
def RtspResponse.parse (input : List Char) : Option (Option RtspResponse) :=
  match lines input with
  | [] => some none
  | firstLine :: lines =>
    match wordsOf firstLine with
    | version :: code :: reason :: rest =>
      match parseUnsigned (2 ^ 32) code.val with
      | none => some none
      | some statusCode =>
        let (headers, contentLength) := readHeaders lines ∅ 0
        (readBody contentLength input).map fun body => some
          { statusCode := .ofNat statusCode,
            reasonPhrase := joinSpace ((reason :: rest).map Subtype.val), version, headers, body }
    | _ => some none

/-! ## What panics -/

/-- The length that a line announces, if it is one of that header. -/
def lineLength (line : List Char) : Option ℕ :=
  (splitOnce ':' line).bind fun (key, value) =>
    if isContentLength (trim key) then some ((parseUnsigned USIZE_VALUES (trim value)).getD 0)
      else none

/-- The length that is announced **last** in the header of a text. -/
def announcedLength (input : List Char) : ℕ :=
  ((((lines input).drop 1).takeWhile (· ≠ [])).filterMap lineLength).getLast?.getD 0

/-- The end of the body is a number, and where the text goes on there it is between two characters.
-/
def BodyFits (input : List Char) : Prop :=
  0 < announcedLength input →
    bodyStart input + announcedLength input < USIZE_VALUES ∧
      (bodyStart input + announcedLength input ≤ byteLen input →
        IsCharBoundary (bodyStart input + announcedLength input) input)

instance (input : List Char) : Decidable (BodyFits input) := inferInstanceAs (Decidable (_ → _))

/-- The loop ends with the length that the lines announce last. -/
theorem readHeaders_snd (lines : List (List Char)) (headers : Headers) (n : ℕ) :
    (readHeaders lines headers n).2 =
      ((lines.takeWhile (· ≠ [])).filterMap lineLength).getLast?.getD n := by
  induction lines generalizing headers n with
  | nil => rfl
  | cons line lines ih =>
    rw [readHeaders]
    by_cases hnil : line = []
    · simp [hnil]
    · rw [if_neg hnil, List.takeWhile_cons_of_pos (by simpa using hnil)]
      rcases hsplit : splitOnce ':' line with _ | ⟨key, value⟩
      · simp [lineLength, hsplit, ih]
      · by_cases hkey : isContentLength (trim key) = true
        · simp [lineLength, hsplit, hkey, ih, List.getLast?_cons]
        · simp [lineLength, hsplit, hkey, ih]

/-- The body begins between two characters. -/
theorem isCharBoundary_bodyStart (input : List Char) : IsCharBoundary (bodyStart input) input := by
  rw [bodyStart, isCharBoundary_iff]
  cases hfind : find HEADER_END input with
  | none => exact ⟨input, [], (List.append_nil input).symm, rfl⟩
  | some n =>
    obtain ⟨a, b, rfl, rfl⟩ := exists_of_find hfind
    exact ⟨a ++ HEADER_END, b, by rw [List.append_assoc], by simp [HEADER_END]; rfl⟩

theorem isSome_restOfBody (input : List Char) : (restOfBody input).isSome := by
  obtain ⟨a, b, htext, hlen⟩ := isCharBoundary_iff.mp (isCharBoundary_bodyStart input)
  rw [restOfBody]
  split
  · rw [Option.isSome_map, ← hlen, htext, sliceFrom_append]
    rfl
  · rfl

/-- What panics is the **end** of the body: the sum, and the slice. -/
theorem isSome_readBody_iff (n : ℕ) (input : List Char) :
    (readBody n input).isSome ↔
      (0 < n → bodyStart input + n < USIZE_VALUES ∧
        (bodyStart input + n ≤ byteLen input → IsCharBoundary (bodyStart input + n) input)) := by
  rw [readBody]
  by_cases hn : 0 < n
  · rw [if_pos hn]
    by_cases hsum : bodyStart input + n < USIZE_VALUES
    · rw [Checked.addUsize_of_lt hsum]
      simp only [hn, hsum, true_and, forall_const, Option.bind_eq_bind, Option.bind_some]
      split
      · next hle =>
        rw [Option.isSome_map,
          sliceRange_isSome_iff (isCharBoundary_bodyStart input) (Nat.le_add_right _ _)]
        exact ⟨fun h _ => h, fun h => h hle⟩
      · next hgt => simp [isSome_restOfBody, hgt]
    · rw [Checked.addUsize_of_not_lt hsum]
      simp [hn, hsum]
  · simp [hn, isSome_restOfBody]

/-- The words of the first line. -/
def firstWords (input : List Char) : List Word := ((lines input).head?.map wordsOf).getD []

/-- `RtspRequest::parse` panics **exactly if** it comes to a body, which does not fit. -/
theorem RtspRequest.isSome_parse_iff (input : List Char) :
    (RtspRequest.parse input).isSome ↔ (3 ≤ (firstWords input).length → BodyFits input) := by
  rw [RtspRequest.parse, firstWords, BodyFits, announcedLength]
  rcases lines input with _ | ⟨firstLine, lines⟩
  · simp
  · simp only [List.head?_cons, Option.map_some, Option.getD_some, List.drop_one, List.tail_cons]
    rcases wordsOf firstLine with _ | ⟨method, _ | ⟨url, _ | ⟨version, rest⟩⟩⟩
    · simp
    · simp
    · simp
    · dsimp only
      rw [Option.isSome_map, isSome_readBody_iff, readHeaders_snd]
      exact ⟨fun h _ => h, fun h => h (Nat.le_add_left 3 rest.length)⟩

/-- `RtspResponse::parse` panics at the same, where it has read a status code. -/
theorem RtspResponse.isSome_parse_iff (input : List Char) :
    (RtspResponse.parse input).isSome ↔
      (3 ≤ (firstWords input).length →
        (parseUnsigned (2 ^ 32) ((firstWords input)[1]?.elim [] Subtype.val)).isSome →
        BodyFits input) := by
  rw [RtspResponse.parse, firstWords, BodyFits, announcedLength]
  rcases lines input with _ | ⟨firstLine, lines⟩
  · simp
  · simp only [List.head?_cons, Option.map_some, Option.getD_some, List.drop_one, List.tail_cons]
    rcases wordsOf firstLine with _ | ⟨version, _ | ⟨code, _ | ⟨reason, rest⟩⟩⟩
    · simp
    · simp
    · simp
    · simp only [List.getElem?_cons_succ, List.getElem?_cons_zero, Option.elim_some]
      rcases parseUnsigned (2 ^ 32) code.val with _ | statusCode
      · simp
      · dsimp only
        rw [Option.isSome_map, isSome_readBody_iff, readHeaders_snd]
        exact ⟨fun h _ _ => h, fun h => h (Nat.le_add_left 3 rest.length) rfl⟩

/-! ## Writing -/

/-- The order in which a map gives its entries. It may be another one for every map. -/
structure HeaderOrder where
  /-- The entries, in the order of the iterator. -/
  visit : Headers → List (Sigma fun _ : List Char => List Char)
  /-- Every entry is given once. -/
  perm : ∀ headers, (visit headers).Perm headers.entries

/-- The order in which the headers came last. -/
def HeaderOrder.latestFirst : HeaderOrder := ⟨AList.entries, fun _ => List.Perm.refl _⟩

namespace RtspResponse

/-- `RtspResponse::new`. -/
def new (statusCode : UInt32) (reasonPhrase : List Char) : RtspResponse :=
  { statusCode, reasonPhrase,
    version := ⟨"RTSP/1.0".toList, by decide⟩, headers := ∅, body := none }

/-- `RtspResponse::header`. -/
def header (r : RtspResponse) (key value : List Char) : RtspResponse :=
  { r with headers := r.headers.insert key value }

/-- `RtspResponse::body`. -/
def setBody (r : RtspResponse) (body : List Char) : RtspResponse := { r with body := some body }

/-- `RtspResponse::with_cseq`. -/
def withCseq (r : RtspResponse) (cseq : List Char) : RtspResponse := r.header "CSeq".toList cseq

/-- A number in decimal. -/
def digits (n : ℕ) : List Char := (toString n).toList

/-- The line of a header. -/
def headerLine (name value : List Char) : List Char := name ++ ':' :: ' ' :: value

/-- The first line. -/
def statusLine (r : RtspResponse) : List Char :=
  r.version.val ++ ' ' :: digits r.statusCode.toNat ++ ' ' :: r.reasonPhrase

/-- The lines of the header. The map gives its entries in some order; the length of the body is
written for the body, and not from an entry. -/
def headLines (r : RtspResponse) (entries : List (Sigma fun _ : List Char => List Char)) :
    List (List Char) :=
  r.statusLine ::
    ((entries.filter fun e => !isContentLength e.1).map fun e => headerLine e.1 e.2) ++
      (r.body.map fun body => headerLine CONTENT_LENGTH (digits (byteLen body))).toList

/-- `RtspResponse::to_string`, for the order in which the map gives its entries. -/
def toText (r : RtspResponse) (entries : List (Sigma fun _ : List Char => List Char)) : List Char :=
  ((r.headLines entries).flatMap fun line => line ++ ['\r', '\n']) ++ '\r' :: '\n' :: r.body.getD []

/-- `RtspResponse::to_string`, for a map that gives its entries in that order. -/
def written (r : RtspResponse) (order : HeaderOrder) : List Char := r.toText (order.visit r.headers)

end RtspResponse

end Messages

end VcpMediaServer
