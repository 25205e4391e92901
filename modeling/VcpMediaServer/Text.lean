import Mathlib.Data.List.DropRight
import Mathlib.Logic.Function.Iterate

/-!
# Text

The string functions of Rust's standard library, on lists of characters.

* `lines` — a line ends at a newline, which may have a carriage return in front of it.
* `splitWhitespace`, `trim`, `trimEndMatches`, `stripPrefix` — words, and what is taken off at the
  ends.
* `parseUnsigned` — a number of an unsigned type.
* `lines_append` — text in front of a newline is a line **of its own**.
-/

namespace Text

/-! ## Lines -/

/-- A line without the carriage return that its newline has in front of it. -/
def stripCr (line : List Char) : List Char :=
  if line.getLast? = some '\r' then line.dropLast else line

/-- The pieces between newlines as lines: the last one has no newline, and is no line if it is
empty. -/
def linesOf : List (List Char) → List (List Char)
  | [] => []
  | [last] => if last = [] then [] else [last]
  | line :: next :: rest => stripCr line :: linesOf (next :: rest)

/-- `str::lines`. -/
def lines (text : List Char) : List (List Char) := linesOf (text.splitOn '\n')

theorem linesOf_cons (line : List Char) {rest : List (List Char)} (h : rest ≠ []) :
    linesOf (line :: rest) = stripCr line :: linesOf rest := by
  cases rest with
  | nil => exact absurd rfl h
  | cons next rest => rfl

/-- Lines are found **one by one**. -/
theorem lines_append {line : List Char} (h : '\n' ∉ line) (rest : List Char) :
    lines (line ++ '\n' :: rest) = stripCr line :: lines rest := by
  rw [lines, List.splitOn_append_cons_self_of_not_mem h, linesOf_cons _ (List.splitOn_ne_nil _ _)]
  rfl

/-- A newline with a carriage return in front of it. -/
theorem lines_append_crlf {line : List Char} (h : '\n' ∉ line) (rest : List Char) :
    lines (line ++ '\r' :: '\n' :: rest) = line :: lines rest := by
  have hline : '\n' ∉ line ++ ['\r'] := by simp [h]
  have hlines := lines_append hline rest
  rw [List.append_assoc, List.cons_append, List.nil_append] at hlines
  rw [hlines, stripCr, if_pos (by simp), List.dropLast_concat]

@[simp] theorem lines_nil : lines [] = [] := rfl

/-- Lines that are written one by one are read back, whatever comes behind them. -/
theorem lines_crlf_append {ls : List (List Char)} (h : ∀ line ∈ ls, '\n' ∉ line)
    (rest : List Char) :
    lines ((ls.flatMap fun line => line ++ ['\r', '\n']) ++ rest) = ls ++ lines rest := by
  induction ls with
  | nil => rfl
  | cons line ls ih =>
    obtain ⟨hline, hls⟩ := List.forall_mem_cons.mp h
    have hlines := lines_append_crlf hline ((ls.flatMap fun line => line ++ ['\r', '\n']) ++ rest)
    rw [ih hls] at hlines
    rw [List.flatMap_cons, List.append_assoc, List.append_assoc]
    exact hlines

/-- Lines that are written one by one are read back. -/
theorem lines_crlf {ls : List (List Char)} (h : ∀ line ∈ ls, '\n' ∉ line) :
    lines (ls.flatMap fun line => line ++ ['\r', '\n']) = ls := by
  simpa using lines_crlf_append h []

theorem linesOf_append (front : List (List Char)) {rest : List (List Char)} (h : rest ≠ []) :
    linesOf (front ++ rest) = front.map stripCr ++ linesOf rest := by
  induction front with
  | nil => rfl
  | cons line front ih =>
    rw [List.cons_append, linesOf_cons line (List.append_ne_nil_of_right_ne_nil _ h), ih]
    rfl

/-- A text that ends with a newline does not go on. -/
theorem lines_append_newline (front rest : List Char) :
    lines (front ++ '\n' :: rest) = lines (front ++ ['\n']) ++ lines rest := by
  have hlines : ∀ rest, lines (front ++ '\n' :: rest) =
      (front.splitOn '\n').map stripCr ++ lines rest := by
    intro rest
    rw [lines, List.splitOn_append_cons_self, linesOf_append _ (List.splitOn_ne_nil _ _)]
    rfl
  rw [hlines rest, hlines [], lines_nil, List.append_nil]

/-! ## What stands in front -/

/-- Where there is room for a pattern and it is not there, what comes behind cannot complete it. -/
theorem not_isPrefixOf_append {α : Type} [BEq α] [LawfulBEq α] {pattern l : List α}
    (h : ¬ pattern.isPrefixOf l = true) (hlen : pattern.length ≤ l.length) (more : List α) :
    ¬ pattern.isPrefixOf (l ++ more) = true := by
  intro hfound
  have hfront := List.isPrefixOf_iff_prefix.mp hfound
  exact h (List.isPrefixOf_iff_prefix.mpr
    (List.prefix_of_prefix_length_le hfront (List.prefix_append l more) hlen))

/-! ## The last of a character -/

/-- A text is split at the last of its separators in one way. -/
theorem append_cons_inj {c : Char} {a a' b b' : List Char} (hb : c ∉ b) (hb' : c ∉ b') :
    a ++ c :: b = a' ++ c :: b' ↔ a = a' ∧ b = b' := by
  constructor
  · intro h
    rcases List.append_eq_append_iff.mp h with ⟨mid, ha, hmid⟩ | ⟨mid, ha, hmid⟩ <;> cases mid with
    | nil => simp_all
    | cons d mid => simp_all
  · rintro ⟨rfl, rfl⟩
    rfl

/-! ## Words -/

/-- `char::is_whitespace`. -/
def isWhitespace (c : Char) : Bool :=
  (9 ≤ c.toNat && c.toNat ≤ 13) || c.toNat ∈
    [0x20, 0x85, 0xA0, 0x1680, 0x2028, 0x2029, 0x202F, 0x205F, 0x3000] ||
    (0x2000 ≤ c.toNat && c.toNat ≤ 0x200A)

/-- `str::split_whitespace`. -/
def splitWhitespace (text : List Char) : List (List Char) :=
  (text.splitOnP isWhitespace).filter (· ≠ [])

theorem splitWhitespace_append {word : List Char} (hne : word ≠ [])
    (hword : ∀ c ∈ word, isWhitespace c = false) {c : Char} (hc : isWhitespace c = true)
    (rest : List Char) :
    splitWhitespace (word ++ c :: rest) = word :: splitWhitespace rest := by
  rw [splitWhitespace, List.splitOnP_append_cons_of_forall_mem hword c hc,
    List.filter_cons_of_pos (by simpa using hne)]
  rfl

theorem splitWhitespace_word {word : List Char} (hne : word ≠ [])
    (hword : ∀ c ∈ word, isWhitespace c = false) :
    splitWhitespace word = [word] := by
  rw [splitWhitespace, List.splitOnP_eq_singleton hword,
    List.filter_cons_of_pos (by simpa using hne)]
  rfl

/-- A word: a text that is not empty, without whitespace. -/
def IsWord (word : List Char) : Prop := word ≠ [] ∧ ∀ c ∈ word, isWhitespace c = false

-- the characters of the word are looked at, not all there are
instance (word : List Char) : Decidable (IsWord word) :=
  decidable_of_iff (word ≠ [] ∧ word.all (fun c => !isWhitespace c) = true) (by simp [IsWord])

theorem IsWord.splitWhitespace {word : List Char} (h : IsWord word) :
    splitWhitespace word = [word] :=
  splitWhitespace_word h.1 h.2

/-- A piece between separators has none in it. -/
theorem not_mem_of_mem_splitOnP {α : Type} {p : α → Bool} {l piece : List α}
    (h : piece ∈ l.splitOnP p) :
    ∀ x ∈ piece, p x = false := by
  induction l generalizing piece with
  | nil =>
    rw [List.splitOnP_nil, List.mem_singleton] at h
    simp [h]
  | cons a l ih =>
    rw [List.splitOnP_cons_eq_if_modifyHead] at h
    split at h
    · rcases List.mem_cons.mp h with rfl | h
      · simp
      · exact ih h
    · next ha =>
      obtain ⟨first, rest, hsplit⟩ := List.exists_cons_of_ne_nil (List.splitOnP_ne_nil p l)
      rw [hsplit, List.modifyHead_cons] at h
      rcases List.mem_cons.mp h with rfl | h
      · intro x hx
        rcases List.mem_cons.mp hx with rfl | hx
        · simpa using ha
        · exact ih (by rw [hsplit]; exact List.mem_cons_self) x hx
      · exact ih (by rw [hsplit]; exact List.mem_cons_of_mem _ h)

/-- A piece between separators is made of characters of the text. -/
theorem mem_of_mem_splitOn {c : Char} {text piece : List Char} (h : piece ∈ text.splitOn c) :
    ∀ d ∈ piece, d ∈ text := by
  have hjoin : ∀ {pieces : List (List Char)}, piece ∈ pieces →
      ∀ d ∈ piece, d ∈ [c].intercalate pieces := by
    intro pieces hpiece d hd
    induction pieces with
    | nil => cases hpiece
    | cons first rest ih =>
      cases rest with
      | nil =>
        obtain rfl := List.mem_singleton.mp hpiece
        simpa [List.intercalate] using hd
      | cons next rest =>
        rw [List.intercalate_cons_cons]
        rcases List.mem_cons.mp hpiece with rfl | hpiece
        · simp [hd]
        · simp [ih hpiece]
  rw [← @List.intercalate_splitOn _ text _ _ c]
  exact hjoin h

theorem isWord_of_mem_splitWhitespace {text word : List Char} (h : word ∈ splitWhitespace text) :
    IsWord word := by
  obtain ⟨hmem, hne⟩ := List.mem_filter.mp h
  exact ⟨by simpa using hne, not_mem_of_mem_splitOnP hmem⟩

theorem mem_of_mem_linesOf {pieces : List (List Char)} {line : List Char}
    (h : line ∈ linesOf pieces) :
    ∃ piece ∈ pieces, line ⊆ piece := by
  induction pieces with
  | nil => cases h
  | cons first rest ih =>
    by_cases hrest : rest = []
    · rw [hrest, linesOf] at h
      split at h
      · cases h
      · exact ⟨first, List.mem_cons_self, by rw [List.mem_singleton.mp h]; exact List.Subset.refl _⟩
    · rw [linesOf_cons first hrest] at h
      rcases List.mem_cons.mp h with rfl | h
      · refine ⟨first, List.mem_cons_self, ?_⟩
        rw [stripCr]
        split
        · exact List.dropLast_subset _
        · exact List.Subset.refl _
      · obtain ⟨piece, hpiece, hsub⟩ := ih h
        exact ⟨piece, List.mem_cons_of_mem _ hpiece, hsub⟩

/-- No line has a newline in it. -/
theorem newline_not_mem_of_mem_lines {text line : List Char} (h : line ∈ lines text) :
    '\n' ∉ line := by
  obtain ⟨piece, hpiece, hsub⟩ := mem_of_mem_linesOf h
  intro hmem
  simpa using not_mem_of_mem_splitOnP hpiece _ (hsub hmem)

/-- `join(" ")`. -/
def joinSpace (words : List (List Char)) : List Char := [' '].intercalate words

theorem joinSpace_cons_cons (word next : List Char) (rest : List (List Char)) :
    joinSpace (word :: next :: rest) = word ++ ' ' :: joinSpace (next :: rest) := by
  simp [joinSpace, List.intercalate]

/-- Words that are joined are split **into the same words**. -/
theorem splitWhitespace_joinSpace {words : List (List Char)} (h : ∀ w ∈ words, IsWord w) :
    splitWhitespace (joinSpace words) = words := by
  induction words with
  | nil => rfl
  | cons word rest ih =>
    obtain ⟨hword, hrest⟩ := List.forall_mem_cons.mp h
    cases rest with
    | nil => simpa [joinSpace] using hword.splitWhitespace
    | cons next rest =>
      rw [joinSpace_cons_cons, splitWhitespace_append hword.1 hword.2 (by decide), ih hrest]

/-- No whitespace in a text. -/
def Unspaced (text : List Char) : Prop := ∀ c ∈ text, isWhitespace c = false

instance (text : List Char) : Decidable (Unspaced text) :=
  decidable_of_iff (text.all (fun c => !isWhitespace c) = true) (by simp [Unspaced])

theorem IsWord.unspaced {word : List Char} (h : IsWord word) : Unspaced word := h.2

@[simp] theorem unspaced_append {a b : List Char} : Unspaced (a ++ b) ↔ Unspaced a ∧ Unspaced b :=
  List.forall_mem_append

@[simp] theorem unspaced_cons {c : Char} {text : List Char} :
    Unspaced (c :: text) ↔ isWhitespace c = false ∧ Unspaced text := List.forall_mem_cons

theorem Unspaced.newline_not_mem {text : List Char} (h : Unspaced text) : '\n' ∉ text := fun hmem =>
  absurd (h _ hmem) (by decide)

/-- A piece of a text without whitespace has none. -/
theorem Unspaced.of_mem_splitOn {text piece : List Char} {c : Char} (h : Unspaced text)
    (hpiece : piece ∈ text.splitOn c) : Unspaced piece :=
      fun d hd => h d (mem_of_mem_splitOn hpiece d hd)

/-- `str::trim_start`. -/
def trimStart (text : List Char) : List Char := text.dropWhile isWhitespace

/-- `str::trim_start_matches` of a text: it is stripped for as long as it is in front. -/
def trimStartMatches (front text : List Char) : List Char :=
  Nat.iterate (fun rest => if front.isPrefixOf rest then rest.drop front.length else rest)
    text.length text

/-- `str::trim_end_matches` of a character. -/
def trimEndMatches (c : Char) (text : List Char) : List Char := text.rdropWhile (· == c)

/-- `str::trim`. -/
def trim (text : List Char) : List Char := (trimStart text).rdropWhile isWhitespace

/-- A blank in front is trimmed. -/
theorem trim_cons_space (text : List Char) : trim (' ' :: text) = trim text := by
  simp [trim, trimStart, isWhitespace]

/-- What has no whitespace is not trimmed. -/
theorem Unspaced.trim_eq {text : List Char} (h : Unspaced text) : trim text = text := by
  have hfront : trimStart text = text := by
    rw [trimStart, List.dropWhile_eq_self_iff]
    intro hlen
    simp [h _ (List.getElem_mem hlen)]
  rw [trim, hfront, List.rdropWhile_eq_self_iff]
  intro hne
  simp [h _ (List.getLast_mem hne)]

theorem mem_of_mem_trim {c : Char} {text : List Char} (h : c ∈ trim text) : c ∈ text :=
  (List.dropWhile_sublist _).subset ((List.rdropWhile_prefix _ _).subset h)

/-- What was trimmed has no whitespace in front, nor behind. -/
theorem trim_trim (text : List Char) : trim (trim text) = trim text := by
  have hfront : trimStart (trim text) = trim text := by
    rw [trimStart, List.dropWhile_eq_self_iff]
    intro hlen
    -- the first character that is left is the first of the text that is no whitespace
    obtain ⟨rest, hrest⟩ : trim text <+: trimStart text := List.rdropWhile_prefix _ _
    have hne : trimStart text ≠ [] := by
      rw [← hrest]
      exact List.append_ne_nil_of_left_ne_nil (List.ne_nil_of_length_pos hlen) _
    have hhead := List.head_dropWhile_not isWhitespace hne
    have hsame : (trim text)[0] = (trimStart text).head hne := by
      simp only [← hrest]
      rw [List.head_append_of_ne_nil (List.ne_nil_of_length_pos hlen), List.head_eq_getElem]
    rw [hsame]
    simpa [trimStart] using hhead
  have hback : (trim text).rdropWhile isWhitespace = trim text := List.rdropWhile_idempotent _ _
  rw [trim, hfront, hback]

/-- `str::strip_prefix`. -/
def stripPrefix (front text : List Char) : Option (List Char) :=
  if front.isPrefixOf text then some (text.drop front.length) else none

theorem trimEndMatches_of_not_mem {c : Char} {text : List Char} (h : c ∉ text) :
    trimEndMatches c text = text := by
  refine List.rdropWhile_eq_self_iff.mpr fun hne hlast => h ?_
  rw [← eq_of_beq hlast]
  exact List.getLast_mem hne

/-- What is put in front is stripped. -/
theorem stripPrefix_append (front text : List Char) :
    stripPrefix front (front ++ text) = some text := by
  have hfront : front.isPrefixOf (front ++ text) := List.isPrefixOf_iff_prefix.mpr ⟨text, rfl⟩
  rw [stripPrefix, if_pos hfront, List.drop_left]

/-! ## Numbers -/

theorem isDigit_of_mem_toString {n : ℕ} {c : Char} (h : c ∈ (toString n).toList) :
    c.isDigit = true := by
  rw [Nat.toString_eq_repr, Nat.toList_repr] at h
  exact Nat.isDigit_of_mem_toDigits (by decide) (by decide) h

/-- A number in decimal is no line end. -/
theorem newline_not_mem_toString (n : ℕ) : '\n' ∉ (toString n).toList := fun hmem =>
  absurd (isDigit_of_mem_toString hmem) (by decide)

theorem underscore_not_mem_toString (n : ℕ) : '_' ∉ (toString n).toList := fun hmem =>
  absurd (isDigit_of_mem_toString hmem) (by decide)

theorem toString_injective {n m : ℕ} (h : (toString n).toList = (toString m).toList) : n = m := by
  rw [Nat.toString_eq_repr, Nat.toString_eq_repr, Nat.toList_repr, Nat.toList_repr] at h
  rw [← @Nat.ofDigitChars_ten_toDigits n, h, Nat.ofDigitChars_ten_toDigits]

/-- `parse` of an unsigned type with `bound` values: digits, with a plus sign in front of them or
none. -/
def parseUnsigned (bound : ℕ) (text : List Char) : Option ℕ :=
  let digits := match text with
    | '+' :: rest => rest
    | text => text
  if digits ≠ [] ∧ digits.all Char.isDigit then
    let n := digits.foldl (fun n c => n * 10 + (c.toNat - 48)) 0
    if n < bound then some n else none
  else none

theorem toString_ne_nil (n : ℕ) : (toString n).toList ≠ [] := by
  rw [Nat.toString_eq_repr, Nat.toList_repr]
  exact Nat.toDigits_ne_nil

/-- A number in decimal is a word. -/
theorem isWord_toString (n : ℕ) : IsWord (toString n).toList := by
  refine ⟨toString_ne_nil n, fun c hc => ?_⟩
  have hdigit := isDigit_of_mem_toString hc
  simp only [Char.isDigit, Bool.and_eq_true, decide_eq_true_eq, ge_iff_le, UInt32.le_iff_toNat_le]
    at hdigit
  have hlo : 48 ≤ c.toNat := hdigit.1
  have hhi : c.toNat ≤ 57 := hdigit.2
  simp only [isWhitespace, Bool.or_eq_false_iff, Bool.and_eq_false_iff, decide_eq_false_iff_not,
    List.mem_cons, List.not_mem_nil, or_false]
  omega

/-- A number that is written in decimal is **read back**. -/
theorem parseUnsigned_toString {bound n : ℕ} (h : n < bound) :
    parseUnsigned bound (toString n).toList = some n := by
  have hdigits : ∀ c ∈ (toString n).toList, c.isDigit = true :=
    fun c hc => isDigit_of_mem_toString hc
  have hvalue : (toString n).toList.foldl (fun n c => n * 10 + (c.toNat - 48)) 0 = n := by
    rw [Nat.toString_eq_repr, Nat.toList_repr]
    refine Eq.trans ?_ (@Nat.ofDigitChars_ten_toDigits n)
    rw [Nat.ofDigitChars_eq_foldl]
    simp only [Nat.mul_comm 10]
    rfl
  have hne := toString_ne_nil n
  generalize (toString n).toList = text at hdigits hvalue hne
  rw [parseUnsigned.eq_def]
  split
  · -- a sign is no digit
    exact absurd (hdigits '+' List.mem_cons_self) (by decide)
  · simp only [hvalue]
    rw [if_pos ⟨hne, List.all_eq_true.mpr hdigits⟩, if_pos h]

example : lines "a\r\n\nb\r".toList = ["a".toList, [], "b\r".toList] := by decide

end Text
