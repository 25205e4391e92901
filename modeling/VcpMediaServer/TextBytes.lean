import Mathlib.Algebra.GroupWithZero.Nat
import VcpMediaServer.Text

/-!
# Text by its bytes

A text of Rust is cut at positions that count bytes of UTF-8. A position inside of a character is no
place to cut at: the slice panics there.

* `byteLen`, `find` — the length, and where a pattern begins.
* `splitAtByte` — the text on both sides of a position; `none` inside of a character and behind the
  end.
* `sliceFrom`, `sliceRange` — slices, `none` where they panic.
* `sliceRange_isSome_iff` — the exact condition for a slice.
* `find_append` — what is found in a text is found in a longer one, and first.
* `splitCrlf_joinCrlf` — lines are split as they were joined.
-/

namespace Text

/-- `str::len`. -/
def byteLen (text : List Char) : ℕ := (text.map Char.utf8Size).sum

@[simp] theorem byteLen_nil : byteLen [] = 0 := rfl

@[simp] theorem byteLen_cons (c : Char) (text : List Char) :
    byteLen (c :: text) = c.utf8Size + byteLen text := by
  simp [byteLen]

@[simp] theorem byteLen_append (a b : List Char) : byteLen (a ++ b) = byteLen a + byteLen b := by
  simp [byteLen]

/-- A line end has two bytes. -/
theorem byteLen_crlf (rest : List Char) : byteLen ('\r' :: '\n' :: rest) = byteLen rest + 2 := by
  have hcr : '\r'.utf8Size = 1 := rfl
  have hlf : '\n'.utf8Size = 1 := rfl
  rw [byteLen_cons, byteLen_cons, hcr, hlf]
  omega

theorem byteLen_pos {text : List Char} (h : text ≠ []) : 0 < byteLen text := by
  obtain ⟨c, rest, rfl⟩ := List.exists_cons_of_ne_nil h
  have := c.utf8Size_pos
  rw [byteLen_cons]
  omega

/-! ## Cutting -/

/-- `str::split_at`. -/
def splitAtByte : ℕ → List Char → Option (List Char × List Char)
  | 0, text => some ([], text)
  | _ + 1, [] => none
  | n + 1, c :: rest =>
    if c.utf8Size ≤ n + 1 then (splitAtByte (n + 1 - c.utf8Size) rest).map fun (a, b) =>
      (c :: a, b) else none

/-- A text is cut **where it was put together**. -/
@[simp] theorem splitAtByte_append (a b : List Char) :
    splitAtByte (byteLen a) (a ++ b) = some (a, b) := by
  induction a with
  | nil => simp [splitAtByte]
  | cons c a ih =>
    obtain ⟨n, hn⟩ : ∃ n, c.utf8Size = n + 1 := ⟨c.utf8Size - 1, by have := c.utf8Size_pos; omega⟩
    have hlen : byteLen (c :: a) = n + byteLen a + 1 := by
      rw [byteLen_cons, hn]
      omega
    rw [hlen, List.cons_append, splitAtByte, if_pos (by omega), hn,
      show n + byteLen a + 1 - (n + 1) = byteLen a by omega, ih]
    rfl

theorem splitAtByte_eq_some {n : ℕ} {text a b : List Char} :
    splitAtByte n text = some (a, b) ↔ text = a ++ b ∧ byteLen a = n := by
  refine ⟨?_, ?_⟩
  · intro h
    induction text generalizing n a with
    | nil =>
      cases n with
      | zero =>
        obtain ⟨rfl, rfl⟩ := Prod.mk.inj (Option.some.inj h)
        exact ⟨rfl, rfl⟩
      | succ n => cases h
    | cons c rest ih =>
      cases n with
      | zero =>
        obtain ⟨rfl, rfl⟩ := Prod.mk.inj (Option.some.inj h)
        exact ⟨rfl, rfl⟩
      | succ n =>
        rw [splitAtByte, Option.ite_none_right_eq_some] at h
        obtain ⟨hle, h⟩ := h
        obtain ⟨⟨a', b'⟩, hrest, heq⟩ := Option.map_eq_some_iff.mp h
        obtain ⟨rfl, rfl⟩ := Prod.mk.inj heq
        obtain ⟨rfl, hlen⟩ := ih hrest
        refine ⟨rfl, ?_⟩
        rw [byteLen_cons]
        omega
  · rintro ⟨rfl, rfl⟩
    exact splitAtByte_append a b

/-- `str::is_char_boundary`, up to the end. -/
def IsCharBoundary (n : ℕ) (text : List Char) : Prop := (splitAtByte n text).isSome = true

instance (n : ℕ) (text : List Char) : Decidable (IsCharBoundary n text) :=
  inferInstanceAs (Decidable (_ = true))

theorem isCharBoundary_iff {n : ℕ} {text : List Char} :
    IsCharBoundary n text ↔ ∃ a b, text = a ++ b ∧ byteLen a = n := by
  refine ⟨?_, ?_⟩
  · intro h
    obtain ⟨⟨a, b⟩, h⟩ := Option.isSome_iff_exists.mp h
    exact ⟨a, b, splitAtByte_eq_some.mp h⟩
  · rintro ⟨a, b, rfl, rfl⟩
    simp [IsCharBoundary]

/-- `&text[a..]`. -/
def sliceFrom (a : ℕ) (text : List Char) : Option (List Char) := (splitAtByte a text).map Prod.snd

/-- `&text[a..b]`. -/
def sliceRange (a b : ℕ) (text : List Char) : Option (List Char) :=
  if a ≤ b then (splitAtByte b text).bind fun (front, _) => sliceFrom a front else none

@[simp] theorem sliceFrom_append (a b : List Char) : sliceFrom (byteLen a) (a ++ b) = some b := by
  simp [sliceFrom]

/-- The rest of a text begins at its end. -/
@[simp] theorem sliceFrom_byteLen (text : List Char) : sliceFrom (byteLen text) text = some [] := by
  simpa using sliceFrom_append text []

/-- A slice between two places to cut at. -/
theorem sliceRange_append (a b c : List Char) :
    sliceRange (byteLen a) (byteLen a + byteLen b) (a ++ (b ++ c)) = some b := by
  rw [sliceRange, if_pos (Nat.le_add_right _ _), ← byteLen_append, ← List.append_assoc,
    splitAtByte_append, Option.bind_some]
  exact sliceFrom_append a b

/-- A slice from a place to cut at panics **exactly where** its end is none. -/
theorem sliceRange_isSome_iff {a b : ℕ} {text : List Char} (ha : IsCharBoundary a text)
    (h : a ≤ b) :
    (sliceRange a b text).isSome ↔ IsCharBoundary b text := by
  refine ⟨?_, ?_⟩
  · intro hslice
    rw [sliceRange, if_pos h] at hslice
    obtain ⟨slice, hslice⟩ := Option.isSome_iff_exists.mp hslice
    obtain ⟨⟨front, rest⟩, hfront, -⟩ := Option.bind_eq_some_iff.mp hslice
    exact Option.isSome_iff_exists.mpr ⟨_, hfront⟩
  · intro hb
    obtain ⟨front, rest, rfl, rfl⟩ := isCharBoundary_iff.mp ha
    obtain ⟨front', rest', htext, rfl⟩ := isCharBoundary_iff.mp hb
    -- the shorter front is the front of the longer one
    obtain ⟨mid, rfl, -⟩ | ⟨mid, rfl, -⟩ := List.append_eq_append_iff.mp htext
    · rw [sliceRange, if_pos h, htext, splitAtByte_append]
      simp
    · rw [byteLen_append] at h
      obtain rfl : mid = [] := by
        by_contra hne
        have := byteLen_pos hne
        omega
      simp [sliceRange]

/-! ## Finding -/

/-- `str::find` of a text: where it begins first. -/
def find (pattern : List Char) : List Char → Option ℕ
  | [] => if pattern = [] then some 0 else none
  | c :: rest =>
    if pattern.isPrefixOf (c :: rest) then some 0 else (find pattern rest).map (· + c.utf8Size)

/-- What is found is there, and it is found at a place to cut at. -/
theorem exists_of_find {pattern text : List Char} {n : ℕ} (h : find pattern text = some n) :
    ∃ a b, text = a ++ (pattern ++ b) ∧ byteLen a = n := by
  induction text generalizing n with
  | nil =>
    rw [find, Option.ite_none_right_eq_some] at h
    obtain ⟨rfl, h⟩ := h
    obtain rfl := Option.some.inj h
    exact ⟨[], [], rfl, rfl⟩
  | cons c rest ih =>
    rw [find] at h
    split at h
    · next hfound =>
      obtain rfl := Option.some.inj h
      obtain ⟨b, hb⟩ := List.isPrefixOf_iff_prefix.mp hfound
      exact ⟨[], b, hb.symm, rfl⟩
    · obtain ⟨m, hm, rfl⟩ := Option.map_eq_some_iff.mp h
      obtain ⟨a, b, rfl, rfl⟩ := ih hm
      refine ⟨c :: a, b, rfl, ?_⟩
      rw [byteLen_cons, Nat.add_comm]

/-- What is there is found. -/
theorem isSome_find (pattern a b : List Char) : (find pattern (a ++ (pattern ++ b))).isSome := by
  induction a with
  | nil =>
    cases pattern with
    | nil => cases b <;> simp [find]
    | cons c pattern => simp [find]
  | cons c a ih =>
    rw [List.cons_append, find]
    split
    · rfl
    · rwa [Option.isSome_map]

/-- Where a text is found first, it is found first in a longer one. -/
theorem find_append {pattern text : List Char} {n : ℕ} (h : find pattern text = some n)
    (more : List Char) :
    find pattern (text ++ more) = some n := by
  induction text generalizing n with
  | nil =>
    rw [find, Option.ite_none_right_eq_some] at h
    obtain ⟨rfl, h⟩ := h
    cases more <;> simpa [find] using h
  | cons c rest ih =>
    rw [find] at h
    have hlonger : c :: rest <+: c :: (rest ++ more) := ⟨more, rfl⟩
    rw [List.cons_append, find]
    split at h
    · next hfound =>
      have hfront := (List.isPrefixOf_iff_prefix.mp hfound).trans hlonger
      rw [if_pos (List.isPrefixOf_iff_prefix.mpr hfront), h]
    · next hnot =>
      obtain ⟨m, hm, rfl⟩ := Option.map_eq_some_iff.mp h
      obtain ⟨a, b, rfl, -⟩ := exists_of_find hm
      have hlen : pattern.length ≤ (c :: (a ++ (pattern ++ b))).length := by
        simp only [List.length_cons, List.length_append]
        omega
      have hnot' := not_isPrefixOf_append hnot hlen more
      rw [List.cons_append] at hnot'
      rw [if_neg hnot', ih hm]
      rfl

/-- `str::find` of a character that has a property. -/
def findChar (p : Char → Bool) : List Char → Option ℕ
  | [] => none
  | c :: rest => if p c then some 0 else (findChar p rest).map (· + c.utf8Size)

theorem exists_of_findChar {p : Char → Bool} {text : List Char} {n : ℕ}
    (h : findChar p text = some n) :
    ∃ a b, text = a ++ b ∧ byteLen a = n := by
  induction text generalizing n with
  | nil => cases h
  | cons c rest ih =>
    rw [findChar] at h
    split at h
    · obtain rfl := Option.some.inj h
      exact ⟨[], c :: rest, rfl, rfl⟩
    · obtain ⟨m, hm, rfl⟩ := Option.map_eq_some_iff.mp h
      obtain ⟨a, b, rfl, rfl⟩ := ih hm
      refine ⟨c :: a, b, rfl, ?_⟩
      rw [byteLen_cons, Nat.add_comm]

/-! ## Headers -/

/-- `str::split` of a line end. -/
def splitCrlf : List Char → List (List Char)
  | '\r' :: '\n' :: rest => [] :: splitCrlf rest
  | c :: rest => (splitCrlf rest).modifyHead (c :: ·)
  | [] => [[]]

/-- Lines, with line ends between them. -/
def joinCrlf (lines : List (List Char)) : List Char := ['\r', '\n'].intercalate lines

theorem joinCrlf_cons_cons (line next : List Char) (rest : List (List Char)) :
    joinCrlf (line :: next :: rest) = line ++ '\r' :: '\n' :: joinCrlf (next :: rest) := by
  simp [joinCrlf, List.intercalate]

theorem splitCrlf_cons {c : Char} (h : '\r' ≠ c) (rest : List Char) :
    splitCrlf (c :: rest) = (splitCrlf rest).modifyHead (c :: ·) := by
  rw [splitCrlf]
  rintro _ rfl
  exact absurd rfl h

theorem splitCrlf_append {line : List Char} (h : '\r' ∉ line) (rest : List Char) :
    splitCrlf (line ++ '\r' :: '\n' :: rest) = line :: splitCrlf rest := by
  induction line with
  | nil => rfl
  | cons c line ih =>
    obtain ⟨hc, hline⟩ := not_or.mp (mt List.mem_cons.mpr h)
    rw [List.cons_append, splitCrlf_cons hc, ih hline]
    rfl

theorem splitCrlf_of_not_mem {line : List Char} (h : '\r' ∉ line) : splitCrlf line = [line] := by
  induction line with
  | nil => rfl
  | cons c line ih =>
    obtain ⟨hc, hline⟩ := not_or.mp (mt List.mem_cons.mpr h)
    rw [splitCrlf_cons hc, ih hline]
    rfl

/-- Lines that are joined are split **into the same lines**. -/
theorem splitCrlf_joinCrlf {lines : List (List Char)} (hne : lines ≠ [])
    (h : ∀ line ∈ lines, '\r' ∉ line) :
    splitCrlf (joinCrlf lines) = lines := by
  induction lines with
  | nil => exact absurd rfl hne
  | cons line rest ih =>
    obtain ⟨hline, hrest⟩ := List.forall_mem_cons.mp h
    cases rest with
    | nil => simpa [joinCrlf] using splitCrlf_of_not_mem hline
    | cons next rest =>
      rw [joinCrlf_cons_cons, splitCrlf_append hline, ih (List.cons_ne_nil _ _) hrest]

/-- `str::split_once` of a character. -/
def splitOnce (c : Char) : List Char → Option (List Char × List Char)
  | [] => none
  | d :: rest => if d = c then some ([], rest) else (splitOnce c rest).map fun (a, b) => (d :: a, b)

theorem splitOnce_append {c : Char} {a : List Char} (h : c ∉ a) (b : List Char) :
    splitOnce c (a ++ c :: b) = some (a, b) := by
  induction a with
  | nil => simp [splitOnce]
  | cons d a ih =>
    obtain ⟨hd, ha⟩ := not_or.mp (mt List.mem_cons.mpr h)
    rw [List.cons_append, splitOnce, if_neg (Ne.symm hd), ih ha]
    rfl

/-- What is no whitespace is not trimmed. -/
theorem mem_trim {c : Char} {text : List Char} (hc : isWhitespace c = false) (h : c ∈ text) :
    c ∈ trim text := by
  have hdrop : ∀ {l : List Char}, c ∈ l → c ∈ l.dropWhile isWhitespace := by
    intro l hl
    rw [← @List.takeWhile_append_dropWhile _ isWhitespace l] at hl
    rcases List.mem_append.mp hl with hl | hl
    · have := List.mem_takeWhile_imp hl
      rw [hc] at this
      cases this
    · exact hl
  exact List.mem_reverse.mpr (hdrop (List.mem_reverse.mpr (hdrop h)))

/-- A number has no colon in it, nor has the text around it that is trimmed. -/
theorem colon_not_mem_of_parseUnsigned {bound n : ℕ} {value : List Char}
    (h : parseUnsigned bound (trim value) = some n) : ':' ∉ value := by
  intro hcolon
  have hmem := mem_trim (show isWhitespace ':' = false by decide) hcolon
  generalize trim value = text at h hmem
  rw [parseUnsigned.eq_def] at h
  split at h
  · next rest =>
    obtain ⟨⟨-, hdigits⟩, -⟩ := Option.ite_none_right_eq_some.mp h
    have hrest : ':' ∈ rest := by simpa using hmem
    exact absurd (List.all_eq_true.mp hdigits _ hrest) (by decide)
  · obtain ⟨⟨-, hdigits⟩, -⟩ := Option.ite_none_right_eq_some.mp h
    exact absurd (List.all_eq_true.mp hdigits _ hmem) (by decide)

/-- `str::eq_ignore_ascii_case`. -/
def eqIgnoreAsciiCase (a b : List Char) : Bool := a.map Char.toLower == b.map Char.toLower

end Text
