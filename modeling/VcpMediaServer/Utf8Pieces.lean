import Mathlib.Algebra.Order.BigOperators.Group.List
import Mathlib.Algebra.Order.Ring.Nat
import Mathlib.Data.List.GetD
import VcpMediaServer.TextBytes
import VcpMediaServer.Utf8

/-!
# Text that arrives in pieces

The bytes of a text, cut anywhere, and `String::from_utf8_lossy` on every piece of its own. A cut
inside of a character costs a character: every byte at which one begins is the first of a character
that is read, and a piece that begins with another byte has one more.

* `encodeUtf8` — the bytes of a text.
* `countP_le_length_lossyChars` — no fewer characters are read than begin.
* `flatMap_lossyChars_eq_iff` — the text is read back **exactly if** no character is cut.
-/

namespace VcpMediaServer

open Text

/-- `str::as_bytes`. -/
def encodeUtf8 (text : List Char) : List UInt8 := text.flatMap String.utf8EncodeChar

@[simp] theorem encodeUtf8_nil : encodeUtf8 [] = [] := rfl

@[simp] theorem encodeUtf8_cons (c : Char) (text : List Char) :
    encodeUtf8 (c :: text) = String.utf8EncodeChar c ++ encodeUtf8 text := rfl

@[simp] theorem encodeUtf8_append (a b : List Char) :
    encodeUtf8 (a ++ b) = encodeUtf8 a ++ encodeUtf8 b :=
  List.flatMap_append

/-- `str::len` counts the bytes. -/
theorem length_encodeUtf8 (text : List Char) : (encodeUtf8 text).length = byteLen text := by
  induction text with
  | nil => rfl
  | cons c text ih => simp [ih]

theorem encodeUtf8_eq_nil_iff {text : List Char} : encodeUtf8 text = [] ↔ text = [] := by
  cases text with
  | nil => simp
  | cons c text => simp [String.utf8EncodeChar_ne_nil]

/-- A text is read back from its bytes. -/
@[simp] theorem lossyChars_encodeUtf8 (text : List Char) :
    lossyChars 0 (encodeUtf8 text) = text := by
  induction text with
  | nil => rfl
  | cons c text ih => rw [encodeUtf8_cons, lossyChars_utf8EncodeChar, ih]

/-! ## Where characters begin -/

/-- A byte at which a character may begin. -/
def isUtf8Start (b : UInt8) : Bool := !isUtf8Continuation b

/-- No first byte is a continuation byte. -/
theorem isUtf8Start_first {n : ℕ} :
    (n < 128 → isUtf8Start (UInt8.ofNat n) = true) ∧
      (n < 32 → isUtf8Start (UInt8.ofNat (n + 0xC0)) = true) ∧
      (n < 16 → isUtf8Start (UInt8.ofNat (n + 0xE0)) = true) ∧
          (n < 8 → isUtf8Start (UInt8.ofNat (n + 0xF0)) = true) := by
  refine ⟨?_, ?_, ?_, ?_⟩ <;>
  · revert n
    decide

/-- A character begins at its first byte, and at none of the others. -/
theorem exists_utf8EncodeChar (c : Char) :
    ∃ b tail, String.utf8EncodeChar c = b :: tail ∧ isUtf8Start b = true ∧
        ∀ x ∈ tail, isUtf8Start x = false := by
  have hvalid : c.toNat < 0xD800 ∨ (0xDFFF < c.toNat ∧ c.toNat < 0x110000) := c.valid
  have hval : c.val.toNat = c.toNat := rfl
  have hbits : ∀ n < 64, isUtf8Start (UInt8.ofNat n + 0x80) = false := by decide
  have htail : ∀ n, isUtf8Start (UInt8.ofNat (n % 64) + 0x80) = false := fun n =>
    hbits _ (Nat.mod_lt n (by decide))
  simp only [String.utf8EncodeChar, hval]
  split
  · exact ⟨_, _, rfl, isUtf8Start_first.1 (by omega), by simp⟩
  split
  · refine ⟨_, _, rfl, isUtf8Start_first.2.1 (by omega), ?_⟩
    simp [htail]
  split
  · refine ⟨_, _, rfl, isUtf8Start_first.2.2.1 (by omega), ?_⟩
    simp [htail]
  · refine ⟨_, _, rfl, isUtf8Start_first.2.2.2 (by omega), ?_⟩
    simp [htail]

/-- A text has as many characters as begin in its bytes. -/
theorem countP_encodeUtf8 (text : List Char) :
    (encodeUtf8 text).countP isUtf8Start = text.length := by
  induction text with
  | nil => rfl
  | cons c text ih =>
    obtain ⟨b, tail, hc, hb, htail⟩ := exists_utf8EncodeChar c
    have hnone : tail.countP isUtf8Start = 0 :=
      List.countP_eq_zero.mpr fun x hx => by simp [htail x hx]
    rw [encodeUtf8_cons, List.countP_append, ih, hc, List.countP_cons_of_pos hb, hnone,
      List.length_cons]
    omega

/-- The second byte of three and of four is a continuation byte. -/
theorem isUtf8Continuation_of_second {b c : UInt8}
    (h : isUtf8SecondOfThree b c = true ∨ isUtf8SecondOfFour b c = true) :
    isUtf8Continuation c = true := by
  have hrange : 0x80 ≤ c ∧ c ≤ 0xBF := by
    simp only [isUtf8SecondOfThree, isUtf8SecondOfFour, Bool.or_eq_true, Bool.and_eq_true,
      beq_iff_eq, decide_eq_true_eq, UInt8.le_iff_toNat_le, UInt8.reduceToNat] at h ⊢
    omega
  have hbytes : ∀ c : UInt8, 0x80 ≤ c ∧ c ≤ 0xBF → isUtf8Continuation c = true := fun c =>
    forall_byte (P := fun c => 0x80 ≤ c ∧ c ≤ 0xBF → isUtf8Continuation c = true)
      (by decide +kernel) c
  exact hbytes c hrange

/-- The bytes that a character takes after its first one are continuation bytes. -/
theorem not_isUtf8Start_of_mem_take (b : UInt8) (rest : List UInt8) :
    ∀ x ∈ rest.take ((nextUtf8Char b rest).2 - 1), isUtf8Start x = false := by
  have hcont : ∀ {x}, isUtf8Continuation x = true → isUtf8Start x = false :=
    fun hx => by simp [isUtf8Start, hx]
  intro x hx
  obtain ⟨i, hi, rfl⟩ := List.mem_take_iff_getElem.mp hx
  obtain ⟨hi, hlen⟩ := Nat.lt_min.mp hi
  rw [← List.getD_eq_getElem rest 0 hlen]
  simp only [nextUtf8Char] at hi
  split at hi
  · omega
  split at hi
  · split at hi
    · next hc =>
      obtain rfl : i = 0 := by omega
      exact hcont hc
    · omega
  split at hi
  · split at hi
    · next hc =>
      have hsecond := isUtf8Continuation_of_second (.inl hc)
      split at hi
      · next hd =>
        obtain rfl | rfl : i = 0 ∨ i = 1 := by omega
        · exact hcont hsecond
        · exact hcont hd
      · obtain rfl : i = 0 := by omega
        exact hcont hsecond
    · omega
  split at hi
  · split at hi
    · next hc =>
      have hsecond := isUtf8Continuation_of_second (.inr hc)
      split at hi
      · next hd =>
        split at hi
        · next he =>
          obtain rfl | rfl | rfl : i = 0 ∨ i = 1 ∨ i = 2 := by omega
          · exact hcont hsecond
          · exact hcont hd
          · exact hcont he
        · obtain rfl | rfl : i = 0 ∨ i = 1 := by omega
          · exact hcont hsecond
          · exact hcont hd
      · obtain rfl : i = 0 := by omega
        exact hcont hsecond
    · omega
  · omega

/-- The characters that are read of some bytes are **no fewer** than those that begin in them. -/
theorem countP_le_length_lossyChars {skip : ℕ} {bytes : List UInt8}
    (h : ∀ x ∈ bytes.take skip, isUtf8Start x = false) :
    bytes.countP isUtf8Start ≤ (lossyChars skip bytes).length := by
  induction bytes generalizing skip with
  | nil => simp
  | cons b bytes ih =>
    cases skip with
    | zero =>
      have hrest := ih (not_isUtf8Start_of_mem_take b bytes)
      have hcount : (b :: bytes).countP isUtf8Start ≤ bytes.countP isUtf8Start + 1 := by
        rw [List.countP_cons]
        split <;> omega
      rw [lossyChars, List.length_cons]
      omega
    | succ skip =>
      rw [List.take_succ_cons] at h
      obtain ⟨hb, hrest⟩ := List.forall_mem_cons.mp h
      rw [List.countP_cons_of_neg (by simp [hb]), lossyChars]
      exact ih hrest

/-- A piece that begins within a character is read as **more** characters. -/
theorem countP_lt_length_lossyChars {b : UInt8} (hb : isUtf8Start b = false) (bytes : List UInt8) :
    (b :: bytes).countP isUtf8Start < (lossyChars 0 (b :: bytes)).length := by
  have hrest := countP_le_length_lossyChars (not_isUtf8Start_of_mem_take b bytes)
  rw [List.countP_cons_of_neg (by simp [hb]), lossyChars, List.length_cons]
  omega

/-! ## Pieces -/

/-- A text is cut between two characters where the bytes go on with a first one. -/
theorem exists_of_encodeUtf8_eq_append {text : List Char} {a b : List UInt8}
    (h : encodeUtf8 text = a ++ b) (hb : ∀ x ∈ b.head?, isUtf8Start x = true) :
    ∃ t u, text = t ++ u ∧ a = encodeUtf8 t ∧ b = encodeUtf8 u := by
  induction text generalizing a with
  | nil =>
    obtain ⟨rfl, rfl⟩ := List.append_eq_nil_iff.mp h.symm
    exact ⟨[], [], rfl, rfl, rfl⟩
  | cons c text ih =>
    rw [encodeUtf8_cons] at h
    rcases List.append_eq_append_iff.mp h with ⟨mid, rfl, hmid⟩ | ⟨mid, hc, rfl⟩
    · obtain ⟨t, u, rfl, rfl, rfl⟩ := ih hmid
      exact ⟨c :: t, u, rfl, rfl, rfl⟩
    · rcases a with _ | ⟨x, a⟩
      · exact ⟨[], c :: text, rfl, rfl, by rw [encodeUtf8_cons, hc]; rfl⟩
      rcases mid with _ | ⟨y, mid⟩
      · exact ⟨[c], text, rfl, by simp_all, rfl⟩
      · -- the bytes go on within the character
        obtain ⟨first, tail, hfirst, -, htail⟩ := exists_utf8EncodeChar c
        obtain ⟨rfl, rfl⟩ := List.cons_eq_cons.mp (hfirst.symm.trans hc)
        have hy := htail y (List.mem_append_right a List.mem_cons_self)
        rw [hb y rfl] at hy
        cases hy

/-- Pieces of which none begins within a character are pieces of the text. -/
theorem exists_texts {text : List Char} {pieces : List (List UInt8)}
    (h : pieces.flatten = encodeUtf8 text)
    (hstart : ∀ piece ∈ pieces, ∃ b rest, piece = b :: rest ∧ isUtf8Start b = true) :
    ∃ texts : List (List Char), pieces = texts.map encodeUtf8 ∧ texts.flatten = text := by
  induction pieces generalizing text with
  | nil => exact ⟨[], rfl, (encodeUtf8_eq_nil_iff.mp h.symm).symm⟩
  | cons piece pieces ih =>
    obtain ⟨hpiece, hpieces⟩ := List.forall_mem_cons.mp hstart
    have hhead : ∀ x ∈ pieces.flatten.head?, isUtf8Start x = true := by
      rcases pieces with _ | ⟨next, pieces⟩
      · simp
      · obtain ⟨b, rest, rfl, hb⟩ := hpieces next List.mem_cons_self
        simpa using hb
    obtain ⟨t, u, rfl, rfl, hu⟩ := exists_of_encodeUtf8_eq_append h.symm hhead
    obtain ⟨texts, rfl, rfl⟩ := ih hu hpieces
    exact ⟨t :: texts, rfl, rfl⟩

/-- Pieces that are texts are read as they are. -/
theorem flatMap_lossyChars_map (texts : List (List Char)) :
    (texts.map encodeUtf8).flatMap (lossyChars 0) = texts.flatten := by
  rw [List.flatMap_map, ← List.flatMap_id]
  exact List.flatMap_congr fun t _ => lossyChars_encodeUtf8 t

theorem flatten_map_encodeUtf8 (texts : List (List Char)) :
    (texts.map encodeUtf8).flatten = encodeUtf8 texts.flatten := by
  induction texts with
  | nil => rfl
  | cons t texts ih => simp [ih]

/-- A text that arrives in pieces is read back, piece by piece, **exactly if** no character is cut.
-/
theorem flatMap_lossyChars_eq_iff {text : List Char} {pieces : List (List UInt8)}
    (hne : ∀ piece ∈ pieces, piece ≠ []) (h : pieces.flatten = encodeUtf8 text) :
    pieces.flatMap (lossyChars 0) = text ↔ ∃ texts :
        List (List Char), pieces = texts.map encodeUtf8 ∧ texts.flatten = text := by
  refine ⟨?_, ?_⟩
  · intro hread
    refine exists_texts h fun piece hpiece => ?_
    obtain ⟨b, rest, rfl⟩ := List.exists_cons_of_ne_nil (hne piece hpiece)
    refine ⟨b, rest, rfl, ?_⟩
    by_contra hb
    have hlt := List.sum_lt_sum (List.countP isUtf8Start) (fun piece => (lossyChars 0 piece).length)
      (fun _ _ => countP_le_length_lossyChars (by simp))
      ⟨_, hpiece, countP_lt_length_lossyChars (by simpa using hb) rest⟩
    rw [← List.countP_flatten, h, countP_encodeUtf8, ← List.length_flatMap, hread] at hlt
    exact lt_irrefl _ hlt
  · rintro ⟨texts, rfl, rfl⟩
    exact flatMap_lossyChars_map texts

end VcpMediaServer
