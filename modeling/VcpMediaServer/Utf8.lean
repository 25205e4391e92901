import VcpMediaServer.Bytes

/-!
# Text that is read back

`String::from_utf8_lossy` on the bytes of a string. A character takes one to four bytes, and
each width has its own first byte; the **second** byte of three and of four is what tells an
encoding from one that is too long, from a surrogate, and from what is no character.

* `nextUtf8Char_one` to `nextUtf8Char_four` — the character at the front, by its width.
* `fromUtf8Lossy_toByteArray` — no character of a string is lost.
-/

namespace VcpMediaServer

/-- A continuation byte, and what it carries. -/
theorem continuation_ofNat {n : ℕ} (h : n < 64) :
    isUtf8Continuation (UInt8.ofNat (n + 0x80)) = true ∧ utf8Bits (UInt8.ofNat (n + 0x80)) = n := by
  revert n
  decide

/-- The first byte of two, and what it carries. -/
theorem firstOfTwo_ofNat {n : ℕ} (h : n < 32) : (UInt8.ofNat (n + 0xC0) &&& 0x1F).toNat = n := by
  revert n
  decide

/-- The first byte of three, and what it carries. -/
theorem firstOfThree_ofNat {n : ℕ} (h : n < 16) : (UInt8.ofNat (n + 0xE0) &&& 0x0F).toNat = n := by
  revert n
  decide

/-- The first byte of four, and what it carries. -/
theorem firstOfFour_ofNat {n : ℕ} (h : n < 8) : (UInt8.ofNat (n + 0xF0) &&& 0x07).toNat = n := by
  revert n
  decide

/-- The second byte of three: not an encoding that is too long, and not a surrogate. -/
theorem secondOfThree_ofNat {n m : ℕ} (hn : n < 16) (hm : m < 64) (hlong : 32 ≤ n * 64 + m)
    (hsur : n * 64 + m < 864 ∨ 896 ≤ n * 64 + m) :
    isUtf8SecondOfThree (UInt8.ofNat (n + 0xE0)) (UInt8.ofNat (m + 0x80)) = true := by
  simp only [isUtf8SecondOfThree, Bool.or_eq_true, Bool.and_eq_true, beq_iff_eq, decide_eq_true_eq,
    UInt8.le_iff_toNat_le, ← UInt8.toNat_inj, toNat_ofNat_byte (show n + 0xE0 < 256 by omega),
    toNat_ofNat_byte (show m + 0x80 < 256 by omega), UInt8.reduceToNat]
  omega

/-- The second byte of four: not an encoding that is too long, and not beyond the last
character. -/
theorem secondOfFour_ofNat {n m : ℕ} (hn : n < 5) (hm : m < 64) (hlong : 16 ≤ n * 64 + m)
    (hmax : n * 64 + m < 272) :
    isUtf8SecondOfFour (UInt8.ofNat (n + 0xF0)) (UInt8.ofNat (m + 0x80)) = true := by
  simp only [isUtf8SecondOfFour, Bool.or_eq_true, Bool.and_eq_true, beq_iff_eq, decide_eq_true_eq,
    UInt8.le_iff_toNat_le, ← UInt8.toNat_inj, toNat_ofNat_byte (show n + 0xF0 < 256 by omega),
    toNat_ofNat_byte (show m + 0x80 < 256 by omega), UInt8.reduceToNat]
  omega

/-- A character of one byte. -/
theorem nextUtf8Char_one {n : ℕ} (h : n ≤ 0x7F) (rest : List UInt8) :
    nextUtf8Char (UInt8.ofNat n) rest = (Char.ofNat n, 1) := by
  have hb := toNat_ofNat_byte (show n < 256 by omega)
  rw [nextUtf8Char, if_pos, hb]
  rw [UInt8.lt_iff_toNat_lt, hb]
  exact Nat.lt_succ_of_le h

/-- A character of two bytes. -/
theorem nextUtf8Char_two {a b : ℕ} (ha : a < 32) (hlong : 2 ≤ a) (hb : b < 64)
    (rest : List UInt8) :
    nextUtf8Char (UInt8.ofNat (a + 0xC0)) (UInt8.ofNat (b + 0x80) :: rest) =
      (Char.ofNat (a * 64 + b), 2) := by
  have hfirst := toNat_ofNat_byte (show a + 0xC0 < 256 by omega)
  obtain ⟨hcont, hbits⟩ := continuation_ofNat hb
  rw [nextUtf8Char, if_neg, if_pos]
  · simp only [List.getD_cons_zero]
    rw [if_pos hcont, hbits, firstOfTwo_ofNat ha]
  · simp only [UInt8.le_iff_toNat_le, hfirst, UInt8.reduceToNat]
    omega
  · simp only [UInt8.lt_iff_toNat_lt, hfirst, UInt8.reduceToNat]
    omega

/-- A character of three bytes. -/
theorem nextUtf8Char_three {a b c : ℕ} (ha : a < 16) (hb : b < 64) (hc : c < 64)
    (hlong : 32 ≤ a * 64 + b) (hsur : a * 64 + b < 864 ∨ 896 ≤ a * 64 + b) (rest : List UInt8) :
    nextUtf8Char (UInt8.ofNat (a + 0xE0))
      (UInt8.ofNat (b + 0x80) :: UInt8.ofNat (c + 0x80) :: rest) =
      (Char.ofNat ((a * 64 + b) * 64 + c), 3) := by
  have hfirst := toNat_ofNat_byte (show a + 0xE0 < 256 by omega)
  obtain ⟨-, hbits⟩ := continuation_ofNat hb
  obtain ⟨hcont, hbits'⟩ := continuation_ofNat hc
  rw [nextUtf8Char, if_neg, if_neg, if_pos]
  · simp only [List.getD_cons_zero, List.getD_cons_succ]
    rw [if_pos (secondOfThree_ofNat ha hb hlong hsur), if_pos hcont, hbits, hbits',
      firstOfThree_ofNat ha]
  all_goals
    simp only [UInt8.le_iff_toNat_le, UInt8.lt_iff_toNat_lt, hfirst, UInt8.reduceToNat]
    omega

/-- A character of four bytes. -/
theorem nextUtf8Char_four {a b c d : ℕ} (ha : a < 5) (hb : b < 64) (hc : c < 64) (hd : d < 64)
    (hlong : 16 ≤ a * 64 + b) (hmax : a * 64 + b < 272) (rest : List UInt8) :
    nextUtf8Char (UInt8.ofNat (a + 0xF0))
        (UInt8.ofNat (b + 0x80) :: UInt8.ofNat (c + 0x80) :: UInt8.ofNat (d + 0x80) :: rest) =
      (Char.ofNat (((a * 64 + b) * 64 + c) * 64 + d), 4) := by
  have hfirst := toNat_ofNat_byte (show a + 0xF0 < 256 by omega)
  obtain ⟨-, hbits⟩ := continuation_ofNat hb
  obtain ⟨hcont, hbits'⟩ := continuation_ofNat hc
  obtain ⟨hcont', hbits''⟩ := continuation_ofNat hd
  rw [nextUtf8Char, if_neg, if_neg, if_neg, if_pos]
  · simp only [List.getD_cons_zero, List.getD_cons_succ]
    rw [if_pos (secondOfFour_ofNat ha hb hlong hmax), if_pos hcont, if_pos hcont', hbits, hbits',
      hbits'', firstOfFour_ofNat (by omega)]
  all_goals
    simp only [UInt8.le_iff_toNat_le, UInt8.lt_iff_toNat_lt, hfirst, UInt8.reduceToNat]
    omega

theorem lossyChars_length (skipped rest : List UInt8) :
    lossyChars skipped.length (skipped ++ rest) = lossyChars 0 rest := by
  induction skipped with
  | nil => rfl
  | cons b skipped ih => exact ih

theorem lossyChars_cons_append {b : UInt8} {tail rest : List UInt8} {c : Char} {width : ℕ}
    (h : nextUtf8Char b (tail ++ rest) = (c, width)) (hwidth : width = tail.length + 1) :
    lossyChars 0 (b :: tail ++ rest) = c :: lossyChars 0 rest := by
  rw [List.cons_append, lossyChars, h, hwidth]
  exact congrArg (c :: ·) (lossyChars_length tail rest)

/-- An encoded character is read back. -/
theorem lossyChars_utf8EncodeChar (c : Char) (rest : List UInt8) :
    lossyChars 0 (String.utf8EncodeChar c ++ rest) = c :: lossyChars 0 rest := by
  have hvalid : c.toNat < 0xD800 ∨ (0xDFFF < c.toNat ∧ c.toNat < 0x110000) := c.valid
  have hval : c.val.toNat = c.toNat := rfl
  have hchar : ∀ {n}, n = c.toNat → Char.ofNat n = c := by
    rintro n rfl
    exact Char.ofNat_toNat c
  simp only [String.utf8EncodeChar, hval]
  split
  · next h1 =>
    refine lossyChars_cons_append ?_ rfl
    rw [List.nil_append, nextUtf8Char_one h1, Char.ofNat_toNat]
    rfl
  · split
    · refine lossyChars_cons_append ?_ rfl
      rw [List.cons_append, nextUtf8Char_two (by omega) (by omega) (by omega), hchar (by omega)]
      rfl
    · split
      · refine lossyChars_cons_append ?_ rfl
        rw [List.cons_append, List.cons_append, nextUtf8Char_three (by omega) (by omega) (by omega)
          (by omega) (by omega), hchar (by omega)]
        rfl
      · refine lossyChars_cons_append ?_ rfl
        have hfirst : c.toNat / 262144 < 5 := by omega
        rw [Nat.mod_eq_of_lt (show c.toNat / 262144 < 8 by omega), List.cons_append,
          List.cons_append, List.cons_append, nextUtf8Char_four hfirst (by omega) (by omega)
          (by omega) (by omega) (by omega), hchar (by omega)]
        rfl

/-- `from_utf8_lossy` loses **nothing** of the bytes of a string. -/
theorem fromUtf8Lossy_toByteArray (s : String) : fromUtf8Lossy s.toByteArray.data.toList = s := by
  have hbytes : s.toByteArray.data.toList = s.toList.flatMap String.utf8EncodeChar := by
    rw [← String.utf8Encode_toList]
    simp [List.utf8Encode]
  have hchars : ∀ cs : List Char, lossyChars 0 (cs.flatMap String.utf8EncodeChar) = cs := by
    intro cs
    induction cs with
    | nil => rfl
    | cons c cs ih => rw [List.flatMap_cons, lossyChars_utf8EncodeChar, ih]
  rw [fromUtf8Lossy, hbytes, hchars, String.ofList_toList]

end VcpMediaServer
