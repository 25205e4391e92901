import Mathlib.Data.List.Basic
import Mathlib.Data.List.Induction
import Mathlib.Algebra.Ring.Nat

/-!
# Bytes and text

What the parsers of the servers share: slices of a buffer, numbers in big-endian
order, and `String::from_utf8_lossy`, by which every name is read that a client
sends. Bytes that are not UTF-8 are not refused: each **maximal part** of a
sequence that goes wrong becomes one replacement character.
-/

namespace VcpMediaServer

/-! ## Numbers -/

/-- The bytes from `offset` on, at most `n` of them. -/
def slice (data : List UInt8) (offset n : ℕ) : List UInt8 := (data.drop offset).take n

/-- What is behind a slice does not matter. -/
theorem slice_append {data : List UInt8} {offset n : ℕ} (h : offset + n ≤ data.length)
    (more : List UInt8) : slice (data ++ more) offset n = slice data offset n := by
  have hlen : n ≤ (data.drop offset).length := by
    rw [List.length_drop]
    omega
  rw [slice, slice, List.drop_append_of_le_length (by omega), List.take_append_of_le_length hlen]

/-- The big-endian number of the bytes. -/
def beNat (bytes : List UInt8) : ℕ := bytes.foldl (fun n b => n * 256 + b.toNat) 0

/-- `to_be_bytes` of a number of `n` bytes. -/
def toBe : ℕ → ℕ → List UInt8
  | 0, _ => []
  | n + 1, v => toBe n (v / 256) ++ [UInt8.ofNat v]

theorem toNat_ofNat_byte {n : ℕ} (h : n < 256) : (UInt8.ofNat n).toNat = n :=
  UInt8.toNat_ofNat_of_lt' h

/-- What holds of the numbers below 256 holds of every byte. -/
@[elab_as_elim] theorem forall_byte {P : UInt8 → Prop} (h : ∀ n < 256, P (UInt8.ofNat n))
    (b : UInt8) : P b := by
  have := h b.toNat b.toNat_lt
  rwa [UInt8.ofNat_toNat] at this

theorem length_toBe (n v : ℕ) : (toBe n v).length = n := by
  induction n generalizing v with
  | zero => rfl
  | succ n ih => rw [toBe, List.length_append, ih, List.length_singleton]

theorem beNat_concat (bytes : List UInt8) (b : UInt8) :
    beNat (bytes ++ [b]) = beNat bytes * 256 + b.toNat := by
  rw [beNat, beNat, List.foldl_append]
  rfl

theorem beNat_lt (bytes : List UInt8) : beNat bytes < 256 ^ bytes.length := by
  induction bytes using List.reverseRecOn with
  | nil => exact Nat.one_pos
  | append_singleton bytes b ih =>
    have hb := b.toNat_lt
    rw [beNat_concat, List.length_append, List.length_singleton, pow_succ]
    omega

/-- A number is read back as far as its bytes go. -/
theorem beNat_toBe (n v : ℕ) : beNat (toBe n v) = v % 256 ^ n := by
  induction n generalizing v with
  | zero => rw [pow_zero, Nat.mod_one]; rfl
  | succ n ih =>
    have hb : (UInt8.ofNat v).toNat = v % 256 := UInt8.toNat_ofNat'
    rw [toBe, beNat_concat, ih, hb, pow_succ', Nat.mod_mul]
    omega

theorem beNat_toBe_of_lt {n v : ℕ} (h : v < 256 ^ n) : beNat (toBe n v) = v := by
  rw [beNat_toBe, Nat.mod_eq_of_lt h]

/-- The high bytes of a number, and the low ones. -/
theorem toBe_add (n m v : ℕ) : toBe (n + m) v = toBe n (v / 256 ^ m) ++ toBe m v := by
  induction m generalizing v with
  | zero => rw [pow_zero, Nat.div_one, toBe, List.append_nil, Nat.add_zero]
  | succ m ih =>
    rw [← Nat.add_assoc, toBe, ih, toBe, List.append_assoc, Nat.div_div_eq_div_mul, pow_succ']

/-- What stands at an offset. -/
theorem slice_eq_of_drop {data bytes rest : List UInt8} {offset : ℕ}
    (h : data.drop offset = bytes ++ rest) : slice data offset bytes.length = bytes := by
  rw [slice, h, List.take_left' rfl]

/-- What stands behind. -/
theorem drop_of_drop {data bytes rest : List UInt8} {offset : ℕ}
    (h : data.drop offset = bytes ++ rest) : data.drop (offset + bytes.length) = rest := by
  rw [← List.drop_drop, h, List.drop_left' rfl]

theorem drop_succ_of_drop {data rest : List UInt8} {offset : ℕ} {b : UInt8}
    (h : data.drop offset = b :: rest) : data.drop (offset + 1) = rest := by
  rw [← List.drop_drop, h, List.drop_one, List.tail_cons]

theorem getElem?_of_drop {data rest : List UInt8} {offset : ℕ} {b : UInt8}
    (h : data.drop offset = b :: rest) : data[offset]? = some b := by
  rw [← Nat.add_zero offset, ← List.getElem?_drop, h]
  rfl

theorem length_of_drop {data bytes : List UInt8} {offset : ℕ} (h : data.drop offset = bytes)
    (hne : bytes ≠ []) : data.length = offset + bytes.length := by
  have hlen := congrArg List.length h
  rw [List.length_drop] at hlen
  have := List.length_pos_of_ne_nil hne
  omega

/-! ## Pieces -/

/-- The pieces of `n` bytes that a buffer is cut into; the last may be shorter. -/
def pieces (n : ℕ) : List UInt8 → List (List UInt8)
  | [] => []
  | b :: rest => (b :: rest.take (n - 1)) :: pieces n (rest.drop (n - 1))
termination_by data => data.length
decreasing_by
  rw [List.length_drop, List.length_cons]
  omega

@[simp] theorem pieces_nil (n : ℕ) : pieces n [] = [] := by
  rw [pieces]

theorem pieces_eq_nil_iff {n : ℕ} {data : List UInt8} : pieces n data = [] ↔ data = [] := by
  cases data with
  | nil => simp
  | cons b rest =>
    rw [pieces]
    simp

theorem pieces_of_ne_nil {n : ℕ} (hn : 0 < n) {data : List UInt8} (h : data ≠ []) :
    pieces n data = data.take n :: pieces n (data.drop n) := by
  obtain ⟨m, rfl⟩ : ∃ m, n = m + 1 := ⟨n - 1, by omega⟩
  cases data with
  | nil => exact absurd rfl h
  | cons b rest =>
    rw [pieces]
    rfl

/-! ## Text -/

/-- A continuation byte. -/
def isUtf8Continuation (b : UInt8) : Bool := b &&& 0xC0 == 0x80

/-- Whether `c` can follow the first byte `b` of three. -/
def isUtf8SecondOfThree (b c : UInt8) : Bool :=
  (b == 0xE0 && 0xA0 ≤ c && c ≤ 0xBF) || (0xE1 ≤ b && b ≤ 0xEC && 0x80 ≤ c && c ≤ 0xBF) ||
    (b == 0xED && 0x80 ≤ c && c ≤ 0x9F) || (0xEE ≤ b && b ≤ 0xEF && 0x80 ≤ c && c ≤ 0xBF)

/-- Whether `c` can follow the first byte `b` of four. -/
def isUtf8SecondOfFour (b c : UInt8) : Bool :=
  (b == 0xF0 && 0x90 ≤ c && c ≤ 0xBF) || (0xF1 ≤ b && b ≤ 0xF3 && 0x80 ≤ c && c ≤ 0xBF) ||
    (b == 0xF4 && 0x80 ≤ c && c ≤ 0x8F)

/-- The replacement character. -/
def replacementChar : Char := Char.ofNat 0xFFFD

/-- The six payload bits of a continuation byte. -/
def utf8Bits (b : UInt8) : ℕ := (b &&& 0x3F).toNat

/-- The character at the front of `b :: rest` and the number of bytes it takes. -/
def nextUtf8Char (b : UInt8) (rest : List UInt8) : Char × ℕ :=
  -- a byte past the end reads as zero, which continues nothing
  let c := rest.getD 0 0
  let d := rest.getD 1 0
  let e := rest.getD 2 0
  if b < 0x80 then (Char.ofNat b.toNat, 1)
  else if 0xC2 ≤ b ∧ b ≤ 0xDF then
    if isUtf8Continuation c then (Char.ofNat ((b &&& 0x1F).toNat * 64 + utf8Bits c), 2)
    else (replacementChar, 1)
  else if 0xE0 ≤ b ∧ b ≤ 0xEF then
    if isUtf8SecondOfThree b c then
      if isUtf8Continuation d then
        (Char.ofNat (((b &&& 0x0F).toNat * 64 + utf8Bits c) * 64 + utf8Bits d), 3)
      else (replacementChar, 2)
    else (replacementChar, 1)
  else if 0xF0 ≤ b ∧ b ≤ 0xF4 then
    if isUtf8SecondOfFour b c then
      if isUtf8Continuation d then
        if isUtf8Continuation e then
          (Char.ofNat ((((b &&& 0x07).toNat * 64 + utf8Bits c) * 64 + utf8Bits d) * 64 +
            utf8Bits e), 4)
        else (replacementChar, 3)
      else (replacementChar, 2)
    else (replacementChar, 1)
  else (replacementChar, 1)

/-- The characters of a buffer, of which the first `skip` bytes are read already. -/
def lossyChars : ℕ → List UInt8 → List Char
  | _, [] => []
  | skip + 1, _ :: rest => lossyChars skip rest
  | 0, b :: rest =>
    let (ch, width) := nextUtf8Char b rest
    ch :: lossyChars (width - 1) rest

/-- `String::from_utf8_lossy`. -/
def fromUtf8Lossy (bytes : List UInt8) : String := String.ofList (lossyChars 0 bytes)

example : fromUtf8Lossy [0x63, 0xC3, 0xA9, 0xE2, 0x82, 0x78] = "cé\uFFFDx" := by decide

end VcpMediaServer
