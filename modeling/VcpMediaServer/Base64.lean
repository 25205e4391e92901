import Mathlib.Data.List.Basic
import Mathlib.Data.Nat.Notation

/-!
# Base64

The standard alphabet with padding. A group of three bytes is four digits of six bits; a last group
of one byte or two is padded, and the bits behind its bytes **are zero**.

* `encode`, `decode` — the padding is required, and the bits behind the last byte are checked.
* `decode_encode` — the round trip.
* `encode_alphabet` — the characters of an encoding.
-/

namespace Base64

/-! ## Digits -/

/-- The digit of six bits. -/
def digit (n : ℕ) : Char :=
  if n < 26 then Char.ofNat (n + 65)
  else if n < 52 then Char.ofNat (n + 71)
  else if n < 62 then Char.ofNat (n - 4)
  else if n = 62 then '+'
  else '/'

/-- The six bits of a digit. -/
def value (c : Char) : Option ℕ :=
  if c.isUpper then some (c.toNat - 65)
  else if c.isLower then some (c.toNat - 71)
  else if c.isDigit then some (c.toNat + 4)
  else if c = '+' then some 62
  else if c = '/' then some 63
  else none

/-- A character of an encoding. -/
def isBase64 (c : Char) : Bool := c.isAlphanum || c = '+' || c = '/' || c = '='

theorem value_digit : ∀ n < 64, value (digit n) = some n := by decide

theorem digit_ne : ∀ n < 64, digit n ≠ '=' := by decide

theorem isBase64_digit : ∀ n < 64, isBase64 (digit n) = true := by decide

/-- The characters of an encoding are ASCII. -/
theorem toNat_lt_of_isBase64 {c : Char} (h : isBase64 c) : c.toNat < 128 := by
  delta isBase64 Char.isAlphanum Char.isAlpha Char.isUpper Char.isLower Char.isDigit at h
  simp only [Bool.or_eq_true, Bool.and_eq_true, decide_eq_true_eq, ge_iff_le,
    UInt32.le_iff_toNat_le] at h
  rcases h with ((h | rfl) | rfl) | rfl
  · have hval : c.toNat = c.val.toNat := rfl
    have hZ : 'Z'.val.toNat = 90 := rfl
    have hz : 'z'.val.toNat = 122 := rfl
    have h9 : '9'.val.toNat = 57 := rfl
    omega
  · decide
  · decide
  · decide

/-! ## Groups -/

/-- The digits of the bytes. -/
def encode : List UInt8 → List Char
  | [] => []
  | [a] => [digit (a.toNat / 4), digit (a.toNat % 4 * 16), '=', '=']
  | [a, b] =>
    [digit (a.toNat / 4), digit (a.toNat % 4 * 16 + b.toNat / 16), digit (b.toNat % 16 * 4), '=']
  | a :: b :: c :: rest =>
    digit (a.toNat / 4) :: digit (a.toNat % 4 * 16 + b.toNat / 16) ::
      digit (b.toNat % 16 * 4 + c.toNat / 64) :: digit (c.toNat % 64) :: encode rest

/-- The first byte of a group. -/
def firstByte (w x : ℕ) : UInt8 := UInt8.ofNat (w * 4 + x / 16)

/-- The second byte of a group. -/
def secondByte (x y : ℕ) : UInt8 := UInt8.ofNat (x % 16 * 16 + y / 4)

/-- The third byte of a group. -/
def thirdByte (y z : ℕ) : UInt8 := UInt8.ofNat (y % 4 * 64 + z)

/-- A last group, of which the fourth character is padding. -/
def decodeLast (w x y : Char) : Option (List UInt8) :=
  match value w, value x with
  | some w, some x =>
    if y = '=' then if x % 16 = 0 then some [firstByte w x] else none
    else
      match value y with
      | some y => if y % 4 = 0 then some [firstByte w x, secondByte x y] else none
      | none => none
  | _, _ => none

/-- The bytes of the digits. -/
def decode : List Char → Option (List UInt8)
  | [] => some []
  | w :: x :: y :: z :: rest =>
    if z = '=' ∧ rest = [] then decodeLast w x y
    else
      match value w, value x, value y, value z with
      | some w, some x, some y, some z =>
        (decode rest).map fun bytes => firstByte w x :: secondByte x y :: thirdByte y z :: bytes
      | _, _, _, _ => none
  | _ => none

example : encode [0x67, 0x42, 0xC0, 0x1E] = "Z0LAHg==".toList := by decide

theorem firstByte_eq (a : UInt8) {n : ℕ} (hn : n < 16) :
    firstByte (a.toNat / 4) (a.toNat % 4 * 16 + n) = a := by
  apply UInt8.toNat_inj.mp
  rw [firstByte, UInt8.toNat_ofNat']
  have := a.toNat_lt
  omega

theorem secondByte_eq (a : ℕ) (b : UInt8) {n : ℕ} (hn : n < 4) :
    secondByte (a * 16 + b.toNat / 16) (b.toNat % 16 * 4 + n) = b := by
  apply UInt8.toNat_inj.mp
  rw [secondByte, UInt8.toNat_ofNat']
  have := b.toNat_lt
  omega

theorem thirdByte_eq (b : ℕ) (c : UInt8) : thirdByte (b * 4 + c.toNat / 64) (c.toNat % 64) = c := by
  apply UInt8.toNat_inj.mp
  rw [thirdByte, UInt8.toNat_ofNat']
  have := c.toNat_lt
  omega

/-- A byte fills two digits: six bits of it at most, and the rest. -/
theorem byte_lt (b : UInt8) : b.toNat / 4 < 64 ∧ b.toNat / 16 < 16 ∧ b.toNat / 64 < 4 := by
  have := b.toNat_lt
  omega

/-- What is encoded is decoded. -/
theorem decode_encode (bytes : List UInt8) : decode (encode bytes) = some bytes := by
  induction bytes using encode.induct with
  | case1 => rfl
  | case2 a =>
    have ha := byte_lt a
    have hw := value_digit (a.toNat / 4) (by omega)
    have hx := value_digit (a.toNat % 4 * 16) (by omega)
    rw [encode, decode, if_pos ⟨rfl, rfl⟩, decodeLast, hw, hx]
    dsimp only
    rw [if_pos rfl, if_pos (by omega), ← Nat.add_zero (a.toNat % 4 * 16), firstByte_eq a (by omega)]
  | case3 a b =>
    have ha := byte_lt a
    have hb := byte_lt b
    have hw := value_digit (a.toNat / 4) (by omega)
    have hx := value_digit (a.toNat % 4 * 16 + b.toNat / 16) (by omega)
    have hy := value_digit (b.toNat % 16 * 4) (by omega)
    have hne := digit_ne (b.toNat % 16 * 4) (by omega)
    rw [encode, decode, if_pos ⟨rfl, rfl⟩, decodeLast, hw, hx]
    dsimp only
    rw [if_neg hne, hy]
    dsimp only
    rw [if_pos (by omega), firstByte_eq a (by omega), ← Nat.add_zero (b.toNat % 16 * 4),
      secondByte_eq _ b (by omega)]
  | case4 a b c rest ih =>
    have ha := byte_lt a
    have hb := byte_lt b
    have hc := byte_lt c
    have hw := value_digit (a.toNat / 4) (by omega)
    have hx := value_digit (a.toNat % 4 * 16 + b.toNat / 16) (by omega)
    have hy := value_digit (b.toNat % 16 * 4 + c.toNat / 64) (by omega)
    have hz := value_digit (c.toNat % 64) (by omega)
    have hne := digit_ne (c.toNat % 64) (by omega)
    rw [encode, decode, if_neg (fun h => hne h.1), hw, hx, hy, hz]
    dsimp only
    rw [ih, Option.map_some, firstByte_eq a (by omega), secondByte_eq _ b (by omega), thirdByte_eq]

/-- The characters of an encoding. -/
theorem encode_alphabet (bytes : List UInt8) : ∀ c ∈ encode bytes, isBase64 c := by
  have hpad : isBase64 '=' = true := rfl
  induction bytes using encode.induct with
  | case1 => simp [encode]
  | case2 a =>
    have ha := byte_lt a
    have hw := isBase64_digit (a.toNat / 4) (by omega)
    have hx := isBase64_digit (a.toNat % 4 * 16) (by omega)
    simp [encode, hw, hx, hpad]
  | case3 a b =>
    have ha := byte_lt a
    have hb := byte_lt b
    have hw := isBase64_digit (a.toNat / 4) (by omega)
    have hx := isBase64_digit (a.toNat % 4 * 16 + b.toNat / 16) (by omega)
    have hy := isBase64_digit (b.toNat % 16 * 4) (by omega)
    simp [encode, hw, hx, hy, hpad]
  | case4 a b c rest ih =>
    have ha := byte_lt a
    have hb := byte_lt b
    have hc := byte_lt c
    have hw := isBase64_digit (a.toNat / 4) (by omega)
    have hx := isBase64_digit (a.toNat % 4 * 16 + b.toNat / 16) (by omega)
    have hy := isBase64_digit (b.toNat % 16 * 4 + c.toNat / 64) (by omega)
    have hz := isBase64_digit (c.toNat % 64) (by omega)
    simpa [encode, hw, hx, hy, hz] using ih

theorem encode_ne_nil {bytes : List UInt8} (h : bytes ≠ []) : encode bytes ≠ [] := by
  intro hnil
  have hdecode := decode_encode bytes
  rw [hnil] at hdecode
  exact h (Option.some.inj hdecode).symm

end Base64
