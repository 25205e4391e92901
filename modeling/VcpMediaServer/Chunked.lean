import Mathlib.Data.Nat.Digits.Lemmas

/-!
# Chunked bodies

The chunked transfer coding: a chunk is its size in hexadecimal, its data, and a line end behind
each. A chunk **of size zero ends the body**.

* `chunk` — the bytes of a chunk.
* `step` — a reader that takes the bytes one by one, so that what arrives may be cut anywhere.
* `feed_chunks` — chunks that are not empty are read as their data, and the body stays open.
* `prefix_of_feed` — of a body that stays open, every **part from its beginning** is read without an
  error, as a part of the data.
-/

namespace Chunked

/-- A hexadecimal digit. -/
def hexDigit (d : ℕ) : UInt8 := if d < 10 then UInt8.ofNat (48 + d) else UInt8.ofNat (87 + d)

/-- The number in hexadecimal. -/
def hex (n : ℕ) : List UInt8 := if n = 0 then [0x30] else ((Nat.digits 16 n).map hexDigit).reverse

/-- The bytes of a chunk. -/
def chunk (data : List UInt8) : List UInt8 :=
  hex data.length ++ [0x0D, 0x0A] ++ data ++ [0x0D, 0x0A]

/-- What a hexadecimal digit stands for. -/
def hexVal (b : UInt8) : Option ℕ :=
  if 0x30 ≤ b ∧ b ≤ 0x39 then some (b.toNat - 48)
  else if 0x61 ≤ b ∧ b ≤ 0x66 then some (b.toNat - 87)
  else if 0x41 ≤ b ∧ b ≤ 0x46 then some (b.toNat - 55)
  else none

/-- What a reader waits for. -/
inductive Reader where
  /-- A digit of the size, or the end of its line. -/
  | size (read : Option ℕ)
  /-- The line feed behind the size. -/
  | sizeEnd (size : ℕ)
  /-- So many bytes of data and one more. -/
  | data (left : ℕ)
  /-- The line end behind the data. -/
  | dataEnd
  /-- Its line feed. -/
  | dataEndLf
  /-- Nothing: the body has ended. -/
  | ended
  /-- Nothing: this is no chunked body. -/
  | bad
  deriving DecidableEq, Repr

/-- Between two chunks. -/
def Reader.start : Reader := .size none

/-- A byte arrives: what is waited for now, and the data that it gives. -/
def Reader.take (r : Reader) (b : UInt8) : Reader × List UInt8 :=
  match r with
  | .size read =>
    match hexVal b, read with
    | some d, _ => (.size (some (read.getD 0 * 16 + d)), [])
    | none, some n => if b = 0x0D then (.sizeEnd n, []) else (.bad, [])
    | none, none => (.bad, [])
  | .sizeEnd n =>
    if b = 0x0A then
      match n with
      | 0 => (.ended, [])
      | n + 1 => (.data n, [])
    else (.bad, [])
  | .data 0 => (.dataEnd, [b])
  | .data (n + 1) => (.data n, [b])
  | .dataEnd => if b = 0x0D then (.dataEndLf, []) else (.bad, [])
  | .dataEndLf => if b = 0x0A then (.start, []) else (.bad, [])
  | .ended => (.ended, [])
  | .bad => (.bad, [])

/-- The reader and the data so far, with one byte more. -/
def step (s : Reader × List UInt8) (b : UInt8) : Reader × List UInt8 :=
  ((s.1.take b).1, s.2 ++ (s.1.take b).2)

/-- The reader and the data so far, with more bytes. -/
def feed (s : Reader × List UInt8) (bytes : List UInt8) : Reader × List UInt8 := bytes.foldl step s

/-- What a body is read as. -/
def decode (bytes : List UInt8) : Reader × List UInt8 := feed (.start, []) bytes

variable {s : Reader × List UInt8} {acc data bytes : List UInt8}

@[simp] theorem feed_nil : feed s [] = s := rfl

theorem feed_cons (b : UInt8) : feed s (b :: bytes) = feed (step s b) bytes := rfl

theorem feed_append (more : List UInt8) : feed s (bytes ++ more) = feed (feed s bytes) more :=
  List.foldl_append

/-! ## Sizes -/

theorem hexVal_hexDigit {d : ℕ} (h : d < 16) : hexVal (hexDigit d) = some d := by
  interval_cases d <;> rfl

/-- Digits are read into the size, the highest first. -/
theorem feed_digits (ds : List ℕ) (hds : ∀ d ∈ ds, d < 16) (hne : ds ≠ []) :
    feed (.start, acc) (ds.map hexDigit).reverse = (.size (some (Nat.ofDigits 16 ds)), acc) := by
  induction ds with
  | nil => exact absurd rfl hne
  | cons d ds ih =>
    obtain ⟨hd, hds⟩ := List.forall_mem_cons.mp hds
    rw [List.map_cons, List.reverse_cons, feed_append, feed_cons, feed_nil, Nat.ofDigits_cons]
    cases ds with
    | nil => simp [step, Reader.start, Reader.take, hexVal_hexDigit hd]
    | cons d' ds =>
      rw [ih hds (List.cons_ne_nil _ _)]
      simp [step, Reader.take, hexVal_hexDigit hd, Nat.mul_comm, Nat.add_comm]

/-- A size is read. -/
theorem feed_hex (n : ℕ) : feed (.start, acc) (hex n) = (.size (some n), acc) := by
  unfold hex
  split
  · next h =>
    subst h
    simp [feed_cons, step, Reader.start, Reader.take, show hexVal 0x30 = some 0 from rfl]
  · next h =>
    rw [feed_digits (Nat.digits 16 n) (fun d hd => Nat.digits_lt_base (by decide) hd)
      (Nat.digits_ne_nil_iff_ne_zero.mpr h), Nat.ofDigits_digits]

/-! ## Chunks -/

/-- As many bytes as are waited for are data. -/
theorem feed_data (b : UInt8) (data acc : List UInt8) :
    feed (.data data.length, acc) (b :: data) = (.dataEnd, acc ++ b :: data) := by
  induction data generalizing b acc with
  | nil => rfl
  | cons c data ih =>
    rw [feed_cons, List.length_cons, step, Reader.take, ih, List.append_assoc]
    rfl

/-- A chunk that is not empty is read as its data. -/
theorem feed_chunk (h : data ≠ []) : feed (.start, acc) (chunk data) = (.start, acc ++ data) := by
  obtain ⟨b, rest, rfl⟩ := List.exists_cons_of_ne_nil h
  rw [chunk, feed_append, feed_append, feed_append, feed_hex]
  have hline : feed (.size (some (b :: rest).length), acc) [0x0D, 0x0A] =
      (.data rest.length, acc) := by
    simp [feed_cons, step, Reader.take, show hexVal 0x0D = none from rfl]
  rw [hline, feed_data]
  simp [feed_cons, step, Reader.take]

/-- Chunks that are not empty are read as their data, and more may follow. -/
theorem feed_chunks {datas : List (List UInt8)} (h : ∀ data ∈ datas, data ≠ []) (acc : List UInt8) :
    feed (.start, acc) (datas.flatMap chunk) = (.start, acc ++ datas.flatten) := by
  induction datas generalizing acc with
  | nil => rw [List.flatMap_nil, feed_nil, List.flatten_nil, List.append_nil]
  | cons data datas ih =>
    obtain ⟨hdata, hdatas⟩ := List.forall_mem_cons.mp h
    rw [List.flatMap_cons, feed_append, feed_chunk hdata, ih hdatas, List.flatten_cons,
      List.append_assoc]

/-! ## Parts of a body -/

/-- Nothing is waited for any more. -/
def Reader.Stuck (r : Reader) : Prop := r = .ended ∨ r = .bad

theorem step_stuck (b : UInt8) (h : s.1.Stuck) : (step s b).1.Stuck := by
  obtain ⟨r, acc⟩ := s
  rcases h with rfl | rfl
  · exact .inl rfl
  · exact .inr rfl

theorem feed_stuck (h : s.1.Stuck) : (feed s bytes).1.Stuck := by
  induction bytes generalizing s with
  | nil => exact h
  | cons b bytes ih => exact ih (step_stuck b h)

theorem prefix_feed : s.2 <+: (feed s bytes).2 := by
  induction bytes generalizing s with
  | nil => exact List.prefix_rfl
  | cons b bytes ih =>
    have hstep : s.2 <+: (step s b).2 := List.prefix_append _ _
    exact hstep.trans ih

/-- Of bytes that do not get the reader stuck, every part from the beginning is read without an
error, and **as a part of the data**. -/
theorem prefix_of_feed {part : List UInt8} (h : ¬(feed s bytes).1.Stuck) (hpart : part <+: bytes) :
    ¬(feed s part).1.Stuck ∧ (feed s part).2 <+: (feed s bytes).2 := by
  obtain ⟨rest, rfl⟩ := hpart
  rw [feed_append] at h ⊢
  exact ⟨fun hstuck => h (feed_stuck hstuck), prefix_feed⟩

theorem start_not_stuck : ¬Reader.start.Stuck := by
  rintro (h | h) <;> cases h

end Chunked
