import Mathlib.Data.List.GetD
import VcpMediaServer.Bytes

/-!
# What may panic

The accesses and the sums of the source in a build with overflow checks: `none` is a **panic**.

* `index`, `range`, `rangeFrom` — bytes of a slice.
* `be16`, `be32` — numbers whose bytes are indexed one by one.
* `addUsize` — a sum of lengths.
-/

namespace VcpMediaServer

namespace Checked

/-! ## Slices -/

/-- `data[i]`. -/
def index (data : List UInt8) (i : ℕ) : Option UInt8 := data[i]?

/-- `&data[start..stop]`. -/
def range (data : List UInt8) (start stop : ℕ) : Option (List UInt8) :=
  if start ≤ stop ∧ stop ≤ data.length then some (slice data start (stop - start)) else none

/-- `&data[start..]`. -/
def rangeFrom (data : List UInt8) (start : ℕ) : Option (List UInt8) :=
  if start ≤ data.length then some (data.drop start) else none

/-- A number of two bytes, which are indexed one by one. -/
def be16 (data : List UInt8) (offset : ℕ) : Option ℕ := do
  let a ← index data offset
  let b ← index data (offset + 1)
  return a.toNat * 256 + b.toNat

/-- A number of four bytes, which are indexed one by one. -/
def be32 (data : List UInt8) (offset : ℕ) : Option ℕ := do
  let hi ← be16 data offset
  let lo ← be16 data (offset + 2)
  return hi * 65536 + lo

variable {data : List UInt8} {offset n : ℕ}

theorem index_of_lt {i : ℕ} (h : i < data.length) : index data i = some (data.getD i 0) := by
  rw [index, List.getD_eq_getElem?_getD, List.getElem?_eq_getElem h, Option.getD_some]

theorem range_of_le (h : offset + n ≤ data.length) :
    range data offset (offset + n) = some (slice data offset n) := by
  rw [range, if_pos ⟨Nat.le_add_right _ _, h⟩, Nat.add_sub_cancel_left]

theorem rangeFrom_of_le (h : offset ≤ data.length) :
    rangeFrom data offset = some (data.drop offset) :=
  if_pos h

theorem slice_succ {i : ℕ} (h : i < data.length) :
    slice data i (n + 1) = data[i] :: slice data (i + 1) n := by
  rw [slice, List.drop_eq_getElem_cons h, List.take_succ_cons, slice]

theorem be16_of_le (h : offset + 2 ≤ data.length) :
    be16 data offset = some (beNat (slice data offset 2)) := by
  have ha : offset < data.length := by omega
  have hb : offset + 1 < data.length := by omega
  rw [be16, index, index, List.getElem?_eq_getElem ha, List.getElem?_eq_getElem hb,
    slice_succ ha, slice_succ hb]
  simp [beNat, slice]

theorem be32_of_le (h : offset + 4 ≤ data.length) :
    be32 data offset = some (beNat (slice data offset 4)) := by
  have ha : offset < data.length := by omega
  have hb : offset + 1 < data.length := by omega
  have hc : offset + 2 < data.length := by omega
  have hd : offset + 2 + 1 < data.length := by omega
  rw [be32, be16_of_le (by omega), be16_of_le (by omega), slice_succ ha, slice_succ hb,
    slice_succ hc, slice_succ hd, slice_succ ha, slice_succ hb, slice_succ hc, slice_succ hd]
  simp [beNat, slice]
  omega

/-! ## Sums -/

/-- `a + b` of the type `usize`. -/
def addUsize (a b : ℕ) : Option ℕ := if a + b < 2 ^ 64 then some (a + b) else none

theorem addUsize_of_lt {a b : ℕ} (h : a + b < 2 ^ 64) : addUsize a b = some (a + b) := if_pos h

theorem addUsize_of_not_lt {a b : ℕ} (h : ¬ a + b < 2 ^ 64) : addUsize a b = none := if_neg h

end Checked

end VcpMediaServer
