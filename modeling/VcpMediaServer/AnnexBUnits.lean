import VcpMediaServer.AnnexB
import VcpMediaServer.Delimited

/-!
# Buffers by their units

Every buffer is cut at the four-byte start codes in it: into what stands in front of the first, and
units that may be **empty**. What the helpers say of a buffer is said of these.

* `exists_units` — the cut.
* `iterAnnexBNalRanges_units` — the units that are not empty; if there are none, the buffer without
  its first start code.
* `annexB_eq_zeroEnded` — cut at three bytes, every unit but the last **keeps a zero**.
-/

namespace VcpMediaServer

open Delimited

/-- The three-byte start code. -/
def shortCode : List UInt8 := [0, 0, 1]

theorem unbordered_startCode : Unbordered startCode :=
  unbordered_of_forall (List.cons_ne_nil _ _) (by decide)

theorem unbordered_shortCode : Unbordered shortCode :=
  unbordered_of_forall (List.cons_ne_nil _ _) (by decide)

/-- A buffer, cut at its start codes. -/
structure IsCut (data first : List UInt8) (units : List (List UInt8)) : Prop where
  eq : data = first ++ annexB units
  first : ¬ startCode <:+: first
  units : ∀ unit ∈ units, ¬ startCode <:+: unit

theorem not_startCode_nil : ¬ startCode <:+: ([] : List UInt8) := fun h =>
  absurd (List.infix_nil.mp h) (List.cons_ne_nil _ _)

/-- Every buffer is cut. -/
theorem exists_units (data : List UInt8) : ∃ first units, IsCut data first units := by
  obtain ⟨first, units, hdata, hfirst, hunits⟩ := exists_parts unbordered_startCode.ne_nil data
  exact ⟨first, units, hdata, hfirst, hunits⟩

/-! ## Start codes in front -/

section Front

variable {data : List UInt8}

theorem take_eq_startCode_iff : data.take 4 = startCode ↔ startCode <+: data :=
  eq_comm.trans List.prefix_iff_eq_take.symm

theorem take_eq_shortCode_iff : data.take 3 = [0, 0, 1] ↔ shortCode <+: data :=
  eq_comm.trans List.prefix_iff_eq_take.symm

/-- A start code has three bytes or four. -/
theorem not_shortCode_of_startCode (h : startCode <+: data) : ¬ shortCode <+: data := by
  obtain ⟨post, rfl⟩ := h
  simp [startCode, shortCode]

/-- A start code is put in front, where there is none. -/
theorem ensureAnnexB_of_ne_nil (hne : data ≠ []) :
    ensureAnnexB data = if startCode <+: data ∨ shortCode <+: data then data
        else startCode ++ data := by
  rw [ensureAnnexB, if_neg hne]
  simp only [take_eq_startCode_iff, take_eq_shortCode_iff]

end Front

/-! ## The cut -/

section Cut

variable {data first : List UInt8} {units : List (List UInt8)}

/-- A start code in the buffer is the one in front of some unit. -/
theorem IsCut.occurrence (h : IsCut data first units) {pre post : List UInt8}
    (heq : data = pre ++ (startCode ++ post)) :
    ∃ l unit r, units = l ++ unit :: r ∧ pre = first ++ annexB l ∧ post = unit ++ annexB r :=
  Delimited.occurrence unbordered_startCode h.first h.units (h.eq.symm.trans heq)

/-- In front of a start code there is nothing. -/
theorem IsCut.first_eq_nil (h : IsCut data first units) (hcode : startCode <+: data) :
    first = [] := by
  obtain ⟨post, hpost⟩ := hcode
  have hfront : data = [] ++ (startCode ++ post) := hpost.symm
  obtain ⟨l, unit, r, -, hpre, -⟩ := h.occurrence hfront
  exact (List.append_eq_nil_iff.mp hpre.symm).1

/-- A buffer that begins with a start code has a unit. -/
theorem IsCut.units_ne_nil (h : IsCut data first units) (hcode : startCode <+: data) :
    units ≠ [] := by
  obtain ⟨post, hpost⟩ := hcode
  have hfront : data = [] ++ (startCode ++ post) := hpost.symm
  obtain ⟨l, unit, r, hunits, -, -⟩ := h.occurrence hfront
  rw [hunits]
  simp

/-! ## The scan -/

/-- The units that are not empty. -/
def filled (units : List (List UInt8)) : List (List UInt8) :=
  units.filter fun unit => decide (unit ≠ [])

theorem mem_filled {unit : List UInt8} : unit ∈ filled units ↔ unit ∈ units ∧ unit ≠ [] := by
  simp [filled]

theorem filled_cons (unit : List UInt8) (units : List (List UInt8)) :
    filled (unit :: units) = if unit = [] then filled units else unit :: filled units := by
  by_cases h : unit = [] <;> simp [filled, h]

theorem filled_eq_nil_iff : filled units = [] ↔ ∀ unit ∈ units, unit = [] := by
  simp [filled]

/-- The scan behind a start code, in the unit `unit`. -/
theorem annexBNals_some (unit : List UInt8) (h : ∀ unit ∈ units, ¬ startCode <:+: unit) :
    annexBNals 0 (some unit) (annexB units) = filled (unit :: units) := by
  induction units generalizing unit with
  | nil => rw [filled_cons]; rfl
  | cons next units ih =>
    obtain ⟨hnext, hunits⟩ := List.forall_mem_cons.mp h
    have hcode : startCode ++ (next ++ annexB units) = 0 :: ([0, 0, 1] ++ (next ++ annexB units)) :=
      rfl
    have hscan : annexBNals 3 (some []) ([0, 0, 1] ++ (next ++ annexB units)) =
        filled (next :: units) := by
      change annexBNals 0 (some []) (next ++ annexB units) = _
      rw [annexBNals_append hnext (annexB_front units), List.nil_append, ih next hunits]
    rw [annexB_cons, List.append_assoc, hcode, annexBNals, if_pos (by rfl), Option.getD_some,
      filled_cons unit]
    dsimp only
    rw [hscan]

/-- Nothing in front of the first start code is a unit. -/
theorem annexBNals_none (h : IsCut data first units) : annexBNals 0 none data = filled units := by
  rw [h.eq]
  have hfirst := h.first
  have hunits := h.units
  clear h
  induction first with
  | nil =>
    cases units with
    | nil => rfl
    | cons unit units =>
      obtain ⟨hunit, hunits⟩ := List.forall_mem_cons.mp hunits
      have hskip : annexBNals 0 none (startCode ++ (unit ++ annexB units)) =
          annexBNals 0 (some []) (unit ++ annexB units) := rfl
      rw [List.nil_append, annexB_cons, List.append_assoc, hskip,
        annexBNals_append hunit (annexB_front units), List.nil_append, annexBNals_some unit hunits]
  | cons b first ih =>
    rw [List.cons_append, annexBNals, if_neg (take_ne_startCode hfirst (annexB_front units)),
      Option.map_none]
    exact ih fun hcode => hfirst (hcode.trans (List.suffix_cons b first).isInfix)

/-- What the scan gives where there is no unit: the buffer without a start code in front. -/
def withoutCode (data : List UInt8) : List UInt8 :=
  if data.take 4 = startCode then data.drop 4
  else if data.take 3 = [0, 0, 1] then data.drop 3
  else data

theorem withoutCode_of_not (hlong : ¬ startCode <+: data) (hshort : ¬ shortCode <+: data) :
    withoutCode data = data := by
  simp only [withoutCode, take_eq_startCode_iff, take_eq_shortCode_iff, if_neg hlong, if_neg hshort]

/-- The units that are not empty, or the buffer as one unit. -/
theorem iterAnnexBNalRanges_units (h : IsCut data first units) :
    iterAnnexBNalRanges data = if filled units = [] then filled [withoutCode data]
        else filled units := by
  rw [iterAnnexBNalRanges, annexBNals_none h, filled_cons]
  rfl

theorem exists_filled_iff {t : UInt8} :
    (∃ unit ∈ filled units, typeOf unit = some t) ↔ ∃ unit ∈ units, typeOf unit = some t := by
  constructor
  · rintro ⟨unit, hmem, ht⟩
    exact ⟨unit, (mem_filled.mp hmem).1, ht⟩
  · rintro ⟨unit, hmem, ht⟩
    refine ⟨unit, mem_filled.mpr ⟨hmem, ?_⟩, ht⟩
    rintro rfl
    cases ht

/-- A type is that of some unit, or where there are none that of the buffer. -/
theorem containsNaluType_units (h : IsCut data first units) (t : UInt8) :
    containsNaluType data t = true ↔
      (∃ unit ∈ units, typeOf unit = some t) ∨ filled units = [] ∧
          typeOf (withoutCode data) = some t := by
  rw [containsNaluType, iterAnnexBNalRanges_units h, List.any_eq_true]
  simp only [beq_iff_eq]
  split
  · next hnil =>
    have hnone : ¬ ∃ unit ∈ units, typeOf unit = some t := by
      rw [← exists_filled_iff, hnil]
      simp
    rw [exists_filled_iff]
    simp [hnone, hnil]
  · next hfilled =>
    rw [exists_filled_iff]
    simp [hfilled]

/-- The first unit is what is behind a start code in front. -/
theorem firstNaluType_eq (data : List UInt8) : firstNaluType data = typeOf (withoutCode data) := by
  have hdrop : ∀ n, typeOf (data.drop n) = naluType data n := by
    intro n
    rw [typeOf, naluType, naluType, List.getElem?_drop, Nat.add_zero]
  rw [firstNaluType, firstNaluHeaderOffset, withoutCode]
  split
  · exact (hdrop 4).symm
  · split
    · exact (hdrop 3).symm
    · split
      · next hnil => rw [hnil]; rfl
      · rfl

end Cut

/-! ## Three bytes -/

/-- The units as they are between three-byte start codes: the first byte of a start code is at the
end of the unit in front of it. -/
def zeroEnded : List (List UInt8) → List (List UInt8)
  | [] => []
  | [unit] => [unit]
  | unit :: next :: units => (unit ++ [0]) :: zeroEnded (next :: units)

theorem annexB_eq_zeroEnded {units : List (List UInt8)} (hne : units ≠ []) :
    annexB units = 0 :: behind shortCode (zeroEnded units) := by
  induction units with
  | nil => exact absurd rfl hne
  | cons unit units ih =>
    cases units with
    | nil =>
      rw [annexB_singleton, zeroEnded, behind_cons, behind_nil, List.append_nil]
      rfl
    | cons next units =>
      rw [annexB_cons, ih (List.cons_ne_nil _ _), zeroEnded, behind_cons, List.append_assoc,
        List.append_assoc]
      rfl

/-- A zero at the end completes no start code. -/
theorem not_shortCode_concat {unit : List UInt8} (h : ¬ shortCode <:+: unit) :
    ¬ shortCode <:+: unit ++ [0] := by
  rw [List.infix_concat_iff]
  rintro (hsuffix | hinfix)
  · obtain ⟨pre, hpre⟩ := hsuffix
    have hlast := congrArg List.getLast? hpre
    simp [shortCode] at hlast
  · exact h hinfix

theorem not_shortCode_zeroEnded {units : List (List UInt8)}
    (h : ∀ unit ∈ units, ¬ shortCode <:+: unit) :
    ∀ part ∈ zeroEnded units, ¬ shortCode <:+: part := by
  induction units with
  | nil => exact h
  | cons unit units ih =>
    cases units with
    | nil => exact h
    | cons next units =>
      obtain ⟨hunit, hunits⟩ := List.forall_mem_cons.mp h
      exact List.forall_mem_cons.mpr ⟨not_shortCode_concat hunit, ih hunits⟩

/-- All but the last end with a zero. -/
theorem getLast?_of_zeroEnded {units l r : List (List UInt8)} {part : List UInt8}
    (h : zeroEnded units = l ++ part :: r) (hne : r ≠ []) : part.getLast? = some 0 := by
  induction units generalizing l with
  | nil => simp [zeroEnded] at h
  | cons unit units ih =>
    cases units with
    | nil =>
      rw [zeroEnded] at h
      cases l with
      | nil => exact absurd (List.cons.inj h).2.symm hne
      | cons => simp at h
    | cons next units =>
      rw [zeroEnded] at h
      cases l with
      | nil =>
        rw [← (List.cons.inj h).1]
        exact List.getLast?_concat
      | cons => exact ih (List.cons.inj h).2

/-- A three-byte start code among units that are free of it has a zero in front: it is the end of
one of four bytes. -/
theorem getLast?_of_annexB {units : List (List UInt8)} (h : ∀ unit ∈ units, ¬ shortCode <:+: unit)
    {pre post : List UInt8} (heq : annexB units = pre ++ (shortCode ++ post)) :
    pre.getLast? = some 0 := by
  have hne : units ≠ [] := by
    rintro rfl
    simp [annexB, shortCode] at heq
  have hzero : ¬ shortCode <:+: [0] := by decide
  have hcut : [0] ++ behind shortCode (zeroEnded units) = pre ++ (shortCode ++ post) :=
    (annexB_eq_zeroEnded hne).symm.trans heq
  obtain ⟨l, part, r, hparts, rfl, -⟩ :=
    Delimited.occurrence unbordered_shortCode hzero (not_shortCode_zeroEnded h) hcut
  rcases List.eq_nil_or_concat l with rfl | ⟨l, last, rfl⟩
  · rfl
  · rw [List.concat_eq_append, List.append_assoc] at hparts
    have hlast := getLast?_of_zeroEnded hparts (List.cons_ne_nil _ _)
    have hne' : last ≠ [] := by
      rintro rfl
      simp at hlast
    rw [List.concat_eq_append, behind_append, behind_cons, behind_nil, List.append_nil,
      ← List.append_assoc, ← List.append_assoc, List.getLast?_append_of_ne_nil _ hne']
    exact hlast

end VcpMediaServer
