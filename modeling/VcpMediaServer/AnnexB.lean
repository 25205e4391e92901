import Mathlib.Data.List.Infix
import VcpMediaServer.H264Util

/-!
# Access units in Annex B

The NAL units of a buffer that was **built** from NAL units: each stands behind a four-byte start
code, and is found again if it has none in it.

* `iterAnnexBNalRanges_annexB` — the scan is the inverse of `annexB`. A zero at the end of a unit
  does not move the start code behind it.
* `containsVclNalu_annexB` and its siblings — what the helpers say of such a buffer.
-/

namespace VcpMediaServer

/-- The units behind start codes. -/
def annexB (nals : List (List UInt8)) : List UInt8 := nals.flatMap fun nal => startCode ++ nal

theorem annexB_cons (nal : List UInt8) (nals : List (List UInt8)) :
    annexB (nal :: nals) = startCode ++ nal ++ annexB nals := by
  rw [annexB, List.flatMap_cons]
  rfl

theorem annexB_singleton (nal : List UInt8) : annexB [nal] = startCode ++ nal := by
  rw [annexB_cons]
  exact List.append_nil _

theorem annexB_front (nals : List (List UInt8)) :
    annexB nals = [] ∨ ∃ rest, annexB nals = startCode ++ rest := by
  cases nals with
  | nil => exact .inl rfl
  | cons nal nals => exact .inr ⟨nal ++ annexB nals, by simp [annexB]⟩

theorem annexB_eq_nil_iff {nals : List (List UInt8)} : annexB nals = [] ↔ nals = [] := by
  cases nals with
  | nil => simp [annexB]
  | cons nal nals => simp [annexB, startCode]

/-- A NAL unit that a scan finds again: it has a first byte, and no start code in it. -/
structure Findable (nal : List UInt8) : Prop where
  ne_nil : nal ≠ []
  noStartCode : ¬ startCode <:+: nal

/-- No start code begins inside a unit, whatever start code or end follows it. -/
theorem take_ne_startCode {b : UInt8} {nal rest : List UInt8} (h : ¬ startCode <:+: b :: nal)
    (hrest : rest = [] ∨ ∃ rest', rest = startCode ++ rest') :
    (b :: (nal ++ rest)).take 4 ≠ startCode := by
  intro hcode
  rcases nal with _ | ⟨c, _ | ⟨d, _ | ⟨e, nal⟩⟩⟩
  · obtain rfl | ⟨rest', rfl⟩ := hrest <;> simp [startCode] at hcode
  · obtain rfl | ⟨rest', rfl⟩ := hrest <;> simp [startCode] at hcode
  · obtain rfl | ⟨rest', rfl⟩ := hrest <;> simp [startCode] at hcode
  · have hfront : [b, c, d, e] = startCode := by simpa using hcode
    exact h ⟨[], nal, by rw [← hfront]; rfl⟩

/-- The scan passes over a unit. -/
theorem annexBNals_append {acc nal rest : List UInt8} (h : ¬ startCode <:+: nal)
    (hrest : rest = [] ∨ ∃ rest', rest = startCode ++ rest') :
    annexBNals 0 (some acc) (nal ++ rest) = annexBNals 0 (some (acc ++ nal)) rest := by
  induction nal generalizing acc with
  | nil => rw [List.nil_append, List.append_nil]
  | cons b nal ih =>
    rw [List.cons_append, annexBNals, if_neg (take_ne_startCode h hrest), Option.map_some,
      ih fun hcode => h (hcode.trans (List.suffix_cons b nal).isInfix), List.append_assoc]
    rfl

/-- A start code ends a unit. -/
theorem annexBNals_startCode {nal : List UInt8} (hnal : nal ≠ []) (rest : List UInt8) :
    annexBNals 0 (some nal) (startCode ++ rest) = nal :: annexBNals 0 (some []) rest := by
  have hcode : startCode ++ rest = 0 :: ([0, 0, 1] ++ rest) := rfl
  rw [hcode, annexBNals, if_pos (by rfl), Option.getD_some]
  exact if_neg hnal

/-- The scan finds the units behind the one that it is in. -/
theorem annexBNals_annexB {nal : List UInt8} {nals : List (List UInt8)} (hnal : nal ≠ [])
    (h : ∀ nal ∈ nals, Findable nal) :
    annexBNals 0 (some nal) (annexB nals) = nal :: nals := by
  induction nals generalizing nal with
  | nil => exact if_neg hnal
  | cons next nals ih =>
    obtain ⟨hnext, hnals⟩ := List.forall_mem_cons.mp h
    rw [annexB_cons, List.append_assoc, annexBNals_startCode hnal,
      annexBNals_append hnext.noStartCode (annexB_front nals), List.nil_append,
      ih hnext.ne_nil hnals]

/-- The units of a buffer built from units are **those units**. -/
theorem iterAnnexBNalRanges_annexB {nals : List (List UInt8)} (hne : nals ≠ [])
    (h : ∀ nal ∈ nals, Findable nal) : iterAnnexBNalRanges (annexB nals) = nals := by
  obtain ⟨nal, nals, rfl⟩ := List.exists_cons_of_ne_nil hne
  obtain ⟨hnal, hnals⟩ := List.forall_mem_cons.mp h
  have hscan : annexBNals 0 none (annexB (nal :: nals)) = nal :: nals := by
    have hskip : annexBNals 0 none (startCode ++ (nal ++ annexB nals)) =
        annexBNals 0 (some []) (nal ++ annexB nals) := rfl
    rw [annexB_cons, List.append_assoc, hskip,
      annexBNals_append hnal.noStartCode (annexB_front nals), List.nil_append,
      annexBNals_annexB hnal.ne_nil hnals]
  rw [iterAnnexBNalRanges, hscan]
  exact if_neg (List.cons_ne_nil _ _)

/-! ## What the helpers say -/

/-- The type of a NAL unit. -/
abbrev typeOf (nal : List UInt8) : Option UInt8 := naluType nal 0

theorem typeOf_cons (b : UInt8) (nal : List UInt8) : typeOf (b :: nal) = some (b &&& 0x1F) := rfl

section Helpers

variable {nals : List (List UInt8)} (hne : nals ≠ []) (h : ∀ nal ∈ nals, Findable nal)
include hne h

theorem containsNaluType_annexB (t : UInt8) :
    containsNaluType (annexB nals) t = nals.any fun nal => typeOf nal == some t := by
  rw [containsNaluType, iterAnnexBNalRanges_annexB hne h]

theorem containsVclNalu_annexB : containsVclNalu (annexB nals) =
    nals.any fun nal => typeOf nal == some 1 || typeOf nal == some 5 := by
  rw [containsVclNalu, iterAnnexBNalRanges_annexB hne h]

theorem isParameterSetOnly_annexB : isParameterSetOnly (annexB nals) =
    nals.all fun nal => typeOf nal == some 7 || typeOf nal == some 8 || typeOf nal == some 9 := by
  rw [isParameterSetOnly, iterAnnexBNalRanges_annexB hne h, List.isEmpty_eq_false_iff.mpr hne]
  rfl

/-- A buffer is a key frame if **any** unit of it is of type 5. -/
theorem isKeyframeAnnexB_annexB :
    isKeyframeAnnexB (annexB nals) = nals.any fun nal => typeOf nal == some 5 := by
  rw [isKeyframeAnnexB, containsIdrNalu, containsNaluType_annexB hne h]
  obtain ⟨nal, nals, rfl⟩ := List.exists_cons_of_ne_nil hne
  obtain ⟨b, nal, rfl⟩ := List.exists_cons_of_ne_nil (h nal List.mem_cons_self).ne_nil
  have hfirst : firstNaluType (annexB ((b :: nal) :: nals)) = typeOf (b :: nal) := rfl
  rw [hfirst, List.any_cons, ← Bool.or_assoc, Bool.or_self]

end Helpers

end VcpMediaServer
