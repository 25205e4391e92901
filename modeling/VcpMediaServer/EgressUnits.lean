import VcpMediaServer.AnnexBUnits
import VcpMediaServer.VideoRelay

/-!
# The units of two scanners

A frame goes to RTMP and HTTP-FLV by the scan of `frame_to_rtmp_video`, and to RTSP, WebRTC and HLS
by `iter_annex_b_nal_ranges`. The first splits at start codes of **three** bytes as well; of the
second a test says that it must not.

* `noStartCode_rtmpUnits` — no start code of three bytes is in a unit that the first writes.
* `sameUnits_iff` — both see the same units exactly if every start code has four bytes, and there is
  more in the frame than start codes.
-/

namespace VcpMediaServer

open Delimited

/-! ## Where the first splits -/

/-- A unit ends in front of the first start code. -/
theorem noStartCode_take_nalEnd (data : List UInt8) : NoStartCode (data.take (nalEnd data)) := by
  induction data with
  | nil => exact fun h => absurd (List.infix_nil.mp h) (by decide)
  | cons b rest ih =>
    have hlen : ∀ l : List UInt8, l.length < 3 → NoStartCode l := by
      intro l hshort hcode
      have := hcode.length_le
      exact Nat.not_le.mpr hshort this
    rw [nalEnd]
    split
    · next hshort =>
      refine hlen _ ?_
      rw [List.length_take, List.length_cons]
      omega
    · split
      · exact hlen _ (by rw [List.take_zero]; decide)
      · next hcode =>
        intro hinfix
        rw [List.take_succ_cons] at hinfix
        rcases List.infix_cons_iff.mp hinfix with hfront | hinfix
        · refine hcode ?_
          have hfront : [0x00, 0x00, 0x01] <+: b :: rest :=
            hfront.trans (List.cons_prefix_cons.mpr ⟨rfl, List.take_prefix _ _⟩)
          obtain ⟨post, hpost⟩ := hfront
          rw [← hpost]
          rfl
        · exact ih hinfix

theorem noStartCode_rtmpUnitsLoop (fuel : ℕ) (data : List UInt8) :
    ∀ unit ∈ rtmpUnitsLoop fuel data, NoStartCode unit := by
  induction fuel generalizing data with
  | zero => exact fun _ h => absurd h List.not_mem_nil
  | succ fuel ih =>
    rw [rtmpUnitsLoop]
    dsimp only
    split
    · exact fun _ h => absurd h List.not_mem_nil
    · split
      · exact List.forall_mem_cons.mpr ⟨noStartCode_take_nalEnd _, ih _⟩
      · split
        · exact List.forall_mem_cons.mpr ⟨noStartCode_take_nalEnd _, ih _⟩
        · exact ih _

/-- No start code, of three bytes or of four, is in a unit that is written. -/
theorem noStartCode_rtmpUnits (data : List UInt8) : ∀ unit ∈ rtmpUnits data, NoStartCode unit :=
  noStartCode_rtmpUnitsLoop _ _

/-! ## The same units -/

/-- Every start code of three bytes is the end of one of four. -/
def EveryCodeIsLong (data : List UInt8) : Prop :=
  ∀ pre post, data = pre ++ (shortCode ++ post) → pre.getLast? = some 0

/-- The frame is nothing but start codes, two or more. -/
def OnlyCodes (data : List UInt8) : Prop := ∃ n, 2 ≤ n ∧ data = (List.replicate n startCode).flatten

section Cut

variable {data : List UInt8} {units : List (List UInt8)}

/-- In the units of a buffer no start code of three bytes is left. -/
theorem everyCodeIsLong_iff (h : IsCut data [] units) :
    EveryCodeIsLong data ↔ ∀ unit ∈ units, NoStartCode unit := by
  have hdata : data = annexB units := h.eq
  constructor
  · intro hlong unit hmem hinfix
    obtain ⟨a, b, hab⟩ := hinfix
    obtain ⟨l, r, rfl⟩ := List.append_of_mem hmem
    have hzero := hlong (annexB l ++ (startCode ++ a)) (b ++ annexB r) (by
      rw [hdata, ← hab, annexB, List.flatMap_append, List.flatMap_cons]
      simp [annexB, shortCode])
    rcases List.eq_nil_or_concat a with rfl | ⟨a, x, rfl⟩
    · simp [startCode] at hzero
    · -- a zero in front makes it a start code of four bytes
      have hx : x = 0 := by simpa [List.concat_eq_append, ← List.append_assoc] using hzero
      refine h.units unit hmem ⟨a, b, ?_⟩
      rw [← hab, hx]
      simp [startCode]
  · intro hfree pre post heq
    exact getLast?_of_annexB hfree (hdata.symm.trans heq)

theorem annexB_replicate (n : ℕ) :
    annexB (List.replicate n []) = (List.replicate n startCode).flatten := by
  simp [annexB, List.flatMap_replicate]

theorem length_annexB_replicate (n : ℕ) : (annexB (List.replicate n [])).length = 4 * n := by
  induction n with
  | zero => rfl
  | succ n ih =>
    rw [List.replicate_succ, annexB_cons, List.append_nil, List.length_append, ih]
    change 4 + 4 * n = 4 * (n + 1)
    omega

/-- There is nothing but start codes if all the units are empty. -/
theorem onlyCodes_iff (h : IsCut data [] units) :
    OnlyCodes data ↔ 2 ≤ units.length ∧ filled units = [] := by
  have hall : filled units = [] ↔ units = List.replicate units.length [] := by
    rw [filled_eq_nil_iff, List.eq_replicate_iff]
    exact ⟨fun h => ⟨rfl, h⟩, And.right⟩
  have heq : data = annexB units := h.eq
  refine ⟨?_, ?_⟩
  · rintro ⟨n, hn, hdata⟩
    rw [← annexB_replicate] at hdata
    have hcut : IsCut data [] (List.replicate n []) :=
      ⟨hdata, not_startCode_nil, fun unit hmem => by
        rw [List.eq_of_mem_replicate hmem]
        exact not_startCode_nil⟩
    have hfilled : filled units = [] := by
      rw [← annexBNals_none h, annexBNals_none hcut, filled_eq_nil_iff]
      exact fun unit hmem => List.eq_of_mem_replicate hmem
    have hunits := hall.mp hfilled
    have hsame := congrArg List.length (hdata.symm.trans heq)
    rw [hunits, length_annexB_replicate, length_annexB_replicate] at hsame
    exact ⟨by omega, hfilled⟩
  · rintro ⟨hn, hfilled⟩
    refine ⟨units.length, hn, ?_⟩
    rw [← annexB_replicate, ← hall.mp hfilled]
    exact heq

end Cut

/-- Both scanners see the same units of a frame that begins with a start code of four bytes
**exactly if** all its start codes are such and it has more than start codes. -/
theorem sameUnits_iff {frame : MediaFrame} (h : startCode <+: frame.data) :
    (frameToRtmpVideo frame).drop 5 = avcc (rtmpUnits frame.data) ∧
      (filled (rtmpUnits frame.data) = iterAnnexBNalRanges frame.data ↔
        EveryCodeIsLong frame.data ∧ ¬ OnlyCodes frame.data) := by
  refine ⟨annexBToAvcc_eq frame.data, ?_⟩
  obtain ⟨first, units, hcut⟩ := exists_units frame.data
  obtain rfl := hcut.first_eq_nil h
  have hdata : frame.data = annexB units := hcut.eq
  rw [everyCodeIsLong_iff hcut, onlyCodes_iff hcut, iterAnnexBNalRanges_units hcut]
  by_cases hfree : ∀ unit ∈ units, NoStartCode unit
  · have hunits : rtmpUnits frame.data = units := by rw [hdata, rtmpUnits_annexB hfree]
    rw [hunits]
    by_cases hfilled : filled units = []
    · -- the scan takes what is behind the first start code for a unit
      obtain ⟨unit, rest, rfl⟩ := List.exists_cons_of_ne_nil (hcut.units_ne_nil h)
      have hunit : unit = [] := filled_eq_nil_iff.mp hfilled unit List.mem_cons_self
      have hbody : withoutCode frame.data = annexB rest := by
        rw [hdata, annexB_cons, hunit]
        rfl
      have hone : 2 ≤ (unit :: rest).length ↔ rest ≠ [] := by
        rw [List.length_cons, ← List.length_pos_iff]
        omega
      rw [if_pos hfilled, hfilled, hbody, filled_cons, hone]
      by_cases hrest : rest = []
      · simp [hrest, hfree, annexB, filled]
      · simp [hrest, annexB_eq_nil_iff]
    · rw [if_neg hfilled]
      exact ⟨fun _ => ⟨hfree, fun h => hfilled h.2⟩, fun _ => rfl⟩
  · refine ⟨fun hsame => ?_, fun h => absurd h.1 hfree⟩
    simp only [not_forall] at hfree
    obtain ⟨unit, hmem, hcode⟩ := hfree
    have hne : unit ≠ [] := by
      rintro rfl
      exact hcode (by decide)
    have hfilled : unit ∈ filled units := mem_filled.mpr ⟨hmem, hne⟩
    rw [if_neg (List.ne_nil_of_mem hfilled)] at hsame
    rw [← hsame] at hfilled
    exact absurd (noStartCode_rtmpUnits _ unit (mem_filled.mp hfilled).1) hcode

/-- A frame of three units: the sets, and a slice. -/
def sliceFrame : MediaFrame :=
  .new "live/cam" 0 0 [0, 0, 0, 1, 0x67, 0x42, 0, 0, 0, 1, 0x68, 0xCE, 0, 0, 0, 1, 0x65, 0x88, 0x24]
  false .h264

theorem sameUnits_slice : startCode <+: sliceFrame.data ∧
    (frameToRtmpVideo sliceFrame).drop 5 = avcc (rtmpUnits sliceFrame.data) ∧
      (filled (rtmpUnits sliceFrame.data) = iterAnnexBNalRanges sliceFrame.data ↔
        EveryCodeIsLong sliceFrame.data ∧ ¬ OnlyCodes sliceFrame.data) := by
  have hcode : startCode <+: sliceFrame.data := by decide
  exact ⟨hcode, sameUnits_iff hcode⟩

/-- A start code of three bytes **inside a unit** splits it for RTMP alone. -/
theorem sameUnits_fails : ¬ ∀ frame : MediaFrame, startCode <+: frame.data →
    filled (rtmpUnits frame.data) = iterAnnexBNalRanges frame.data := by
  intro h
  have hsame := h (.new "live/cam" 0 0 [0, 0, 0, 1, 0x41, 0xFF, 0, 0, 1, 0xAB] false .h264)
    (by decide)
  exact absurd hsame (by decide)

end VcpMediaServer
