import VcpMediaServer.KeyframeTests

/-!
# The configuration in front of a key frame

`annex_b_with_config` puts the parameter sets in front of an access unit that has none. **One** of
them is enough for it to put in none, wherever it stands.

* `ownUnits` — the units of an access unit.
* `Configured` — what the result should be.
* `configured_iff` — when it is.
-/

namespace VcpMediaServer

/-- The units of an access unit, the first of which may stand there without a start code. -/
def ownUnits (accessUnit : List UInt8) : List (List UInt8) :=
  iterAnnexBNalRanges (ensureAnnexB accessUnit)

/-- The units in front of the first IDR unit. -/
def beforeIdr (units : List (List UInt8)) : List (List UInt8) :=
  units.takeWhile fun unit => decide (typeOf unit ≠ some 5)

/-- There is an SPS and a PPS in front of the first IDR unit. -/
def SetsFirst (units : List (List UInt8)) : Prop :=
  (∃ unit ∈ beforeIdr units, typeOf unit = some 7) ∧ ∃ unit ∈ beforeIdr units, typeOf unit = some 8

/-- There is an SPS or a PPS. -/
def HasSets (units : List (List UInt8)) : Prop :=
  ∃ unit ∈ units, typeOf unit = some 7 ∨ typeOf unit = some 8

/-- The configuration is always present: both sets are in front of the first IDR unit, the units of
the access unit are those behind what was added, which is nothing but the sets, and nothing is added
twice. -/
structure Configured (sps pps accessUnit : List UInt8) : Prop where
  setsFirst : SetsFirst (iterAnnexBNalRanges (annexBWithConfig sps pps accessUnit))
  own : ∃ added, iterAnnexBNalRanges (annexBWithConfig sps pps accessUnit) =
    added ++ ownUnits accessUnit ∧
    ∀ unit ∈ added, unit = sps ∨ unit = pps
  idempotent : annexBWithConfig sps pps (annexBWithConfig sps pps accessUnit) =
    annexBWithConfig sps pps accessUnit

/-- A parameter set of the type: it has no start code in it. -/
structure IsSet (t : UInt8) (unit : List UInt8) : Prop where
  type : typeOf unit = some t
  noStartCode : ¬ startCode <:+: unit

section Sets

variable {sps pps accessUnit : List UInt8}

theorem IsSet.ne_nil {t : UInt8} {unit : List UInt8} (h : IsSet t unit) : unit ≠ [] := by
  rintro rfl
  cases h.type

/-- The code asks for one of the sets. -/
theorem containsSpsOrPpsNalu_iff (data : List UInt8) :
    containsSpsOrPpsNalu data = true ↔ HasSets (iterAnnexBNalRanges data) := by
  rw [containsSpsOrPpsNalu, containsNaluType, containsNaluType, Bool.or_eq_true, List.any_eq_true,
    List.any_eq_true, HasSets]
  simp only [beq_iff_eq, and_or_left, exists_or]

theorem ensureAnnexB_of_startCode {data : List UInt8} (h : startCode <+: data) :
    ensureAnnexB data = data := by
  have hne : data ≠ [] := by
    rintro rfl
    exact absurd h (by decide)
  rw [ensureAnnexB_of_ne_nil hne, if_pos (.inl h)]

theorem ensureAnnexB_ensureAnnexB (data : List UInt8) :
    ensureAnnexB (ensureAnnexB data) = ensureAnnexB data := by
  by_cases hne : data = []
  · rw [hne]
    rfl
  · rw [ensureAnnexB_of_ne_nil hne]
    split
    · next hcode => rw [ensureAnnexB_of_ne_nil hne, if_pos hcode]
    · exact ensureAnnexB_of_startCode (List.prefix_append _ _)

/-- An access unit with one of the sets is left as it is. -/
theorem annexBWithConfig_of_hasSets (h : HasSets (ownUnits accessUnit)) :
    annexBWithConfig sps pps accessUnit = ensureAnnexB accessUnit :=
  if_pos ((containsSpsOrPpsNalu_iff _).mpr h)

/-- To one without both are added. -/
theorem annexBWithConfig_of_not_hasSets (h : ¬ HasSets (ownUnits accessUnit)) :
    annexBWithConfig sps pps accessUnit = annexB [sps, pps] ++ ensureAnnexB accessUnit := by
  have hnot : ¬ containsSpsOrPpsNalu (ensureAnnexB accessUnit) = true := fun hsets =>
    h ((containsSpsOrPpsNalu_iff _).mp hsets)
  rw [annexBWithConfig, if_neg hnot, annexB_cons, annexB_singleton]
  simp only [List.append_assoc]

/-- The units behind the sets: one more in front of the first start code is **not kept apart** from
the PPS. -/
theorem iterAnnexBNalRanges_sets (hsps : IsSet 7 sps) {data first : List UInt8}
    {units : List (List UInt8)} (hcut : IsCut (pps ++ data) first units) :
    iterAnnexBNalRanges (annexB [sps, pps] ++ data) = sps :: filled (first :: units) := by
  have hall : IsCut (annexB [sps, pps] ++ data) [] (sps :: first :: units) := by
    refine ⟨?_, not_startCode_nil, List.forall_mem_cons.mpr ⟨hsps.noStartCode,
      List.forall_mem_cons.mpr ⟨hcut.first, hcut.units⟩⟩⟩
    rw [annexB_cons, annexB_singleton, annexB_cons, annexB_cons]
    simp only [List.append_assoc, List.nil_append, hcut.eq]
  rw [iterAnnexBNalRanges_units hall, filled_cons sps, if_neg hsps.ne_nil,
    if_neg (List.cons_ne_nil _ _)]

/-- Nothing is added twice. -/
theorem annexBWithConfig_idempotent (hsps : IsSet 7 sps) :
    annexBWithConfig sps pps (annexBWithConfig sps pps accessUnit) =
        annexBWithConfig sps pps accessUnit := by
  by_cases h : HasSets (ownUnits accessUnit)
  · rw [annexBWithConfig_of_hasSets h, annexBWithConfig_of_hasSets, ensureAnnexB_ensureAnnexB]
    rw [ownUnits, ensureAnnexB_ensureAnnexB]
    exact h
  · obtain ⟨first, units, hcut⟩ := exists_units (pps ++ ensureAnnexB accessUnit)
    have hcode : startCode <+: annexB [sps, pps] ++ ensureAnnexB accessUnit := by
      rw [annexB_cons, List.append_assoc, List.append_assoc]
      exact List.prefix_append _ _
    have hadded : HasSets (ownUnits (annexB [sps, pps] ++ ensureAnnexB accessUnit)) := by
      rw [ownUnits, ensureAnnexB_of_startCode hcode, iterAnnexBNalRanges_sets hsps hcut]
      exact ⟨sps, List.mem_cons_self, .inl hsps.type⟩
    rw [annexBWithConfig_of_not_hasSets h, annexBWithConfig_of_hasSets hadded,
      ensureAnnexB_of_startCode hcode]

/-- An access unit with an IDR unit has a unit that is not empty behind a start code, or begins with
one. -/
theorem ownUnits_cut {first : List UInt8} {units : List (List UInt8)}
    (hcut : IsCut (ensureAnnexB accessUnit) first units)
    (hcode : startCode <+: ensureAnnexB accessUnit)
    (hidr : ∃ unit ∈ ownUnits accessUnit, typeOf unit = some 5) :
    ownUnits accessUnit = filled units := by
  have hcontains : containsNaluType (ensureAnnexB accessUnit) 5 = true := by
    rw [containsNaluType, List.any_eq_true]
    simp only [beq_iff_eq]
    exact hidr
  have hlong : LongIdr (ensureAnnexB accessUnit) := by
    rcases (containsIdrNalu_iff hcut).mp hcontains with hlong | hfirst
    · exact hlong
    · exact longIdr_of_first hcode hfirst.1
  obtain ⟨unit, hmem, htype⟩ := exists_filled_iff.mpr ((longIdr_iff hcut).mp hlong)
  rw [ownUnits, iterAnnexBNalRanges_units hcut, if_neg (List.ne_nil_of_mem hmem)]

/-- Both sets are put in front of an access unit that begins with a start code of four bytes, or
with none. -/
theorem configured_of_startCode (hsps : IsSet 7 sps) (hpps : IsSet 8 pps)
    (hidr : ∃ unit ∈ ownUnits accessUnit, typeOf unit = some 5)
    (h : ¬ HasSets (ownUnits accessUnit)) (hcode : startCode <+: ensureAnnexB accessUnit) :
    Configured sps pps accessUnit := by
  obtain ⟨first, units, hcut⟩ := exists_units (ensureAnnexB accessUnit)
  have hown := ownUnits_cut hcut hcode hidr
  obtain rfl := hcut.first_eq_nil hcode
  have hbehind : IsCut (pps ++ ensureAnnexB accessUnit) pps units := by
    refine ⟨?_, hpps.noStartCode, hcut.units⟩
    rw [hcut.eq, List.nil_append]
  have hunits : iterAnnexBNalRanges (annexBWithConfig sps pps accessUnit) =
      [sps, pps] ++ ownUnits accessUnit := by
    rw [annexBWithConfig_of_not_hasSets h, iterAnnexBNalRanges_sets hsps hbehind, filled_cons,
      if_neg hpps.ne_nil, hown]
    rfl
  refine ⟨?_, ⟨[sps, pps], hunits, by simp⟩, annexBWithConfig_idempotent hsps⟩
  have hspsType : typeOf sps ≠ some 5 := by rw [hsps.type]; decide
  have hppsType : typeOf pps ≠ some 5 := by rw [hpps.type]; decide
  have hbefore : beforeIdr ([sps, pps] ++ ownUnits accessUnit) =
      sps :: pps :: beforeIdr (ownUnits accessUnit) := by
    simp only [beforeIdr, List.cons_append, List.nil_append, List.takeWhile_cons,
      decide_eq_true hspsType, decide_eq_true hppsType, if_true]
  rw [hunits, SetsFirst, hbefore]
  exact ⟨⟨sps, by simp, hsps.type⟩, pps, by simp, hpps.type⟩

/-- The PPS runs into an access unit that begins with a start code of three bytes. -/
theorem not_configured_of_shortCode (hsps : IsSet 7 sps) (hpps : IsSet 8 pps)
    (hcode : shortCode <+: accessUnit) (h : ¬ HasSets (ownUnits accessUnit)) :
    ¬ Configured sps pps accessUnit := by
  have hne : accessUnit ≠ [] := by
    rintro rfl
    exact absurd hcode (by decide)
  have hensure : ensureAnnexB accessUnit =
    accessUnit := by rw [ensureAnnexB_of_ne_nil hne, if_pos (.inr hcode)]
  obtain ⟨first, units, hcut⟩ := exists_units (pps ++ accessUnit)
  obtain ⟨b, rest, rfl⟩ := List.exists_cons_of_ne_nil hpps.ne_nil
  -- the unit begins as the PPS does
  obtain ⟨tail, rfl⟩ : ∃ tail, first = b :: tail := by
    cases first with
    | cons c tail => exact ⟨tail, by rw [(List.cons.inj hcut.eq).1]⟩
    | nil =>
      rcases annexB_front units with hnil | ⟨post, hpost⟩
      · exact absurd (hcut.eq.trans hnil) (List.cons_ne_nil _ _)
      · have hzero : b = 0 := (List.cons.inj (hcut.eq.trans hpost)).1
        have htype := hpps.type
        rw [hzero, typeOf_cons] at htype
        exact absurd htype (by decide)
  have htype : typeOf (b :: tail) = some 8 := hpps.type
  -- and goes on behind it
  have hnotPps : b :: tail ≠ b :: rest := by
    intro heq
    have hrest : accessUnit = annexB units := List.append_cancel_left (heq ▸ hcut.eq)
    rcases annexB_front units with hnil | ⟨post, hpost⟩
    · exact hne (hrest.trans hnil)
    · exact not_shortCode_of_startCode ⟨post, (hrest.trans hpost).symm⟩ hcode
  have hnotSps : b :: tail ≠ sps := by
    intro heq
    rw [heq, hsps.type] at htype
    exact absurd htype (by decide)
  intro hconfigured
  obtain ⟨added, hunits, hadded⟩ := hconfigured.own
  rw [annexBWithConfig_of_not_hasSets h, hensure, iterAnnexBNalRanges_sets hsps hcut] at hunits
  have hmem : b :: tail ∈ added ++ ownUnits accessUnit := by
    rw [← hunits, filled_cons, if_neg (List.cons_ne_nil _ _)]
    simp
  rcases List.mem_append.mp hmem with hmem | hmem
  · rcases hadded _ hmem with heq | heq
    · exact hnotSps heq
    · exact hnotPps heq
  · exact h ⟨_, hmem, .inr htype⟩

/-- The configuration is present **exactly if** the access unit has both sets in front of its first
IDR unit, or has neither and does not begin with a start code of three bytes. -/
theorem configured_iff (hsps : IsSet 7 sps) (hpps : IsSet 8 pps)
    (hidr : ∃ unit ∈ ownUnits accessUnit, typeOf unit = some 5) :
    Configured sps pps accessUnit ↔
      HasSets (ownUnits accessUnit) ∧ SetsFirst (ownUnits accessUnit) ∨
        ¬ HasSets (ownUnits accessUnit) ∧ ¬ shortCode <+: accessUnit := by
  by_cases h : HasSets (ownUnits accessUnit)
  · have hunits : iterAnnexBNalRanges (annexBWithConfig sps pps accessUnit) =
        ownUnits accessUnit := by
      rw [annexBWithConfig_of_hasSets h, ownUnits]
    refine ⟨fun hconfigured => .inl ⟨h, hunits ▸ hconfigured.setsFirst⟩, ?_⟩
    rintro (⟨-, hfirst⟩ | ⟨hnot, -⟩)
    · exact ⟨hunits.symm ▸ hfirst, ⟨[], hunits, by simp⟩, annexBWithConfig_idempotent hsps⟩
    · exact absurd h hnot
  · refine ⟨fun hconfigured =>
      .inr ⟨h, fun hcode => not_configured_of_shortCode hsps hpps hcode h hconfigured⟩, ?_⟩
    rintro (⟨hsets, -⟩ | ⟨-, hcode⟩)
    · exact absurd hsets h
    · have hne : accessUnit ≠ [] := by
        rintro rfl
        obtain ⟨unit, hmem, -⟩ := hidr
        exact absurd hmem List.not_mem_nil
      refine configured_of_startCode hsps hpps hidr h ?_
      rw [ensureAnnexB_of_ne_nil hne]
      split
      · next hany => exact hany.resolve_right hcode
      · exact List.prefix_append _ _

end Sets

/-- An access unit with a delimiter and two IDR units. -/
def idrUnits : List UInt8 :=
  [0, 0, 0, 1, 0x09, 0xF0, 0, 0, 0, 1, 0x65, 0x88, 0, 0, 0, 1, 0x65, 0x40]

theorem configured_idr :
    (IsSet 7 [0x67, 0x42] ∧ IsSet 8 [0x68, 0xCE] ∧
      ∃ unit ∈ ownUnits idrUnits, typeOf unit = some 5) ∧
    (Configured [0x67, 0x42] [0x68, 0xCE] idrUnits ↔
      HasSets (ownUnits idrUnits) ∧ SetsFirst (ownUnits idrUnits) ∨
        ¬ HasSets (ownUnits idrUnits) ∧ ¬ shortCode <+: idrUnits) := by
  have hsps : IsSet 7 [0x67, 0x42] := ⟨rfl, by decide⟩
  have hpps : IsSet 8 [0x68, 0xCE] := ⟨rfl, by decide⟩
  have hidr : ∃ unit ∈ ownUnits idrUnits, typeOf unit = some 5 := by decide
  exact ⟨⟨hsps, hpps, hidr⟩, configured_iff hsps hpps hidr⟩

/-- A PPS alone is enough for **no SPS** to be put in. -/
theorem configured_fails : ¬ ∀ sps pps accessUnit : List UInt8, IsSet 7 sps → IsSet 8 pps →
    (∃ unit ∈ ownUnits accessUnit, typeOf unit = some 5) → Configured sps pps accessUnit := by
  intro h
  have hconfigured := h [0x67, 0x42] [0x68, 0xCE] [0, 0, 0, 1, 0x68, 0xCE, 0, 0, 0, 1, 0x65, 0x88]
    ⟨rfl, by decide⟩ ⟨rfl, by decide⟩ (by decide)
  have hmissing :
    ¬ ∃ unit ∈ beforeIdr (iterAnnexBNalRanges (annexBWithConfig [0x67, 0x42] [0x68, 0xCE]
      [0, 0, 0, 1, 0x68, 0xCE, 0, 0, 0, 1, 0x65, 0x88])), typeOf unit = some 7 := by decide
  exact hmissing hconfigured.setsFirst.1

end VcpMediaServer
