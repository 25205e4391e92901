import VcpMediaServer.AnnexBUnits
import VcpMediaServer.Dispatch

/-!
# Three tests for a key frame

The ring indexes a frame by `is_video_keyframe`, the dispatcher primes from it by `is_playable_idr`,
and a player takes it by `is_idr_frame`. Each searches a frame without the flag for an IDR unit: the
first behind start codes of three bytes and of four, the others behind those of four, and by the
first byte of the frame.

* `annexBContainsIdr_iff`, `isKeyframeAnnexB_iff`, `containsIdrNalu_ensureAnnexB_iff` — what each of
  them finds.
* `seenAlike_iff` — when they say the same.
-/

namespace VcpMediaServer

/-- The header is that of an IDR unit. -/
def IsIdrHeader (b : UInt8) : Prop := b &&& 0x1F = 5

instance (b : UInt8) : Decidable (IsIdrHeader b) := inferInstanceAs (Decidable (_ = _))

/-- An IDR unit stands behind a start code of four bytes. -/
def LongIdr (data : List UInt8) : Prop :=
  ∃ pre b post, data = pre ++ (startCode ++ b :: post) ∧ IsIdrHeader b

/-- An IDR unit stands behind a start code of three bytes, with a byte **behind its first**. -/
def ShortIdr (data : List UInt8) : Prop :=
  ∃ pre b post, data = pre ++ (shortCode ++ b :: post) ∧ IsIdrHeader b ∧ post ≠ []

/-- What stands behind some start code of four bytes is not another. -/
def HasUnit (data : List UInt8) : Prop :=
  ∃ pre post, data = pre ++ (startCode ++ post) ∧ post ≠ [] ∧ ¬ startCode <+: post

/-! ## The ring -/

/-- A thing in a list is at its front or behind its first item. -/
theorem exists_append_cons_iff {P : List UInt8 → Prop} {x : UInt8} {l : List UInt8} :
    (∃ pre post, x :: l = pre ++ post ∧ P post) ↔
        P (x :: l) ∨ ∃ pre post, l = pre ++ post ∧ P post := by
  constructor
  · rintro ⟨pre, post, heq, hpost⟩
    cases pre with
    | nil =>
      rw [List.nil_append] at heq
      exact .inl (heq ▸ hpost)
    | cons y pre => exact .inr ⟨pre, post, (List.cons.inj heq).2, hpost⟩
  · rintro (hfront | ⟨pre, post, rfl, hpost⟩)
    · exact ⟨[], x :: l, rfl, hfront⟩
    · exact ⟨x :: pre, post, rfl, hpost⟩

/-- The buffer begins with what the scan looks for. -/
def IdrInFront (data : List UInt8) : Prop :=
  (∃ b post, data = startCode ++ b :: post ∧ IsIdrHeader b) ∨
    ∃ b post, data = shortCode ++ b :: post ∧ IsIdrHeader b ∧ post ≠ []

/-- Somewhere in the buffer there is what the scan looks for. -/
def IdrInside (data : List UInt8) : Prop := ∃ pre post, data = pre ++ post ∧ IdrInFront post

theorem idrInside_iff (data : List UInt8) : IdrInside data ↔ LongIdr data ∨ ShortIdr data := by
  constructor
  · rintro ⟨pre, post, rfl, ⟨b, rest, rfl, hb⟩ | ⟨b, rest, rfl, hb⟩⟩
    · exact .inl ⟨pre, b, rest, rfl, hb⟩
    · exact .inr ⟨pre, b, rest, rfl, hb⟩
  · rintro (⟨pre, b, rest, rfl, hb⟩ | ⟨pre, b, rest, rfl, hb⟩)
    · exact ⟨pre, _, rfl, .inl ⟨b, rest, rfl, hb⟩⟩
    · exact ⟨pre, _, rfl, .inr ⟨b, rest, rfl, hb⟩⟩

theorem idrInside_cons {x : UInt8} {l : List UInt8} :
    IdrInside (x :: l) ↔ IdrInFront (x :: l) ∨ IdrInside l :=
  exists_append_cons_iff

/-- Five bytes are needed: a start code of three, and two of the unit. -/
theorem le_length_of_idrInside {data : List UInt8} (h : IdrInside data) : 5 ≤ data.length := by
  obtain ⟨pre, post, rfl, hpost⟩ := h
  have hlen : 5 ≤ post.length := by
    rcases hpost with ⟨b, rest, rfl, -⟩ | ⟨b, rest, rfl, -, hrest⟩
    · simp [startCode]
    · have := List.length_pos_iff.mpr hrest
      simp [shortCode]
      omega
  rw [List.length_append]
  omega

/-- Behind a start code without an IDR unit the search goes on. -/
theorem idrInside_shortCode {b : UInt8} {post : List UInt8} (h : ¬ IsIdrHeader b) :
    IdrInside (shortCode ++ b :: post) ↔ IdrInside (b :: post) := by
  have hcode :
    ¬ IdrInFront (0 :: 0 :: 1 :: b :: post) := by simp [IdrInFront, startCode, shortCode, h]
  have hzero : ¬ IdrInFront (0 :: 1 :: b :: post) := by simp [IdrInFront, startCode, shortCode]
  have hone : ¬ IdrInFront (1 :: b :: post) := by simp [IdrInFront, startCode, shortCode]
  change IdrInside (0 :: 0 :: 1 :: b :: post) ↔ _
  rw [idrInside_cons, or_iff_right hcode, idrInside_cons, or_iff_right hzero, idrInside_cons,
    or_iff_right hone]

theorem idrInside_startCode {b : UInt8} {post : List UInt8} (h : ¬ IsIdrHeader b) :
    IdrInside (startCode ++ b :: post) ↔ IdrInside (b :: post) := by
  have hcode :
    ¬ IdrInFront (0 :: (shortCode ++ b :: post)) := by simp [IdrInFront, startCode, shortCode, h]
  change IdrInside (0 :: (shortCode ++ b :: post)) ↔ _
  rw [idrInside_cons, or_iff_right hcode, idrInside_shortCode h]

/-- Where fewer than five bytes are left, the scan is over. -/
theorem annexBScan_of_short {data : List UInt8} (h : data.length < 5) :
    annexBScan 0 data = false := by
  cases data with
  | nil => rfl
  | cons b rest =>
    rw [List.length_cons] at h
    rw [annexBScan, if_pos (by omega)]

/-- At a start code of four bytes the scan looks at the byte behind it. -/
theorem annexBScan_startCode {b : UInt8} {post : List UInt8} :
    annexBScan 0 (startCode ++ b :: post) = true ↔
    IsIdrHeader b ∨ annexBScan 3 (shortCode ++ b :: post) = true := by
  have hlong : ¬ (shortCode ++ b :: post).length < 4 := by simp [shortCode]
  have hfour : (0 :: (shortCode ++ b :: post)).take 4 = [0, 0, 0, 1] := rfl
  change annexBScan 0 (0 :: (shortCode ++ b :: post)) = true ↔ _
  rw [annexBScan, if_neg hlong, if_pos hfour]
  by_cases hidr : IsIdrHeader b
  · exact iff_of_true (if_pos hidr) (.inl hidr)
  · have hnot : ¬ (shortCode ++ b :: post).getD 3 0 &&& 0x1F = 5 := hidr
    rw [if_neg hnot, or_iff_right hidr]

/-- At one of three bytes as well, with a byte more behind it. -/
theorem annexBScan_shortCode {b c : UInt8} {post : List UInt8} :
    annexBScan 0 (shortCode ++ b :: c :: post) = true ↔
      IsIdrHeader b ∨ annexBScan 2 ([0, 1] ++ b :: c :: post) = true := by
  have hlong : ¬ ([0, 1] ++ b :: c :: post).length < 4 := by simp
  have hfour : ¬ (0 :: ([0, 1] ++ b :: c :: post)).take 4 = [0, 0, 0, 1] := by simp
  have hthree : (0 :: ([0, 1] ++ b :: c :: post)).take 3 = [0, 0, 1] := rfl
  change annexBScan 0 (0 :: ([0, 1] ++ b :: c :: post)) = true ↔ _
  rw [annexBScan, if_neg hlong, if_neg hfour, if_pos hthree]
  by_cases hidr : IsIdrHeader b
  · exact iff_of_true (if_pos hidr) (.inl hidr)
  · have hnot : ¬ ([0, 1] ++ b :: c :: post).getD 2 0 &&& 0x1F = 5 := hidr
    rw [if_neg hnot, or_iff_right hidr]

/-- Elsewhere it goes on by a byte. -/
theorem annexBScan_cons {b : UInt8} {rest : List UInt8} (hlong : ¬ startCode <+: b :: rest)
    (hshort : ¬ shortCode <+: b :: rest) (hlen : ¬ rest.length < 4) :
    annexBScan 0 (b :: rest) = annexBScan 0 rest := by
  have hfour : ¬ (b :: rest).take 4 = [0, 0, 0, 1] := fun h => hlong (take_eq_startCode_iff.mp h)
  have hthree : ¬ (b :: rest).take 3 = [0, 0, 1] := fun h => hshort (take_eq_shortCode_iff.mp h)
  rw [annexBScan, if_neg hlen, if_neg hfour, if_neg hthree]

/-- The scan goes from start code to start code, and finds what is behind one. -/
theorem annexBScan_iff (skip : ℕ) (data : List UInt8) :
    annexBScan skip data = true ↔ IdrInside (data.drop skip) := by
  induction data generalizing skip with
  | nil =>
    rw [List.drop_nil, annexBScan]
    exact iff_of_false Bool.false_ne_true fun h => absurd (le_length_of_idrInside h) (by decide)
  | cons x rest ih =>
    obtain _ | skip := skip
    · rw [List.drop_zero]
      by_cases hlen : (x :: rest).length < 5
      · rw [annexBScan_of_short hlen]
        exact iff_of_false Bool.false_ne_true fun h =>
          Nat.not_le.mpr hlen (le_length_of_idrInside h)
      · rw [List.length_cons] at hlen
        by_cases hlong : startCode <+: x :: rest
        · obtain ⟨_ | ⟨b, post⟩, hpost⟩ := hlong
          · simp [← (List.cons.inj hpost).2] at hlen
          · obtain rfl : shortCode ++ b :: post = rest := (List.cons.inj hpost).2
            rw [← hpost, annexBScan_startCode, ih]
            by_cases hidr : IsIdrHeader b
            · exact iff_of_true (.inl hidr) (idrInside_cons.mpr (.inl (.inl ⟨b, post, rfl, hidr⟩)))
            · rw [or_iff_right hidr, idrInside_startCode hidr]
              rfl
        · by_cases hshort : shortCode <+: x :: rest
          · obtain ⟨post, hpost⟩ := hshort
            obtain rfl : [0, 1] ++ post = rest := (List.cons.inj hpost).2
            obtain ⟨b, c, post, rfl⟩ : ∃ b c post', post = b :: c :: post' := by
              rcases post with _ | ⟨b, _ | ⟨c, post⟩⟩
              all_goals simp at hlen ⊢
            rw [← hpost, annexBScan_shortCode, ih]
            by_cases hidr : IsIdrHeader b
            · exact iff_of_true (.inl hidr)
                (idrInside_cons.mpr (.inl (.inr ⟨b, c :: post, rfl, hidr, List.cons_ne_nil _ _⟩)))
            · rw [or_iff_right hidr, idrInside_shortCode hidr]
              rfl
          · have hfront : ¬ IdrInFront (x :: rest) := by
              rintro (⟨b, post, heq, -⟩ | ⟨b, post, heq, -, -⟩)
              · exact hlong ⟨b :: post, heq.symm⟩
              · exact hshort ⟨b :: post, heq.symm⟩
            rw [annexBScan_cons hlong hshort (by omega), ih, List.drop_zero, idrInside_cons,
              or_iff_right hfront]
    · exact ih skip

/-- The ring finds an IDR unit behind a start code of either kind. -/
theorem annexBContainsIdr_iff (data : List UInt8) :
    annexBContainsIdr data = true ↔ LongIdr data ∨ ShortIdr data := by
  rw [annexBContainsIdr, annexBScan_iff, List.drop_zero, idrInside_iff]

/-! ## The dispatcher and the player -/

section Cut

variable {data first : List UInt8} {units : List (List UInt8)}

theorem typeOf_eq_idr_iff {unit : List UInt8} :
    typeOf unit = some 5 ↔ ∃ b rest, unit = b :: rest ∧ IsIdrHeader b := by
  cases unit with
  | nil => simp [naluType]
  | cons b rest => simp [typeOf_cons, IsIdrHeader]

/-- The IDR units behind start codes of four bytes are those among the units. -/
theorem longIdr_iff (h : IsCut data first units) :
    LongIdr data ↔ ∃ unit ∈ units, typeOf unit = some 5 := by
  simp only [typeOf_eq_idr_iff]
  constructor
  · rintro ⟨pre, b, post, heq, hb⟩
    obtain ⟨l, unit, r, rfl, -, hpost⟩ := h.occurrence heq
    refine ⟨unit, by simp, ?_⟩
    cases unit with
    | nil =>
      -- what follows would be another start code
      rcases annexB_front r with hr | ⟨rest, hr⟩
      · rw [hr] at hpost
        cases hpost
      · rw [hr] at hpost
        rw [(List.cons.inj hpost).1] at hb
        exact absurd hb (by decide)
    | cons c unit =>
      rw [← (List.cons.inj hpost).1]
      exact ⟨b, unit, rfl, hb⟩
  · rintro ⟨unit, hmem, b, rest, rfl, hb⟩
    obtain ⟨l, r, rfl⟩ := List.append_of_mem hmem
    refine ⟨first ++ annexB l, b, rest ++ annexB r, ?_, hb⟩
    rw [h.eq, annexB, List.flatMap_append, List.flatMap_cons]
    simp [annexB]

/-- There is a unit that is not empty. -/
theorem hasUnit_iff (h : IsCut data first units) : HasUnit data ↔ filled units ≠ [] := by
  rw [Ne, List.eq_nil_iff_forall_not_mem, not_forall_not]
  simp only [mem_filled]
  constructor
  · rintro ⟨pre, post, heq, hpost, hcode⟩
    obtain ⟨l, unit, r, rfl, -, rfl⟩ := h.occurrence heq
    refine ⟨unit, by simp, ?_⟩
    rintro rfl
    rcases annexB_front r with hr | ⟨rest, hr⟩
    · exact hpost hr
    · exact hcode ⟨rest, hr.symm⟩
  · rintro ⟨unit, hmem, hne⟩
    have hfree := h.units unit hmem
    obtain ⟨l, r, rfl⟩ := List.append_of_mem hmem
    obtain ⟨b, rest, rfl⟩ := List.exists_cons_of_ne_nil hne
    refine ⟨first ++ annexB l, b :: rest ++ annexB r, ?_, by simp, ?_⟩
    · rw [h.eq, annexB, List.flatMap_append, List.flatMap_cons]
      simp [annexB]
    · rintro ⟨more, hmore⟩
      refine take_ne_startCode hfree (annexB_front r) ?_
      rw [← List.cons_append, ← hmore]
      rfl

theorem containsIdrNalu_iff (h : IsCut data first units) : containsIdrNalu data = true ↔
    LongIdr data ∨ firstNaluType data = some 5 ∧ ¬ HasUnit data := by
  rw [containsIdrNalu, containsNaluType_units h, longIdr_iff h, hasUnit_iff h, firstNaluType_eq,
    not_not, and_comm]

end Cut

variable {data : List UInt8}

/-- The first unit is an IDR unit. -/
theorem longIdr_of_first (hcode : startCode <+: data) (h : firstNaluType data = some 5) :
    LongIdr data := by
  obtain ⟨post, rfl⟩ := hcode
  rw [firstNaluType_eq] at h
  have hbody : withoutCode (startCode ++ post) = post := rfl
  rw [hbody, typeOf_eq_idr_iff] at h
  obtain ⟨b, rest, rfl, hb⟩ := h
  exact ⟨[], b, rest, rfl, hb⟩

/-- The dispatcher goes by the first byte as well. -/
theorem isKeyframeAnnexB_iff (data : List UInt8) :
    isKeyframeAnnexB data = true ↔ LongIdr data ∨ firstNaluType data = some 5 := by
  obtain ⟨first, units, hcut⟩ := exists_units data
  rw [isKeyframeAnnexB, Bool.or_eq_true, beq_iff_eq, containsIdrNalu_iff hcut]
  exact ⟨fun h => h.elim .inr fun h => h.imp_right And.left,
    fun h => h.elim (fun h => .inr (.inl h)) .inl⟩

/-- The player puts a start code in front, where there is none. Behind one of three bytes it sees
the first unit only if it is alone. -/
theorem containsIdrNalu_ensureAnnexB_iff (hne : data ≠ []) :
    containsIdrNalu (ensureAnnexB data) = true ↔
    LongIdr data ∨ firstNaluType data = some 5 ∧ (shortCode <+: data → ¬ HasUnit data) := by
  obtain ⟨first, units, hcut⟩ := exists_units data
  rw [ensureAnnexB_of_ne_nil hne]
  by_cases hcode : startCode <+: data
  · rw [if_pos (.inl hcode), containsIdrNalu_iff hcut]
    have hlong : ∀ p, LongIdr data ∨ firstNaluType data = some 5 ∧ p ↔ LongIdr data := fun p =>
      or_iff_left_of_imp fun h => longIdr_of_first hcode h.1
    rw [hlong, hlong]
  · by_cases hshort : shortCode <+: data
    · rw [if_pos (.inr hshort), containsIdrNalu_iff hcut, forall_prop_of_true hshort]
    · rw [if_neg (not_or.mpr ⟨hcode, hshort⟩)]
      have hfirst : first ≠ [] := by
        rintro rfl
        rcases annexB_front units with hnil | ⟨rest, hrest⟩
        · exact hne (hcut.eq.trans hnil)
        · exact hcode ⟨rest, (hcut.eq.trans hrest).symm⟩
      have hcut' : IsCut (startCode ++ data) [] (first :: units) := by
        refine ⟨?_, not_startCode_nil, List.forall_mem_cons.mpr ⟨hcut.first, hcut.units⟩⟩
        rw [hcut.eq, annexB_cons, List.nil_append, List.append_assoc]
      have hunit : HasUnit (startCode ++ data) := by
        rw [hasUnit_iff hcut', filled_cons, if_neg hfirst]
        exact List.cons_ne_nil _ _
      have htype : typeOf first = firstNaluType data := by
        obtain ⟨b, rest, rfl⟩ := List.exists_cons_of_ne_nil hfirst
        rw [firstNaluType_eq, withoutCode_of_not hcode hshort, hcut.eq]
        rfl
      have hexists : (∃ unit ∈ first :: units, typeOf unit = some 5) ↔
          firstNaluType data = some 5 ∨ ∃ unit ∈ units, typeOf unit = some 5 := by
        rw [← htype]
        simp only [List.mem_cons, or_and_right, exists_or, exists_eq_left]
      rw [containsIdrNalu_iff hcut', longIdr_iff hcut', longIdr_iff hcut, hexists,
        or_iff_left fun h => h.2 hunit, or_comm, and_iff_left fun h => absurd h hshort]

/-! ## The same answer -/

/-- The condition: the frame has the flag, or an IDR unit behind a start code of four bytes; or
there is one behind a start code of three bytes, with a byte behind its first, exactly if the first
unit is one, and if that one is behind three bytes, nothing is behind four. -/
def SeenAlike (frame : MediaFrame) : Prop :=
  frame.isKeyframe = true ∨ LongIdr frame.data ∨
    (firstNaluType frame.data = some 5 ↔ ShortIdr frame.data) ∧
      (firstNaluType frame.data = some 5 → shortCode <+: frame.data → ¬ HasUnit frame.data)

/-- The three tests say the same of a frame **exactly under this condition**. -/
theorem seenAlike_iff {frame : MediaFrame} (hvideo : frame.codec.isVideo) (hne : frame.data ≠ []) :
    isVideoKeyframe frame = isPlayableIdr frame ∧ isPlayableIdr frame = isIdrFrame frame ↔
      SeenAlike frame := by
  have hplayable : isPlayableVideo frame = true := by
    rw [isPlayableVideo, hvideo, List.isEmpty_eq_false_iff.mpr hne]
    rfl
  rw [isVideoKeyframe, isPlayableIdr, isIdrFrame, hvideo, hplayable, SeenAlike]
  cases frame.isKeyframe with
  | true => simp
  | false =>
    have hring := annexBContainsIdr_iff frame.data
    have hdispatcher := isKeyframeAnnexB_iff frame.data
    have hplayer := containsIdrNalu_ensureAnnexB_iff hne
    simp only [Bool.not_true, Bool.false_eq_true, if_false, Bool.false_or, Bool.true_and, false_or]
    have hindexed : annexBContainsIdr frame.data = isKeyframeAnnexB frame.data ↔ _ :=
      Bool.eq_iff_iff
    have hprimed : isKeyframeAnnexB frame.data = containsIdrNalu (ensureAnnexB frame.data) ↔ _ :=
      Bool.eq_iff_iff
    rw [hindexed, hprimed, hring, hdispatcher, hplayer]
    by_cases hlong : LongIdr frame.data
    · simp [hlong]
    · by_cases hfirst : firstNaluType frame.data = some 5
      · simp [hlong, hfirst]
      · simp [hlong, hfirst]

/-- An IDR unit behind the sets, all with their start codes. -/
def codedIdrFrame : MediaFrame :=
  .new "live/cam" 0 0 [0, 0, 0, 1, 0x67, 0x42, 0, 0, 0, 1, 0x68, 0xCE, 0, 0, 0, 1, 0x65, 0x88]
    false .h264

theorem seenAlike_idr : (codedIdrFrame.codec.isVideo = true ∧ codedIdrFrame.data ≠ []) ∧
    (isVideoKeyframe codedIdrFrame = isPlayableIdr codedIdrFrame ∧
      isPlayableIdr codedIdrFrame = isIdrFrame codedIdrFrame ↔
      SeenAlike codedIdrFrame) := by
  have hvideo : codedIdrFrame.codec.isVideo = true := rfl
  have hne : codedIdrFrame.data ≠ [] := List.cons_ne_nil _ _
  exact ⟨⟨hvideo, hne⟩, seenAlike_iff hvideo hne⟩

/-- An IDR unit **without a start code** is a key frame to all but the ring. -/
theorem seenAlike_fails : ¬ ∀ frame : MediaFrame, frame.codec.isVideo = true → frame.data ≠ [] →
    isVideoKeyframe frame = isPlayableIdr frame ∧ isPlayableIdr frame = isIdrFrame frame := by
  intro h
  have hsame := (h (.new "live/cam" 0 0 [0x65, 0x88] false .h264) rfl (List.cons_ne_nil _ _)).1
  exact absurd hsame (by decide)

end VcpMediaServer
