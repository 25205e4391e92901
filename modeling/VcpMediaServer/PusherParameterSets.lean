import Mathlib.Data.Nat.Find
import VcpMediaServer.AnnexBUnits
import VcpMediaServer.RtspPusher

/-!
# The parameter sets of the pusher

`RtspCommon::extract_sps_pps`, which the pusher runs on key frames, beside the function of the same
name in `h264_util.rs`. It cuts at **three** bytes, so that a unit keeps the first byte of the start
code behind it, and at the end of a buffer it looks at bytes that need not be there.

* `nextStart_eq` — the search for a start code, which ends four bytes in front of the end.
* `isSome_extractSpsPps_iff` — on which bytes it does not panic.
* `spsPpsLoop_units` — what it finds in an access unit.
* `extractSpsPps_iff` — when it does not panic, and when both functions find the same.
-/

namespace VcpMediaServer

namespace RtspCommon

variable {payload : List UInt8} {i : ℕ}

/-! ## Start codes -/

/-- A start code of three bytes stands at `j`. -/
def CodeAt (payload : List UInt8) (j : ℕ) : Prop :=
  payload.getD j 0 = 0 ∧ payload.getD (j + 1) 0 = 0 ∧ payload.getD (j + 2) 0 = 1

instance (payload : List UInt8) (j : ℕ) : Decidable (CodeAt payload j) :=
  inferInstanceAs (Decidable (_ ∧ _))

/-- The search ends at the first start code from `i` on, or four bytes in front of the end. -/
theorem nextStart_eq {k fuel : ℕ} (hik : i ≤ k) (hk : k ≤ payload.length - 4)
    (hbefore : ∀ j, i ≤ j → j < k → ¬ CodeAt payload j)
    (hat : k < payload.length - 4 → CodeAt payload k) (hfuel : payload.length ≤ i + fuel) :
    nextStart payload fuel i = k := by
  induction fuel generalizing i with
  | zero =>
    rw [nextStart]
    omega
  | succ fuel ih =>
    rw [nextStart]
    by_cases hlt : i < payload.length - 4
    · rw [if_pos hlt]
      by_cases hcode : CodeAt payload i
      · have hsame : i = k := by
          by_contra hne
          exact hbefore i (Nat.le_refl i) (by omega) hcode
        rw [if_pos ⟨hcode.1, hcode.2.1⟩, if_pos hcode.2.2]
        exact hsame
      · have hne : i ≠ k := by
          rintro rfl
          exact hcode (hat hlt)
        have hnext : nextStart payload fuel (i + 1) = k :=
          ih (by omega) (fun j hj => hbefore j (by omega)) (by omega)
        split
        · next hzeros =>
          rw [if_neg fun hone => hcode ⟨hzeros.1, hzeros.2, hone⟩]
          split
          · next hfour =>
            -- a start code of four bytes: the one of three is behind its first
            by_contra hother
            exact hbefore (i + 1) (by omega) (by omega) ⟨hzeros.2, hfour.1, hfour.2⟩
          · exact hnext
        · exact hnext
    · rw [if_neg hlt]
      omega

/-- There is such a place. -/
theorem exists_nextStart (h : i ≤ payload.length - 4) : ∃ k, i ≤ k ∧ k ≤ payload.length - 4 ∧
    (∀ j, i ≤ j → j < k → ¬ CodeAt payload j) ∧ (k < payload.length - 4 → CodeAt payload k) := by
  have hexists : ∃ k, i ≤ k ∧ (payload.length - 4 ≤ k ∨ CodeAt payload k) :=
    ⟨payload.length - 4, h, .inl (Nat.le_refl _)⟩
  have hfind := Nat.find_spec hexists
  refine ⟨Nat.find hexists, hfind.1, Nat.find_min' hexists ⟨h, .inl (Nat.le_refl _)⟩, ?_, ?_⟩
  · intro j hj hlt hcode
    exact Nat.find_min hexists hlt ⟨hj, .inr hcode⟩
  · intro hlt
    exact hfind.2.resolve_left (Nat.not_le.mpr hlt)

/-! ## Panics -/

/-- What is left from `i` on does not lead out of bounds: it is nothing, or three bytes, or it is
longer, the last two bytes are not all that is behind a start code, and the last but one is not 1,
unless the last three are. -/
def EndsWell (payload : List UInt8) (i : ℕ) : Prop :=
  payload.length ≤ i ∨ payload.length = i + 3 ∨
    i + 4 ≤ payload.length ∧ ¬ (i + 5 ≤ payload.length ∧ CodeAt payload (payload.length - 5)) ∧
      (payload.getD (payload.length - 2) 0 ≠ 1 ∨
        i + 6 ≤ payload.length ∧ CodeAt payload (payload.length - 6))

instance (payload : List UInt8) (i : ℕ) : Decidable (EndsWell payload i) :=
  inferInstanceAs (Decidable (_ ∨ _))

/-- Start codes do not overlap. -/
theorem not_codeAt_of_codeAt {k : ℕ} (h : CodeAt payload k) :
    ¬ CodeAt payload (k + 1) ∧ ¬ CodeAt payload (k + 2) := by
  have hne : payload.getD (k + 2) 0 ≠ 0 := by
    rw [h.2.2]
    decide
  exact ⟨fun h' => hne h'.2.1, fun h' => hne h'.1⟩

/-- Behind a start code the same is left to see. -/
theorem endsWell_of_codeAt {k : ℕ} (hik : i ≤ k) (hk : k < payload.length - 4)
    (hcode : CodeAt payload k) :
    EndsWell payload (k + 3) ↔ EndsWell payload i := by
  obtain ⟨hone, htwo⟩ := not_codeAt_of_codeAt hcode
  rw [EndsWell, EndsWell]
  generalize payload.length = n at hk ⊢
  have hlonger : ∀ (P : Prop) {j : ℕ}, j + 4 ≤ n → (n ≤ j ∨ n = j + 3 ∨ j + 4 ≤ n ∧ P ↔ P) := by
    intro P j hj
    refine ⟨?_, fun h => .inr (.inr ⟨hj, h⟩)⟩
    rintro (hle | heq | h)
    · omega
    · omega
    · exact h.2
  have hlast : n - 5 = k ∨ n - 5 = k + 1 ∨ n - 5 = k + 2 ∨ k + 8 ≤ n := by omega
  rcases hlast with heq | heq | heq | hlong
  · -- two bytes are left
    rw [heq]
    simp only [hcode, and_true]
    omega
  · -- three bytes are left
    have hlen : n = k + 6 := by omega
    have hsix : n - 6 = k := by omega
    rw [heq, hsix]
    simp only [hone, hcode, and_true, and_false, not_false_eq_true, true_and]
    omega
  · have hsix : n - 6 = k + 1 := by omega
    rw [hlonger _ (by omega), hlonger _ (by omega), heq, hsix]
    simp only [hone, htwo, and_false]
  · have h5 : (k + 3 + 5 ≤ n ∧ CodeAt payload (n - 5)) ↔ (i + 5 ≤ n ∧ CodeAt payload (n - 5)) :=
      and_congr_left fun _ => by omega
    rw [hlonger _ (by omega), hlonger _ (by omega), h5]
    by_cases hsix : n - 6 = k + 2
    · rw [hsix]
      simp only [htwo, and_false]
    · have h6 : (k + 3 + 6 ≤ n ∧ CodeAt payload (n - 6)) ↔ (i + 6 ≤ n ∧ CodeAt payload (n - 6)) :=
        and_congr_left fun _ => by omega
      rw [h6]

/-- One byte behind a start code is too little: the byte in front of it is the last of the start
code. -/
theorem not_endsWell_of_codeAt {k : ℕ} (hcode : CodeAt payload k) (hlen : payload.length = k + 4)
    (hik : i + 2 ≤ k) :
    ¬ EndsWell payload i := by
  obtain ⟨j, rfl⟩ := Nat.exists_eq_add_of_le' (Nat.le_trans (Nat.le_add_left 2 i) hik)
  have hsix : payload.length - 6 = j := by omega
  have htwo : payload.length - 2 = j + 2 + 2 := by omega
  have hnot : ¬ CodeAt payload j := fun hcode' => (not_codeAt_of_codeAt hcode').2 hcode
  rw [EndsWell, hsix, htwo, hcode.2.2]
  simp only [hnot, ne_eq, not_true_eq_false, and_false, or_self, or_false]
  omega

/-- From the last four bytes on nothing is searched. -/
theorem nextStart_of_le {fuel : ℕ} (h : payload.length - 4 ≤ i) : nextStart payload fuel i = i := by
  cases fuel with
  | zero => rfl
  | succ fuel => rw [nextStart, if_neg (Nat.not_lt.mpr h)]

/-- The outer loop does not panic exactly if what is left from `i` on ends well. -/
theorem isSome_spsPpsLoop {fuel : ℕ} {sps pps : Option (List UInt8)} (hlen : 4 ≤ payload.length)
    (hfuel : payload.length ≤ i + fuel) : (spsPpsLoop payload fuel i sps pps).isSome ↔
        EndsWell payload i := by
  induction fuel generalizing i sps pps with
  | zero => exact iff_of_true rfl (.inl hfuel)
  | succ fuel ih =>
    rw [spsPpsLoop]
    by_cases hi : i < payload.length
    · rw [if_pos hi]
      dsimp only
      by_cases hsearch : i ≤ payload.length - 4
      · obtain ⟨k, hik, hk, hbefore, hat⟩ := exists_nextStart hsearch
        rw [nextStart_eq hik hk hbefore hat (by omega), if_neg (by omega)]
        rcases Nat.lt_or_eq_of_le hk with hlt | rfl
        · have hcode := hat hlt
          rw [if_pos hcode.2.2, ih (by omega)]
          exact endsWell_of_codeAt hik hlt hcode
        · -- there is no start code: the search is four bytes in front of the end
          have hbyte : payload.length - 4 + 2 = payload.length - 2 := by omega
          have hfive : ¬ (i + 5 ≤ payload.length ∧ CodeAt payload (payload.length - 5)) :=
            fun h => hbefore _ (by omega) (by omega) h.2
          have hsix : ¬ (i + 6 ≤ payload.length ∧ CodeAt payload (payload.length - 6)) :=
            fun h => hbefore _ (by omega) (by omega) h.2
          rw [hbyte, EndsWell]
          by_cases hone : payload.getD (payload.length - 2) 0 = 1
          · rw [if_pos hone, ih (by omega), EndsWell]
            simp only [hone, hsix, ne_eq, not_true_eq_false, or_self, and_false, or_false]
            omega
          · rw [if_neg hone, ih (by omega)]
            exact iff_of_true (.inl (by omega)) (.inr (.inr ⟨by omega, hfive, .inl hone⟩))
      · rw [nextStart_of_le (by omega)]
        by_cases hshort : payload.length ≤ i + 2
        · rw [if_pos hshort, EndsWell]
          simp only [Option.isSome_none, Bool.false_eq_true, false_iff]
          omega
        · have hnext : payload.length ≤ i + (if payload.getD (i + 2) 0 = 1 then 3 else 4) := by
            split <;> omega
          rw [if_neg hshort, ih (by omega)]
          exact iff_of_true (.inl hnext) (.inr (.inl (by omega)))
    · rw [if_neg hi]
      exact iff_of_true rfl (.inl (by omega))

/-- The bytes on which `extract_sps_pps` does not panic: they do not begin with two zeros, or end
well. -/
def SafelyRead (data : List UInt8) : Prop :=
  4 ≤ data.length ∧ data.getD 0 0 = 0 ∧ data.getD 1 0 = 0 →
    EndsWell data (if data.getD 2 0 = 1 then 3 else 4)

instance (data : List UInt8) : Decidable (SafelyRead data) := inferInstanceAs (Decidable (_ → _))

theorem isSome_extractSpsPps_iff (data : List UInt8) :
    (extractSpsPps data).isSome ↔ SafelyRead data := by
  rw [extractSpsPps, SafelyRead]
  by_cases hfront : 4 ≤ data.length ∧ data.getD 0 0 = 0 ∧ data.getD 1 0 = 0
  · rw [if_pos hfront, isSome_spsPpsLoop hfront.1 (by omega)]
    exact ⟨fun h _ => h, fun h => h hfront⟩
  · rw [if_neg hfront]
    refine iff_of_true ?_ fun h => absurd h hfront
    split <;> rfl

/-! ## Access units -/

section Units

variable {pre unit : List UInt8} {units : List (List UInt8)}

/-- A start code by its bytes. -/
theorem codeAt_iff {j : ℕ} : CodeAt payload j ↔ shortCode <+: payload.drop j := by
  have hget : ∀ d, payload.getD (j + d) 0 = (payload.drop j).getD d 0 := by
    intro d
    rw [List.getD_eq_getElem?_getD, List.getD_eq_getElem?_getD, List.getElem?_drop]
  have hfirst := hget 0
  rw [Nat.add_zero] at hfirst
  rw [CodeAt, hfirst, hget, hget]
  rcases payload.drop j with _ | ⟨a, _ | ⟨b, _ | ⟨c, rest⟩⟩⟩
  · simp [shortCode]
  · simp [shortCode]
  · simp [shortCode]
  · simp [shortCode, eq_comm]

theorem codeAt_append {j : ℕ} {rest : List UInt8} : CodeAt (pre ++ rest) (pre.length + j) ↔
    CodeAt rest j := by
  rw [codeAt_iff, codeAt_iff, List.drop_length_add_append]

/-- The first byte of a start code of four bytes is in front of one of three. -/
theorem unit_annexB_cons (unit next : List UInt8) (units : List (List UInt8)) :
    unit ++ annexB (next :: units) = unit ++ [0] ++ (shortCode ++ (next ++ annexB units)) := by
  rw [annexB_cons, List.append_assoc, List.append_assoc]
  rfl

theorem codeAt_unit (next : List UInt8) :
    CodeAt (unit ++ annexB (next :: units)) (unit.length + 1) := by
  have hlen : unit.length + 1 =
    (unit ++ [0]).length := by rw [List.length_append, List.length_singleton]
  rw [codeAt_iff, unit_annexB_cons, hlen, List.drop_left]
  exact List.prefix_append _ _

/-- There is no start code in a unit, nor across its end. -/
theorem not_codeAt_unit {j : ℕ} (h : ¬ shortCode <:+: unit)
    (hj : units ≠ [] → j < unit.length + 1) :
    ¬ CodeAt (unit ++ annexB units) j := by
  rw [codeAt_iff]
  rintro ⟨post, hpost⟩
  have hcut : (unit ++ annexB units).take j ++ (shortCode ++ post) = unit ++ annexB units := by
    rw [hpost, List.take_append_drop]
  cases units with
  | nil =>
    rw [annexB, List.flatMap_nil, List.append_nil] at hcut
    exact h ⟨unit.take j, post, by rw [List.append_assoc]; exact hcut⟩
  | cons next units =>
    have hlt := hj (List.cons_ne_nil _ _)
    have hle := List.length_take_le j (unit ++ annexB (next :: units))
    rw [unit_annexB_cons] at hcut hle
    rcases unbordered_shortCode.apart hcut with ⟨heq, -⟩ | ⟨z, hinside, -⟩ | ⟨z, hlong⟩
    · rw [heq, List.length_append, List.length_singleton] at hle
      omega
    · exact not_shortCode_concat h ⟨_, z, by rw [hinside, List.append_assoc]⟩
    · rw [hlong, List.length_append, List.length_append, List.length_singleton] at hle
      omega

theorem not_codeAt_last {m : ℕ} (h : ¬ shortCode <:+: unit) (hm : pre.length ≤ m) :
    ¬ CodeAt (pre ++ unit) m := by
  obtain ⟨j, rfl⟩ := Nat.exists_eq_add_of_le hm
  rw [codeAt_append, codeAt_iff]
  exact fun hcode => h (hcode.isInfix.trans (List.drop_suffix j unit).isInfix)

/-- What a last unit has to be: of three bytes, or longer, and the last byte but one is not 1. -/
def Readable (unit : List UInt8) : Prop :=
  unit.length = 3 ∨ 4 ≤ unit.length ∧ unit.getD (unit.length - 2) 0 ≠ 1

instance (unit : List UInt8) : Decidable (Readable unit) := inferInstanceAs (Decidable (_ ∨ _))

/-- The bytes up to and with a start code are in front of the next unit. -/
theorem behind_startCode (pre unit next : List UInt8) (units : List (List UInt8)) :
    pre ++ (unit ++ annexB (next :: units)) =
        pre ++ unit ++ startCode ++ (next ++ annexB units) := by
  simp only [annexB_cons, List.append_assoc]

theorem length_behind (pre unit : List UInt8) :
    (pre ++ unit ++ startCode).length = pre.length + (unit.length + 1) + 3 := by
  rw [List.length_append, List.length_append]
  exact Nat.add_assoc _ _ _

theorem codeAt_behind (pre unit next : List UInt8) (units : List (List UInt8)) :
    CodeAt (pre ++ (unit ++ annexB (next :: units))) (pre.length + (unit.length + 1)) :=
  codeAt_append.mpr (codeAt_unit next)

theorem length_units (pre unit next : List UInt8) (units : List (List UInt8)) :
    (pre ++ (unit ++ annexB (next :: units))).length =
      pre.length + (unit.length + 1) + 3 + (next.length + (annexB units).length) := by
  rw [behind_startCode, List.length_append, length_behind, List.length_append]

/-- A byte of the last unit, counted from the end. -/
theorem getD_append_sub {n : ℕ} (hn : n ≤ unit.length) :
    (pre ++ unit).getD ((pre ++ unit).length - n) 0 = unit.getD (unit.length - n) 0 := by
  have hlen : (pre ++ unit).length = pre.length + unit.length := List.length_append
  have hat : (pre ++ unit).length - n - pre.length = unit.length - n := by omega
  rw [List.getD_eq_getElem?_getD, List.getElem?_append_right (by omega), hat,
    List.getD_eq_getElem?_getD]

/-- A single unit ends well if it is readable. -/
theorem endsWell_unit (hne : unit ≠ []) (hunit : ¬ shortCode <:+: unit) :
    EndsWell (pre ++ unit) pre.length ↔ Readable unit := by
  have hpos := List.length_pos_of_ne_nil hne
  have hlen : (pre ++ unit).length = pre.length + unit.length := List.length_append
  have hfive :
      ¬ (pre.length + 5 ≤ (pre ++ unit).length ∧ CodeAt (pre ++ unit) ((pre ++ unit).length - 5)) :=
    fun hcode => not_codeAt_last hunit (by omega) hcode.2
  have hsix :
      ¬ (pre.length + 6 ≤ (pre ++ unit).length ∧ CodeAt (pre ++ unit) ((pre ++ unit).length - 6)) :=
    fun hcode => not_codeAt_last hunit (by omega) hcode.2
  rw [EndsWell, Readable]
  simp only [hfive, hsix, not_false_eq_true, true_and, or_false]
  by_cases hfour : 4 ≤ unit.length
  · rw [getD_append_sub (by omega), hlen]
    by_cases hone : unit.getD (unit.length - 2) 0 = 1
    · simp only [hone, ne_eq, not_true_eq_false, and_false, or_false]
      omega
    · simp only [hone, ne_eq, not_false_eq_true, and_true]
      omega
  · rw [hlen]
    omega

/-- The last unit decides if an access unit ends well. -/
theorem endsWell_units (h : ∀ u ∈ unit :: units, u ≠ [] ∧ ¬ shortCode <:+: u) :
    EndsWell (pre ++ (unit ++ annexB units)) pre.length ↔
      Readable ((unit :: units).getLast (List.cons_ne_nil _ _)) := by
  induction units generalizing pre unit with
  | nil =>
    obtain ⟨hne, hunit⟩ := h unit List.mem_cons_self
    have hnil : unit ++ annexB [] = unit := List.append_nil unit
    rw [hnil, List.getLast_singleton]
    exact endsWell_unit hne hunit
  | cons next units ih =>
    obtain ⟨⟨hne, -⟩, hrest⟩ := List.forall_mem_cons.mp h
    have hpos := List.length_pos_of_ne_nil hne
    have hpos' := List.length_pos_of_ne_nil (hrest next List.mem_cons_self).1
    have hcode := codeAt_behind pre unit next units
    have hlen := length_units pre unit next units
    rw [List.getLast_cons (List.cons_ne_nil _ _)]
    by_cases hlong : next.length + (annexB units).length = 1
    · -- a last unit of one byte
      obtain rfl : units = [] := annexB_eq_nil_iff.mp (List.length_eq_zero_iff.mp (by omega))
      refine iff_of_false (not_endsWell_of_codeAt hcode (by omega) (by omega)) ?_
      rw [List.getLast_singleton, Readable]
      omega
    · rw [← endsWell_of_codeAt (Nat.le_add_right _ _) (by omega) hcode, behind_startCode,
        ← length_behind]
      exact ih hrest

/-! ## The units that are found -/

/-- In front of another unit the search ends at the start code between them. -/
theorem nextStart_unit {next : List UInt8} (h : ¬ shortCode <:+: unit)
    (hlong : 2 ≤ next.length + (annexB units).length) :
    nextStart (pre ++ (unit ++ annexB (next :: units)))
      (pre ++ (unit ++ annexB (next :: units))).length pre.length =
      pre.length + (unit.length + 1) := by
  have hlen := length_units pre unit next units
  refine nextStart_eq (Nat.le_add_right _ _)
    (by omega) ?_ (fun _ => codeAt_behind pre unit next units) (Nat.le_add_left _ _)
  intro j hj hlt
  obtain ⟨d, rfl⟩ := Nat.exists_eq_add_of_le hj
  rw [codeAt_append]
  exact not_codeAt_unit h fun _ => by omega

/-- In a last unit that is readable it ends at the last three bytes, or at the last four, with which
the loop is over. -/
theorem nextStart_last (pre : List UInt8) (h : ¬ shortCode <:+: unit) (hreadable : Readable unit) :
    ∃ last, nextStart (pre ++ unit) (pre ++ unit).length pre.length = last ∧
      (pre ++ unit).length - 4 ≤ last ∧
      last + 2 < (pre ++ unit).length ∧
      (pre ++ unit).length ≤ last + if (pre ++ unit).getD (last + 2) 0 = 1 then 3 else 4 := by
  have hlen : (pre ++ unit).length = pre.length + unit.length := List.length_append
  rcases hreadable with hthree | ⟨hlong, hone⟩
  · refine ⟨pre.length, nextStart_of_le (by omega), by omega, by omega, ?_⟩
    split <;> omega
  · refine ⟨(pre ++ unit).length - 4, ?_, Nat.le_refl _, by omega, ?_⟩
    · exact nextStart_eq (by omega) (Nat.le_refl _) (fun j hj _ => not_codeAt_last h hj)
        (fun hlt => absurd hlt (Nat.lt_irrefl _)) (by omega)
    · have hbyte : (pre ++ unit).length - 4 + 2 = (pre ++ unit).length - 2 := by omega
      rw [hbyte, getD_append_sub (by omega), if_neg hone]
      omega

/-- The first unit of a type, behind what is found so far. -/
theorem or_find?_cons {t : UInt8} (found : Option (List UInt8)) {nal : List UInt8} (hne : nal ≠ [])
    (nals : List (List UInt8)) :
    (if nal ≠ [] ∧ firstNalType nal = t ∧ found = none then some nal else found).or
        (nals.find? fun nal => typeOf nal == some t) =
      found.or ((nal :: nals).find? fun nal => typeOf nal == some t) := by
  obtain ⟨b, rest, rfl⟩ := List.exists_cons_of_ne_nil hne
  have htype : (typeOf (b :: rest) == some t) = decide (firstNalType (b :: rest) = t) := by
    rw [Bool.eq_iff_iff]
    simp [typeOf_cons, firstNalType]
  rw [List.find?_cons, htype]
  cases found with
  | some found => simp
  | none =>
    by_cases h : firstNalType (b :: rest) = t
    · simp [h]
    · simp [h]

theorem spsPpsLoop_of_le {fuel : ℕ} {sps pps : Option (List UInt8)} (h : payload.length ≤ i) :
    spsPpsLoop payload fuel i sps pps = some (sps, pps) := by
  cases fuel with
  | zero => rfl
  | succ fuel => rw [spsPpsLoop, if_neg (Nat.not_lt.mpr h)]

/-- The units as they are cut at three bytes, behind those found so far. -/
theorem spsPpsLoop_units {fuel : ℕ} {sps pps : Option (List UInt8)}
    (h : ∀ u ∈ unit :: units, u ≠ [] ∧ ¬ shortCode <:+: u)
    (hends : EndsWell (pre ++ (unit ++ annexB units)) pre.length)
    (hfuel : (pre ++ (unit ++ annexB units)).length ≤ pre.length + fuel) :
    spsPpsLoop (pre ++ (unit ++ annexB units)) fuel pre.length sps pps = some
      (sps.or ((zeroEnded (unit :: units)).find? fun nal => typeOf nal == some 7),
        pps.or ((zeroEnded (unit :: units)).find? fun nal => typeOf nal == some 8)) := by
  induction units generalizing pre unit fuel sps pps with
  | nil =>
    obtain ⟨hne, hunit⟩ := h unit List.mem_cons_self
    have hpos := List.length_pos_of_ne_nil hne
    have hnil : unit ++ annexB [] = unit := List.append_nil unit
    rw [hnil] at hends hfuel ⊢
    have hlen : (pre ++ unit).length = pre.length + unit.length := List.length_append
    obtain ⟨fuel, rfl⟩ : ∃ n, fuel = n + 1 := ⟨fuel - 1, by omega⟩
    obtain ⟨last, hlast, hfour, htwo, hover⟩ :=
      nextStart_last pre hunit ((endsWell_unit hne hunit).mp hends)
    rw [spsPpsLoop, if_pos (by omega)]
    dsimp only
    rw [hlast, if_neg (Nat.not_lt.mpr hfour), List.drop_left, if_neg (Nat.not_le.mpr htwo),
      spsPpsLoop_of_le hover, zeroEnded, ← or_find?_cons sps hne, ← or_find?_cons pps hne]
    simp only [List.find?_nil, Option.or_none]
  | cons next units ih =>
    obtain ⟨⟨hne, hunit⟩, hrest⟩ := List.forall_mem_cons.mp h
    have hpos := List.length_pos_of_ne_nil hne
    have hpos' := List.length_pos_of_ne_nil (hrest next List.mem_cons_self).1
    have hcode := codeAt_behind pre unit next units
    have hlen := length_units pre unit next units
    have hlong : next.length + (annexB units).length ≠ 1 := fun hone =>
      not_endsWell_of_codeAt hcode (by omega) (by omega) hends
    obtain ⟨fuel, rfl⟩ : ∃ n, fuel = n + 1 := ⟨fuel - 1, by omega⟩
    have hk : pre.length + (unit.length + 1) < (pre ++ (unit ++ annexB (next :: units))).length -
      4 := by omega
    have hslice : slice (pre ++ (unit ++ annexB (next :: units))) pre.length (unit.length + 1) =
        unit ++ [0] := by
      rw [slice, List.drop_left, unit_annexB_cons]
      exact List.take_left' (by simp)
    have hends' := (endsWell_of_codeAt (Nat.le_add_right _ _) hk hcode).mpr hends
    rw [spsPpsLoop, if_pos (by omega)]
    dsimp only
    rw [nextStart_unit hunit (by omega), if_pos hk, Nat.add_sub_cancel_left, hslice,
      if_neg (by omega), hcode.2.2, if_pos rfl]
    rw [behind_startCode, ← length_behind] at hends' ⊢
    rw [behind_startCode] at hfuel
    rw [ih hrest hends' (by rw [length_behind]; omega), zeroEnded, or_find?_cons sps (by simp),
      or_find?_cons pps (by simp)]

end Units

/-! ## The same parameter sets -/

section Same

variable {nals : List (List UInt8)} {t : UInt8}

/-- If there is at most one, the first is the last. -/
theorem find?_reverse_of_countP_le_one {p : List UInt8 → Bool} (h : nals.countP p ≤ 1) :
    nals.reverse.find? p = nals.find? p := by
  rw [List.countP_eq_length_filter] at h
  rw [← List.head?_filter, ← List.head?_filter, List.filter_reverse, List.head?_reverse]
  rcases hfilter : nals.filter p with _ | ⟨nal, _ | ⟨next, rest⟩⟩
  · rfl
  · rfl
  · simp [hfilter] at h

theorem zeroEnded_concat (nals : List (List UInt8)) (last : List UInt8) :
    zeroEnded (nals ++ [last]) = nals.map (fun nal => nal ++ [0]) ++ [last] := by
  induction nals with
  | nil => rfl
  | cons nal nals ih =>
    obtain ⟨next, rest, hrest⟩ :=
      List.exists_cons_of_ne_nil
        (List.append_ne_nil_of_right_ne_nil nals (List.cons_ne_nil last []))
    rw [List.cons_append, hrest, zeroEnded, ← hrest, ih]
    rfl

theorem typeOf_concat {nal : List UInt8} (hne : nal ≠ []) : typeOf (nal ++ [0]) = typeOf nal := by
  obtain ⟨b, rest, rfl⟩ := List.exists_cons_of_ne_nil hne
  rfl

/-- The zeros change what is found, unless it is the last unit. -/
theorem find?_zeroEnded_iff (hne : ∀ nal ∈ nals, nal ≠ []) :
    ((zeroEnded nals).find? fun nal => typeOf nal == some t) =
      (nals.find? fun nal => typeOf nal == some t) ↔
      ∀ nal ∈ nals.dropLast, typeOf nal ≠ some t := by
  rcases List.eq_nil_or_concat nals with rfl | ⟨nals, last, rfl⟩
  · simp [zeroEnded]
  rw [List.concat_eq_append] at hne ⊢
  have hsame : nals.find? ((fun nal => typeOf nal == some t) ∘ fun nal => nal ++ [0]) =
      nals.find? fun nal => typeOf nal == some t := by
    rw [← List.head?_filter, ← List.head?_filter]
    refine congrArg List.head? (List.filter_congr fun nal hmem => ?_)
    rw [Function.comp_apply, typeOf_concat (hne nal (List.mem_append_left _ hmem))]
  rw [zeroEnded_concat, List.find?_append, List.find?_append, List.find?_map, hsame,
    List.dropLast_concat]
  cases hfind : nals.find? fun nal => typeOf nal == some t with
  | none =>
    rw [List.find?_eq_none] at hfind
    refine iff_of_true rfl fun nal hmem ht => hfind nal hmem ?_
    rw [ht, beq_self_eq_true]
  | some nal =>
    refine iff_of_false ?_ fun hnone => ?_
    · simp only [Option.map_some, Option.some_or, Option.some.injEq]
      exact fun hsame => absurd (congrArg List.length hsame) (by simp)
    · have htype := List.find?_some hfind
      exact hnone nal (List.mem_of_find?_eq_some hfind) (beq_iff_eq.mp htype)

/-- The pusher does **not panic** exactly on the bytes that are read safely. In an access unit of
four-byte start codes, with at most one SPS and one PPS, it finds what `h264_util::extract_sps_pps`
finds **exactly if** the last unit is readable, and no parameter set is in front of another unit. -/
theorem extractSpsPps_iff (data : List UInt8) (h : ∀ nal ∈ nals, nal ≠ [] ∧ ¬ shortCode <:+: nal)
    (hsps : nals.countP (fun nal => typeOf nal == some 7) ≤ 1)
    (hpps : nals.countP (fun nal => typeOf nal == some 8) ≤ 1) :
    ((extractSpsPps data).isSome ↔ SafelyRead data) ∧
      (extractSpsPps (annexB nals) = some (VcpMediaServer.extractSpsPps (annexB nals)) ↔
        (∀ last ∈ nals.getLast?, Readable last) ∧
          ∀ nal ∈ nals.dropLast, typeOf nal ≠ some 7 ∧ typeOf nal ≠ some 8) := by
  refine ⟨isSome_extractSpsPps_iff data, ?_⟩
  cases nals with
  | nil => exact iff_of_true rfl (by simp)
  | cons nal nals =>
    have hfindable : ∀ u ∈ nal :: nals, Findable u := fun u hmem =>
      ⟨(h u hmem).1, fun hcode => (h u hmem).2 (List.IsInfix.trans ⟨[0], [], rfl⟩ hcode)⟩
    have hdata : annexB (nal :: nals) =
      startCode ++ (nal ++ annexB nals) := by rw [annexB_cons, List.append_assoc]
    have hloop : extractSpsPps (annexB (nal :: nals)) =
        spsPpsLoop (annexB (nal :: nals))
            (annexB (nal :: nals)).length startCode.length none none := by
      rw [hdata]
      rfl
    have hfour : 4 ≤ (annexB (nal :: nals)).length := by
      rw [hdata, List.length_append]
      exact Nat.le_add_right 4 _
    rw [VcpMediaServer.extractSpsPps, iterAnnexBNalRanges_annexB (List.cons_ne_nil _ _) hfindable,
      find?_reverse_of_countP_le_one hsps, find?_reverse_of_countP_le_one hpps, hloop,
      List.getLast?_eq_some_getLast (List.cons_ne_nil _ _)]
    have hlast : EndsWell (startCode ++ (nal ++ annexB nals)) startCode.length ↔
        Readable ((nal :: nals).getLast (List.cons_ne_nil _ _)) := endsWell_units h
    simp only [Option.mem_some_iff, forall_eq']
    rw [← hlast, ← hdata]
    by_cases hends : EndsWell (annexB (nal :: nals)) startCode.length
    · rw [hdata] at hends ⊢
      rw [spsPpsLoop_units h hends (Nat.le_add_left _ _), Option.some.injEq, Prod.mk.injEq,
        Option.none_or, Option.none_or, find?_zeroEnded_iff fun u hmem => (h u hmem).1,
        find?_zeroEnded_iff fun u hmem => (h u hmem).1]
      simp only [hends, true_and, forall_and]
    · have hnone :
          spsPpsLoop (annexB (nal :: nals))
              (annexB (nal :: nals)).length startCode.length none none = none := by
        rw [← Option.not_isSome_iff_eq_none, isSome_spsPpsLoop hfour (Nat.le_add_left _ _)]
        exact hends
      rw [hnone]
      exact iff_of_false (by simp) fun hboth => hends hboth.1

/-- A delimiter of three bytes behind the picture. -/
theorem extractSpsPps_delimiter :
    ((extractSpsPps [0, 0, 0, 1, 9, 0xF0, 0]).isSome ↔ SafelyRead [0, 0, 0, 1, 9, 0xF0, 0]) ∧
      (extractSpsPps (annexB [[0x65, 0x88], [9, 0xF0, 0]]) =
          some (VcpMediaServer.extractSpsPps (annexB [[0x65, 0x88], [9, 0xF0, 0]])) ↔
        (∀ last ∈ [[0x65, 0x88], [9, 0xF0, 0]].getLast?, Readable last) ∧
          ∀ nal ∈ [[0x65, 0x88], [9, 0xF0, 0]].dropLast, typeOf nal ≠ some 7 ∧
              typeOf nal ≠ some 8) :=
  extractSpsPps_iff [0, 0, 0, 1, 9, 0xF0, 0] (by decide) (by decide) (by decide)

/-- It **panics** on a delimiter of two bytes, and the SPS of a key frame has a zero too many. -/
theorem extractSpsPps_fails :
    extractSpsPps [0, 0, 0, 1, 9, 0xF0] = none ∧
      extractSpsPps (annexB [[0x67, 0x42], [0x68, 0xCE], [0x65, 0x88, 0x84, 0x21]]) =
        some (some [0x67, 0x42, 0], some [0x68, 0xCE, 0]) ∧
      VcpMediaServer.extractSpsPps (annexB [[0x67, 0x42], [0x68, 0xCE], [0x65, 0x88, 0x84, 0x21]]) =
        (some [0x67, 0x42], some [0x68, 0xCE]) := by
  decide

end Same

end RtspCommon

end VcpMediaServer
