import Mathlib.Data.List.Basic

/-!
# Patching the first match

A list in which one element is put in the place of the **first** one that meets a test or, if there
is none, behind the first one that meets another test.

* `replaceFirst`, `insertBehind`, `patch` — the two loops, and one after the other.
* `patch_eq_iff` — two pairs of tests patch a list alike exactly if they find the same places.
* `patch_eq_self_iff`, `count_patch` — when nothing changes, and what is not touched.
-/

namespace FirstMatch

universe u

variable {α : Type u}

/-- The first element that meets the test is replaced, if there is one. -/
def replaceFirst (f : α → Bool) (new : α) : List α → Option (List α)
  | [] => none
  | x :: l => if f x then some (new :: l) else (replaceFirst f new l).map (x :: ·)

/-- Behind the first element that meets the test one is inserted, if there is one. -/
def insertBehind (g : α → Bool) (new : α) : List α → Option (List α)
  | [] => none
  | x :: l => if g x then some (x :: new :: l) else (insertBehind g new l).map (x :: ·)

/-- The first loop, and the second one if it finds nothing. -/
def patch (f g : α → Bool) (new : α) (l : List α) : List α :=
  ((replaceFirst f new l).or (insertBehind g new l)).getD l

variable {f f' g g' : α → Bool} {new : α} {l : List α}

/-! ## Replacing -/

/-- A place behind the first one is not the first one. -/
theorem map_succ_ne_zero (place : Option ℕ) : place.map (· + 1) ≠ some 0 := by
  cases place <;> simp

theorem map_succ_eq_iff {place place' : Option ℕ} : place.map (· + 1) = place'.map (· + 1) ↔
    place = place' :=
  (Option.map_injective fun _ _ h => Nat.succ.inj h).eq_iff

theorem replaceFirst_eq_none_iff : replaceFirst f new l = none ↔ ∀ x ∈ l, f x = false := by
  induction l with
  | nil => simp [replaceFirst]
  | cons x l ih =>
    rw [replaceFirst, List.forall_mem_cons]
    cases hx : f x with
    | true => simp
    | false =>
      rw [if_neg Bool.false_ne_true, Option.map_eq_none_iff, ih]
      simp

theorem length_of_replaceFirst {r : List α} (h : replaceFirst f new l = some r) :
    r.length = l.length := by
  induction l generalizing r with
  | nil => cases h
  | cons x l ih =>
    rw [replaceFirst] at h
    split at h
    · rw [← Option.some.inj h, List.length_cons, List.length_cons]
    · obtain ⟨rest, hrest, rfl⟩ := Option.map_eq_some_iff.mp h
      rw [List.length_cons, List.length_cons, ih hrest]

theorem mem_of_replaceFirst {r : List α} (h : replaceFirst f new l = some r) : new ∈ r := by
  induction l generalizing r with
  | nil => cases h
  | cons x l ih =>
    rw [replaceFirst] at h
    split at h
    · rw [← Option.some.inj h]
      exact List.mem_cons_self
    · obtain ⟨rest, hrest, rfl⟩ := Option.map_eq_some_iff.mp h
      exact List.mem_cons_of_mem _ (ih hrest)

/-- If the new element meets both tests, a list is replaced in alike exactly where they find **the
same place**. -/
theorem replaceFirst_eq_iff (h : f new = true) (h' : f' new = true) :
    replaceFirst f new l = replaceFirst f' new l ↔ l.findIdx? f = l.findIdx? f' := by
  induction l with
  | nil => simp [replaceFirst]
  | cons x l ih =>
    rw [replaceFirst, replaceFirst, List.findIdx?_cons, List.findIdx?_cons]
    cases hx : f x <;> cases hx' : f' x
    · simp only [Bool.false_eq_true, if_false]
      rw [(Option.map_injective (List.cons_injective (a := x))).eq_iff, ih, map_succ_eq_iff]
    · -- the test that finds another element finds the new one too
      have hne : x ≠ new := by
        rintro rfl
        rw [h] at hx
        cases hx
      refine iff_of_false ?_ (map_succ_ne_zero _)
      cases replaceFirst f new l <;> simp [hne]
    · have hne : new ≠ x := by
        rintro rfl
        rw [h'] at hx'
        cases hx'
      refine iff_of_false ?_ (map_succ_ne_zero _).symm
      cases replaceFirst f' new l <;> simp [hne]
    · simp

/-- The element that is replaced is the new one already, or something changes. -/
theorem replaceFirst_eq_some_self_iff : replaceFirst f new l = some l ↔ l.find? f = some new := by
  induction l with
  | nil => simp [replaceFirst]
  | cons x l ih =>
    rw [replaceFirst, List.find?_cons]
    cases hx : f x with
    | true => simp [eq_comm]
    | false => simp [ih]

/-! ## Inserting -/

theorem length_of_insertBehind {r : List α} (h : insertBehind g new l = some r) :
    r.length = l.length + 1 := by
  induction l generalizing r with
  | nil => cases h
  | cons x l ih =>
    rw [insertBehind] at h
    split at h
    · rw [← Option.some.inj h]
      rfl
    · obtain ⟨rest, hrest, rfl⟩ := Option.map_eq_some_iff.mp h
      rw [List.length_cons, List.length_cons, ih hrest]

theorem insertBehind_eq_none_iff : insertBehind g new l = none ↔ ∀ x ∈ l, g x = false := by
  induction l with
  | nil => simp [insertBehind]
  | cons x l ih =>
    rw [insertBehind, List.forall_mem_cons]
    cases hx : g x with
    | true => simp
    | false =>
      rw [if_neg Bool.false_ne_true, Option.map_eq_none_iff, ih]
      simp

/-- The new element is behind another one. -/
theorem insertBehind_ne_some_cons (h : new ∉ l) (rest : List α) :
    insertBehind g new l ≠ some (new :: rest) := by
  cases l with
  | nil => simp [insertBehind]
  | cons x l =>
    have hne : x ≠ new := fun hx => h (by rw [hx]; exact List.mem_cons_self)
    rw [insertBehind]
    split
    · simp [hne]
    · cases insertBehind g new l <;> simp [hne]

/-- A list without the new element is inserted into alike exactly where two tests find **the same
place**. -/
theorem insertBehind_eq_iff (h : new ∉ l) :
    insertBehind g new l = insertBehind g' new l ↔ l.findIdx? g = l.findIdx? g' := by
  induction l with
  | nil => simp [insertBehind]
  | cons x l ih =>
    have hrest : new ∉ l := fun hmem => h (List.mem_cons_of_mem x hmem)
    have hcons : ∀ g : α → Bool, (insertBehind g new l).map (x :: ·) ≠ some (x :: new :: l) := by
      intro g hmap
      obtain ⟨rest, hinsert, hsame⟩ := Option.map_eq_some_iff.mp hmap
      rw [List.cons_injective hsame] at hinsert
      exact insertBehind_ne_some_cons hrest l hinsert
    rw [insertBehind, insertBehind, List.findIdx?_cons, List.findIdx?_cons]
    cases hx : g x <;> cases hx' : g' x
    · simp only [Bool.false_eq_true, if_false]
      rw [(Option.map_injective (List.cons_injective (a := x))).eq_iff, ih hrest, map_succ_eq_iff]
    · exact iff_of_false (hcons g) (map_succ_ne_zero _)
    · exact iff_of_false (hcons g').symm (map_succ_ne_zero _).symm
    · simp

/-! ## Both -/

theorem patch_of_replaceFirst {r : List α} (h : replaceFirst f new l = some r) :
    patch f g new l = r := by
  rw [patch, h]
  rfl

theorem patch_of_none (h : ∀ x ∈ l, f x = false) :
    patch f g new l = (insertBehind g new l).getD l := by
  rw [patch, replaceFirst_eq_none_iff.mpr h, Option.none_or]

theorem new_not_mem (h : f new = true) (hnone : ∀ x ∈ l, f x = false) : new ∉ l := fun hmem =>
  Bool.false_ne_true ((hnone new hmem).symm.trans h)

/-- What is inserted, or the list, is not the list with an element replaced by one that it does not
have. -/
theorem getD_insertBehind_ne_of_replaceFirst {r : List α} (h : new ∉ l)
    (hr : replaceFirst f' new l = some r) :
    (insertBehind g new l).getD l ≠ r := by
  rintro rfl
  cases hinsert : insertBehind g new l with
  | none =>
    rw [hinsert] at hr
    exact h (mem_of_replaceFirst hr)
  | some inserted =>
    rw [hinsert] at hr
    have hlen := length_of_replaceFirst hr
    rw [Option.getD_some, length_of_insertBehind hinsert] at hlen
    omega

/-- Where nothing is replaced, a list is patched alike exactly if both loops insert alike. -/
theorem getD_insertBehind_eq_iff (h : new ∉ l) :
    (insertBehind g new l).getD l = (insertBehind g' new l).getD l ↔
        l.findIdx? g = l.findIdx? g' := by
  rw [← insertBehind_eq_iff h]
  refine ⟨fun hsame => ?_, fun hsame => by rw [hsame]⟩
  have hlen := congrArg List.length hsame
  cases hg : insertBehind g new l with
  | none =>
    cases hg' : insertBehind g' new l with
    | none => rfl
    | some r' =>
      rw [hg, hg', Option.getD_none, Option.getD_some, length_of_insertBehind hg'] at hlen
      omega
  | some r =>
    cases hg' : insertBehind g' new l with
    | none =>
      rw [hg, hg', Option.getD_none, Option.getD_some, length_of_insertBehind hg] at hlen
      omega
    | some r' =>
      rw [hg, hg'] at hsame
      exact congrArg some hsame

/-- A list is patched alike exactly if the first tests find **the same place** and, if they find
none, the second tests do. -/
theorem patch_eq_iff (h : f new = true) (h' : f' new = true) :
    patch f g new l = patch f' g' new l ↔
      l.findIdx? f = l.findIdx? f' ∧ (l.findIdx? f = none → l.findIdx? g = l.findIdx? g') := by
  rw [← replaceFirst_eq_iff h h']
  cases hf : replaceFirst f new l with
  | none =>
    have hnone := replaceFirst_eq_none_iff.mp hf
    have hnew := new_not_mem h hnone
    rw [patch_of_none hnone]
    cases hf' : replaceFirst f' new l with
    | none =>
      rw [patch_of_none (replaceFirst_eq_none_iff.mp hf'), getD_insertBehind_eq_iff hnew]
      exact ⟨fun hsame => ⟨rfl, fun _ => hsame⟩,
        fun hboth => hboth.2 (List.findIdx?_eq_none_iff.mpr hnone)⟩
    | some r' =>
      rw [patch_of_replaceFirst hf']
      exact iff_of_false (getD_insertBehind_ne_of_replaceFirst hnew hf')
        fun hboth => by cases hboth.1
  | some r =>
    rw [patch_of_replaceFirst hf]
    have hfound : l.findIdx? f ≠ none := by
      intro hnone
      rw [List.findIdx?_eq_none_iff] at hnone
      rw [replaceFirst_eq_none_iff.mpr hnone] at hf
      cases hf
    cases hf' : replaceFirst f' new l with
    | none =>
      have hnone' := replaceFirst_eq_none_iff.mp hf'
      rw [patch_of_none hnone']
      refine iff_of_false ?_ fun hboth => by cases hboth.1
      exact (getD_insertBehind_ne_of_replaceFirst (new_not_mem h' hnone') hf).symm
    | some r' =>
      rw [patch_of_replaceFirst hf', Option.some_inj]
      exact ⟨fun hsame => ⟨hsame, fun hnone => absurd hnone hfound⟩, And.left⟩

/-- If the second test finds an element, nothing changes exactly where the new element is the first
already. -/
theorem patch_eq_self_iff (hg : ∃ x ∈ l, g x = true) :
    patch f g new l = l ↔ l.find? f = some new := by
  rw [← replaceFirst_eq_some_self_iff]
  cases hf : replaceFirst f new l with
  | none =>
    rw [patch_of_none (replaceFirst_eq_none_iff.mp hf)]
    cases hinsert : insertBehind g new l with
    | none =>
      obtain ⟨x, hx, hgx⟩ := hg
      exact absurd hgx (Bool.eq_false_iff.mp (insertBehind_eq_none_iff.mp hinsert x hx))
    | some r =>
      refine iff_of_false (fun hsame => ?_) (by simp)
      have hlen := length_of_insertBehind hinsert
      rw [Option.getD_some] at hsame
      rw [hsame] at hlen
      omega
  | some r =>
    rw [patch_of_replaceFirst hf, Option.some_inj]

/-! ## What is not touched -/

variable {e : α}

theorem mem_replaceFirst {r : List α} {x : α} (h : replaceFirst f new l = some r) (hx : x ∈ r) :
    x = new ∨ x ∈ l := by
  induction l generalizing r with
  | nil => cases h
  | cons y l ih =>
    rw [replaceFirst] at h
    split at h
    · rw [← Option.some.inj h] at hx
      exact (List.mem_cons.mp hx).imp_right (List.mem_cons_of_mem y)
    · obtain ⟨rest, hrest, rfl⟩ := Option.map_eq_some_iff.mp h
      rcases List.mem_cons.mp hx with rfl | hx
      · exact .inr List.mem_cons_self
      · exact (ih hrest hx).imp_right (List.mem_cons_of_mem y)

theorem mem_insertBehind {r : List α} {x : α} (h : insertBehind g new l = some r) (hx : x ∈ r) :
    x = new ∨ x ∈ l := by
  induction l generalizing r with
  | nil => cases h
  | cons y l ih =>
    rw [insertBehind] at h
    split at h
    · rw [← Option.some.inj h] at hx
      rcases List.mem_cons.mp hx with rfl | hx
      · exact .inr List.mem_cons_self
      · exact (List.mem_cons.mp hx).imp_right (List.mem_cons_of_mem y)
    · obtain ⟨rest, hrest, rfl⟩ := Option.map_eq_some_iff.mp h
      rcases List.mem_cons.mp hx with rfl | hx
      · exact .inr List.mem_cons_self
      · exact (ih hrest hx).imp_right (List.mem_cons_of_mem y)

/-- What is found in a list that is patched was there, but for the new element. -/
theorem mem_patch {x : α} (hx : x ∈ patch f g new l) : x = new ∨ x ∈ l := by
  cases hreplace : replaceFirst f new l with
  | some r =>
    rw [patch_of_replaceFirst hreplace] at hx
    exact mem_replaceFirst hreplace hx
  | none =>
    rw [patch_of_none (replaceFirst_eq_none_iff.mp hreplace)] at hx
    cases hinsert : insertBehind g new l with
    | none =>
      rw [hinsert] at hx
      exact .inr hx
    | some r =>
      rw [hinsert] at hx
      exact mem_insertBehind hinsert hx

theorem length_le_patch (f g : α → Bool) (new : α) (l : List α) :
    l.length ≤ (patch f g new l).length := by
  cases hreplace : replaceFirst f new l with
  | some r =>
    rw [patch_of_replaceFirst hreplace]
    exact Nat.le_of_eq (length_of_replaceFirst hreplace).symm
  | none =>
    rw [patch_of_none (replaceFirst_eq_none_iff.mp hreplace)]
    cases hinsert : insertBehind g new l with
    | none => exact Nat.le_refl _
    | some r =>
      rw [Option.getD_some, length_of_insertBehind hinsert]
      exact Nat.le_succ _

theorem getLast?_replaceFirst {r : List α} (hnew : new ≠ e) (hf : f e = false)
    (h : replaceFirst f new l = some r) :
    r.getLast? = some e ↔ l.getLast? = some e := by
  induction l generalizing r with
  | nil => cases h
  | cons x l ih =>
    rw [replaceFirst] at h
    split at h
    · next hx =>
      have hne : x ≠ e := by
        rintro rfl
        exact Bool.false_ne_true (hf.symm.trans hx)
      rw [← Option.some.inj h, List.getLast?_cons, List.getLast?_cons]
      cases l.getLast? with
      | none => simp [hnew, hne]
      | some last => rfl
    · obtain ⟨rest, hrest, rfl⟩ := Option.map_eq_some_iff.mp h
      have hlen := length_of_replaceFirst hrest
      have hpos := List.length_pos_of_mem (mem_of_replaceFirst hrest)
      obtain ⟨y, tail, rfl⟩ := List.exists_cons_of_length_pos hpos
      obtain ⟨z, l, rfl⟩ := List.exists_cons_of_length_pos (hlen ▸ hpos)
      rw [List.getLast?_cons_cons, List.getLast?_cons_cons]
      exact ih hrest

theorem getLast?_insertBehind {r : List α} (hnew : new ≠ e) (hg : g e = false)
    (h : insertBehind g new l = some r) :
    r.getLast? = some e ↔ l.getLast? = some e := by
  induction l generalizing r with
  | nil => cases h
  | cons x l ih =>
    rw [insertBehind] at h
    split at h
    · next hx =>
      have hne : x ≠ e := by
        rintro rfl
        exact Bool.false_ne_true (hg.symm.trans hx)
      rw [← Option.some.inj h, List.getLast?_cons_cons, List.getLast?_cons, List.getLast?_cons]
      cases l.getLast? with
      | none => simp [hnew, hne]
      | some last => rfl
    · obtain ⟨rest, hrest, rfl⟩ := Option.map_eq_some_iff.mp h
      have hlen := length_of_insertBehind hrest
      obtain ⟨y, tail, rfl⟩ :=
        List.exists_cons_of_length_pos (Nat.lt_of_lt_of_eq (Nat.succ_pos _) hlen.symm)
      cases l with
      | nil => cases hrest
      | cons z l =>
        rw [List.getLast?_cons_cons, List.getLast?_cons_cons]
        exact ih hrest

/-- An element that no test finds is the last one of a list that is patched if it was before. -/
theorem getLast?_patch (hnew : new ≠ e) (hf : f e = false) (hg : g e = false) (l : List α) :
    (patch f g new l).getLast? = some e ↔ l.getLast? = some e := by
  cases hreplace : replaceFirst f new l with
  | some r =>
    rw [patch_of_replaceFirst hreplace]
    exact getLast?_replaceFirst hnew hf hreplace
  | none =>
    rw [patch_of_none (replaceFirst_eq_none_iff.mp hreplace)]
    cases hinsert : insertBehind g new l with
    | none => rfl
    | some r => exact getLast?_insertBehind hnew hg hinsert

variable [BEq α] [LawfulBEq α]

theorem count_replaceFirst {r : List α} (hnew : new ≠ e) (hf : f e = false)
    (h : replaceFirst f new l = some r) :
    r.count e = l.count e := by
  induction l generalizing r with
  | nil => cases h
  | cons x l ih =>
    rw [replaceFirst] at h
    split at h
    · next hx =>
      have hne : x ≠ e := by
        rintro rfl
        exact Bool.false_ne_true (hf.symm.trans hx)
      rw [← Option.some.inj h, List.count_cons_of_ne hnew, List.count_cons_of_ne hne]
    · obtain ⟨rest, hrest, rfl⟩ := Option.map_eq_some_iff.mp h
      rw [List.count_cons, List.count_cons, ih hrest]

theorem count_insertBehind {r : List α} (hnew : new ≠ e) (h : insertBehind g new l = some r) :
    r.count e = l.count e := by
  induction l generalizing r with
  | nil => cases h
  | cons x l ih =>
    rw [insertBehind] at h
    split at h
    · rw [← Option.some.inj h, List.count_cons, List.count_cons_of_ne hnew, List.count_cons]
    · obtain ⟨rest, hrest, rfl⟩ := Option.map_eq_some_iff.mp h
      rw [List.count_cons, List.count_cons, ih hrest]

/-- It is there as often as before. -/
theorem count_patch (hnew : new ≠ e) (hf : f e = false) (l : List α) :
    (patch f g new l).count e = l.count e := by
  cases hreplace : replaceFirst f new l with
  | some r =>
    rw [patch_of_replaceFirst hreplace]
    exact count_replaceFirst hnew hf hreplace
  | none =>
    rw [patch_of_none (replaceFirst_eq_none_iff.mp hreplace)]
    cases hinsert : insertBehind g new l with
    | none => rfl
    | some r => exact count_insertBehind hnew hinsert

end FirstMatch
