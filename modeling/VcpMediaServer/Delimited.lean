import Mathlib.Data.List.Basic
import Mathlib.Data.List.Infix

/-!
# Lists with separators

A list is cut at the occurrences of a separator, which may be several items long. If the separator
does not overlap itself, **every** occurrence of it is a place of the cut, whatever stands between.

* `Unbordered` — no end of the separator is a beginning of it.
* `exists_parts` — every list is cut into parts that are free of the separator.
* `occurrence` — an occurrence in a list is the one in front of some part.
-/

namespace Delimited

universe u

variable {α : Type u} {sep : List α}

/-- A separator that does not overlap itself. -/
structure Unbordered (sep : List α) : Prop where
  ne_nil : sep ≠ []
  border : ∀ {a b c : List α}, sep = a ++ b → sep = b ++ c → a = [] ∨ b = []

/-- It is enough to compare the ends of the separator with its beginnings. -/
theorem unbordered_of_forall (hne : sep ≠ [])
    (h : ∀ n < sep.length, n ≠ 0 → ¬ sep.drop n <+: sep) : Unbordered sep where
  ne_nil := hne
  border := by
    intro a b c hab hbc
    by_contra hnot
    obtain ⟨ha, hb⟩ := not_or.mp hnot
    have hlen : a.length < sep.length := by
      rw [hab, List.length_append]
      exact Nat.lt_add_of_pos_right (List.length_pos_of_ne_nil hb)
    have hdrop : sep.drop a.length = b := by
      conv_lhs => rw [hab]
      exact List.drop_left' rfl
    refine h a.length hlen (Nat.ne_of_gt (List.length_pos_of_ne_nil ha)) ?_
    rw [hdrop]
    exact ⟨c, hbc.symm⟩

/-- Parts, each behind a separator. -/
def behind (sep : List α) (parts : List (List α)) : List α := parts.flatMap fun part => sep ++ part

@[simp] theorem behind_nil : behind sep [] = [] := rfl

theorem behind_cons (part : List α) (parts : List (List α)) :
    behind sep (part :: parts) = sep ++ (part ++ behind sep parts) := by
  rw [behind, List.flatMap_cons, List.append_assoc]
  rfl

theorem behind_append (parts parts' : List (List α)) :
    behind sep (parts ++ parts') = behind sep parts ++ behind sep parts' := by
  simp [behind]

/-- An occurrence from which another begins no later than at its end: it is the same, or they do not
overlap. -/
theorem Unbordered.apart_of_append (h : Unbordered sep) {w r s : List α}
    (heq : sep ++ r = w ++ (sep ++ s)) :
    w = [] ∧ r = s ∨ ∃ z, w = sep ++ z ∧ r = z ++ (sep ++ s) := by
  rcases List.append_eq_append_iff.mp heq with ⟨z, hw, hr⟩ | ⟨b, hsep, hrest⟩
  · exact .inr ⟨z, hw, hr⟩
  · rcases List.append_eq_append_iff.mp hrest with ⟨z, hb, hs⟩ | ⟨c, hsep', hr⟩
    · have hlen := congrArg List.length hsep
      rw [hb, List.length_append, List.length_append] at hlen
      have hw : w = [] := List.length_eq_zero_iff.mp (by omega)
      have hz : z = [] := List.length_eq_zero_iff.mp (by omega)
      rw [hz] at hs
      exact .inl ⟨hw, hs.symm⟩
    · rcases h.border hsep hsep' with hw | hb
      · rw [hw, List.nil_append] at hsep
        rw [← hsep] at hsep'
        have hc : c = [] := by simpa using hsep'
        rw [hc] at hr
        exact .inl ⟨hw, hr⟩
      · rw [hb, List.append_nil] at hsep
        rw [hb, List.nil_append] at hrest
        exact .inr ⟨[], by rw [hsep, List.append_nil], hrest.symm⟩

/-- Two occurrences are the same, or one ends in front of the other. -/
theorem Unbordered.apart (h : Unbordered sep) {x y r s : List α}
    (heq : x ++ (sep ++ r) = y ++ (sep ++ s)) :
    x = y ∧ r = s ∨ (∃ z, y = x ++ (sep ++ z) ∧ r = z ++ (sep ++ s)) ∨
        ∃ z, x = y ++ (sep ++ z) := by
  rcases List.append_eq_append_iff.mp heq with ⟨w, hy, hrest⟩ | ⟨w, hx, hrest⟩
  · rcases h.apart_of_append hrest with ⟨hw, hr⟩ | ⟨z, hw, hr⟩
    · exact .inl ⟨by rw [hy, hw, List.append_nil], hr⟩
    · exact .inr (.inl ⟨z, by rw [hy, hw], hr⟩)
  · rcases h.apart_of_append hrest with ⟨hw, hr⟩ | ⟨z, hw, -⟩
    · exact .inl ⟨by rw [hx, hw, List.append_nil], hr.symm⟩
    · exact .inr (.inr ⟨z, by rw [hx, hw]⟩)

/-- Every list is cut into parts that are free of the separator. -/
theorem exists_parts (hsep : sep ≠ []) (data : List α) :
    ∃ first parts, data = first ++ behind sep parts ∧ ¬ sep <:+: first ∧
        ∀ part ∈ parts, ¬ sep <:+: part := by
  have hnil : ¬ sep <:+: ([] : List α) := fun h => hsep (List.infix_nil.mp h)
  induction data with
  | nil => exact ⟨[], [], rfl, hnil, fun _ hmem => absurd hmem List.not_mem_nil⟩
  | cons x data ih =>
    obtain ⟨first, parts, hdata, hfirst, hparts⟩ := ih
    by_cases hfree : sep <:+: x :: first
    · -- the item in front completes a separator
      rcases List.infix_cons_iff.mp hfree with ⟨part, hpart⟩ | hinfix
      · refine ⟨[], part :: parts, ?_, hnil, List.forall_mem_cons.mpr ⟨?_, hparts⟩⟩
        · rw [hdata, behind_cons, List.nil_append, ← List.append_assoc, hpart, List.cons_append]
        · intro hmem
          obtain ⟨y, seps, rfl⟩ := List.exists_cons_of_ne_nil hsep
          have htail : part <:+: first := ⟨seps, [], by simpa using (List.cons.inj hpart).2⟩
          exact hfirst (hmem.trans htail)
      · exact absurd hinfix hfirst
    · exact ⟨x :: first, parts, by rw [hdata, List.cons_append], hfree, hparts⟩

/-- An occurrence in a list is the one in front of some part. -/
theorem occurrence (hsep : Unbordered sep) {first pre post : List α} {parts : List (List α)}
    (hfirst : ¬ sep <:+: first) (hparts : ∀ part ∈ parts, ¬ sep <:+: part)
    (heq : first ++ behind sep parts = pre ++ (sep ++ post)) :
    ∃ l part r, parts = l ++ part :: r ∧ pre = first ++ behind sep l ∧
        post = part ++ behind sep r := by
  induction parts generalizing first pre with
  | nil =>
    rw [behind_nil, List.append_nil] at heq
    exact absurd ⟨pre, post, by rw [heq, List.append_assoc]⟩ hfirst
  | cons part parts ih =>
    obtain ⟨hpart, hparts⟩ := List.forall_mem_cons.mp hparts
    rw [behind_cons] at heq
    rcases hsep.apart heq with ⟨hpre, hpost⟩ | ⟨z, hpre, hrest⟩ | ⟨z, hpre⟩
    · exact ⟨[], part, parts, rfl, by rw [hpre, behind_nil, List.append_nil], hpost.symm⟩
    · obtain ⟨l, next, r, hl, hz, hpost⟩ := ih hpart hparts hrest
      exact ⟨part :: l, next, r, by rw [hl, List.cons_append], by rw [hpre, hz, behind_cons], hpost⟩
    · exact absurd ⟨pre, z, by rw [hpre, List.append_assoc]⟩ hfirst

end Delimited
