import Mathlib.Data.List.Basic

/-!
# Places in a history

A history is a list of what has happened. That something has happened, and what has been so since,
is said of a place of the history: of what comes before it, of what stands there, and of what comes
after.

* `Occurs` — somewhere in the history.
* `occurs_concat`, `notMem_concat` — in a history with one thing more: there, or before it.
-/

namespace History

variable {α : Type*} {P : List α → α → List α → Prop} {xs : List α} {y : α}

/-- At some place of the history. -/
def Occurs (P : List α → α → List α → Prop) (xs : List α) : Prop :=
  ∃ before x after, xs = before ++ x :: after ∧ P before x after

@[simp] theorem not_occurs_nil : ¬Occurs P [] := by
  rintro ⟨before, x, after, h, -⟩
  simp at h

/-- The last thing that has happened is at no place before it, and comes after each of them. -/
theorem occurs_concat :
    Occurs P (xs ++ [y]) ↔ P xs y [] ∨
        Occurs (fun before x after => P before x (after ++ [y])) xs := by
  constructor
  · rintro ⟨before, x, after, h, hP⟩
    rcases List.eq_nil_or_concat after with rfl | ⟨after, z, rfl⟩
    · obtain ⟨rfl, hx⟩ := List.append_inj' h rfl
      obtain rfl := List.cons.inj hx |>.1
      exact .inl hP
    · -- the place is one of `xs`, and what has happened last comes after it
      rw [List.concat_eq_append] at h hP
      have hsplit : xs ++ [y] = (before ++ x :: after) ++ [z] := by
        rw [h, List.append_assoc, List.cons_append]
      obtain ⟨rfl, hz⟩ := List.append_inj' hsplit rfl
      obtain rfl := List.cons.inj hz |>.1
      exact .inr ⟨before, x, after, rfl, hP⟩
  · rintro (hP | ⟨before, x, after, rfl, hP⟩)
    · exact ⟨xs, y, [], rfl, hP⟩
    · exact ⟨before, x, after ++ [y], by rw [List.append_assoc, List.cons_append], hP⟩

/-- Something has not happened, with one thing more. -/
theorem notMem_concat {x : α} : x ∉ xs ++ [y] ↔ x ∉ xs ∧ y ≠ x := by
  rw [List.mem_append, List.mem_singleton, not_or, ne_comm]

end History
