import Mathlib.Data.List.Induction
import VcpMediaServer.History
import VcpMediaServer.Mealy

/-!
# Gates that a key opens

Items pass a gate, or are kept back. Some items are **gated**: while the gate is closed they are
kept back, unless they are a **key**, which opens it. A reset closes the gate.

* `step` — the gate as a machine.
* `opened_final` — whether it is open, by what has happened.
-/

namespace KeyGate

open History Mealy

/-- What happens at a gate. -/
inductive Event (α : Type*) where
  /-- It is closed. -/
  | reset
  /-- An item comes. -/
  | item (a : α)

variable {α : Type*} {gated key : α → Bool} {opened : Bool} {es : List (Event α)} {a : α}

/-- The gate: whether it is open, and the item if that passes. -/
def step (gated key : α → Bool) (opened : Bool) : Event α → Bool × List α
  | .reset => (false, [])
  | .item a => if gated a && !opened && !key a then (false, []) else (opened || gated a, [a])

/-- A key has come, and no reset since. -/
def Unlocked (gated key : α → Bool) (es : List (Event α)) : Prop :=
  Occurs (fun _ e after => (∃ a, e = .item a ∧ gated a = true ∧ key a = true) ∧ .reset ∉ after) es

/-- The gate is open, by what has happened. -/
def Opened (gated key : α → Bool) (opened : Bool) (es : List (Event α)) : Prop :=
  opened = true ∧ .reset ∉ es ∨ Unlocked gated key es

theorem not_unlocked_concat_reset : ¬Unlocked gated key (es ++ [.reset]) := by
  rw [Unlocked, occurs_concat]
  rintro (⟨⟨a, ha, -⟩, -⟩ | ⟨before, e, after, -, -, hreset⟩)
  · cases ha
  · exact hreset (List.mem_append_right _ (List.mem_singleton_self _))

theorem unlocked_concat_item :
    Unlocked gated key (es ++ [.item a]) ↔
        (gated a = true ∧ key a = true) ∨ Unlocked gated key es := by
  rw [Unlocked, occurs_concat, Unlocked]
  refine or_congr ⟨?_, fun h => ⟨⟨a, rfl, h⟩, List.not_mem_nil⟩⟩ ⟨?_, ?_⟩
  · rintro ⟨⟨b, hb, h⟩, -⟩
    obtain rfl := Event.item.inj hb
    exact h
  · rintro ⟨before, e, after, heq, hkey, hreset⟩
    exact ⟨before, e, after, heq, hkey, fun hmem => hreset (List.mem_append_left _ hmem)⟩
  · rintro ⟨before, e, after, heq, hkey, hreset⟩
    refine ⟨before, e, after, heq, hkey, fun hmem => ?_⟩
    rcases List.mem_append.mp hmem with hmem | hmem
    · exact hreset hmem
    · cases List.mem_singleton.mp hmem

/-- **Whether the gate is open**: it was, and has not been reset; or a key has come since the last
reset. -/
theorem opened_final : final (step gated key) opened es = true ↔ Opened gated key opened es := by
  induction es using List.reverseRecOn with
  | nil =>
    rw [final_nil, Opened, Unlocked]
    simp
  | append_singleton es e ih =>
    rw [final_append, final_cons, final_nil]
    cases e with
    | reset =>
      rw [step, Opened, or_iff_left not_unlocked_concat_reset]
      simp
    | item a =>
      have hreset : Event.reset ∉ es ++ [.item a] ↔ Event.reset ∉ es := by simp
      rw [Opened, unlocked_concat_item, hreset, or_left_comm, ← Opened, ← ih, step]
      cases gated a <;> cases key a <;> cases final (step gated key) opened es <;> simp

/-- What passes has come. -/
theorem mem_of_mem_trace (h : a ∈ (trace (step gated key) opened es).flatten) : .item a ∈ es := by
  induction es generalizing opened with
  | nil => cases h
  | cons e es ih =>
    rw [trace_cons, List.flatten_cons] at h
    rcases List.mem_append.mp h with h | h
    · cases e with
      | reset => cases h
      | item b =>
        rw [step] at h
        split at h
        · cases h
        · exact List.mem_singleton.mp h ▸ List.mem_cons_self
    · exact List.mem_cons_of_mem e (ih h)

end KeyGate
