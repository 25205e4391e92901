import Mathlib.Data.Option.Basic
import Mathlib.Order.Basic

/-!
# Fuel-indexed loops

A loop is its body: a function `step : σ → Option σ` that answers `none` when
the loop is left (its condition fails, or it breaks) and `some s'` when it
takes another turn from `s'`. Nothing here assumes that the loop is ever left.

* `run` — the **fuel-indexed execution**: `none` means that the fuel did not
  suffice, so a loop that never leaves answers `none` at every fuel.
* `Halts` — some fuel suffices. This is what "the call returns" means.
* `halts_of_measure` — the termination rule: a natural number that strictly
  falls on every turn, under an invariant of the turns.
* `not_halts_of_invariant` — the divergence rule: an invariant under which the
  loop is never left.
* `run_inv` — the partial-correctness rule: an invariant of the turns holds of
  the result.
-/

namespace FuelLoop

universe u

variable {σ : Type u}

/-- Execute the loop with body `step` from `s`, for at most `fuel` tests. -/
def run (step : σ → Option σ) : ℕ → σ → Option σ
  | 0, _ => none
  | n + 1, s =>
    match step s with
    | none => some s
    | some s' => run step n s'

/-- The loop is left after finitely many turns. -/
def Halts (step : σ → Option σ) (s : σ) : Prop := ∃ fuel r, run step fuel s = some r

variable {step : σ → Option σ}

@[simp] theorem run_zero (s : σ) : run step 0 s = none := rfl

/-- A turn that leaves the loop. -/
theorem run_succ_none {n : ℕ} {s : σ} (h : step s = none) : run step (n + 1) s = some s := by
  simp only [run, h]

/-- A turn that goes on. -/
theorem run_succ_some {n : ℕ} {s s' : σ} (h : step s = some s') :
    run step (n + 1) s = run step n s' := by
  simp only [run, h]

/-- A halting loop goes on halting after a turn, and conversely. -/
theorem halts_iff_of_step {s s' : σ} (h : step s = some s') : Halts step s ↔ Halts step s' := by
  constructor
  · rintro ⟨n, r, hr⟩
    cases n with
    | zero => cases hr
    | succ n => exact ⟨n, r, by rwa [run_succ_some h] at hr⟩
  · rintro ⟨n, r, hr⟩
    exact ⟨n + 1, r, by rwa [run_succ_some h]⟩

/-- **Partial correctness**: what every turn keeps holds of the result, where
the loop is left. -/
theorem run_inv {I : σ → Prop} (hI : ∀ s s', I s → step s = some s' → I s') {n : ℕ}
    {s r : σ} (hs : I s) (h : run step n s = some r) : I r ∧ step r = none := by
  induction n generalizing s with
  | zero => cases h
  | succ n ih =>
    rcases hst : step s with _ | s'
    · rw [run_succ_none hst] at h
      obtain rfl := Option.some.inj h
      exact ⟨hs, hst⟩
    · rw [run_succ_some hst] at h
      exact ih (hI s s' hs hst) h

/-- **Termination**: if a measure strictly falls on every turn from a state of
the invariant, one more test than the measure suffices. -/
theorem run_of_measure {I : σ → Prop} {μ : σ → ℕ}
    (hI : ∀ s s', I s → step s = some s' → I s' ∧ μ s' < μ s) {s : σ} (hs : I s) {n : ℕ}
    (hn : μ s < n) : ∃ r, run step n s = some r := by
  induction n generalizing s with
  | zero => omega
  | succ n ih =>
    rcases hst : step s with _ | s'
    · exact ⟨s, run_succ_none hst⟩
    · obtain ⟨hs', hlt⟩ := hI s s' hs hst
      obtain ⟨r, hr⟩ := ih hs' (by omega)
      exact ⟨r, by rwa [run_succ_some hst]⟩

/-- The termination rule, as `Halts`. -/
theorem halts_of_measure {I : σ → Prop} {μ : σ → ℕ}
    (hI : ∀ s s', I s → step s = some s' → I s' ∧ μ s' < μ s) {s : σ} (hs : I s) :
    Halts step s :=
  ⟨μ s + 1, run_of_measure hI hs (Nat.lt_succ_self _)⟩

/-- **Divergence**: if an invariant of the turns excludes leaving the loop, the
loop is never left. -/
theorem not_halts_of_invariant {I : σ → Prop}
    (hI : ∀ s, I s → ∃ s', step s = some s' ∧ I s') {s : σ} (hs : I s) : ¬ Halts step s := by
  rintro ⟨n, r, hr⟩
  induction n generalizing s with
  | zero => cases hr
  | succ n ih =>
    obtain ⟨s', hst, hs'⟩ := hI s hs
    rw [run_succ_some hst] at hr
    exact ih hs' hr

/-- A turn that changes nothing is taken for ever. -/
theorem not_halts_of_fixed {s : σ} (h : step s = some s) : ¬ Halts step s :=
  not_halts_of_invariant (I := fun t => t = s) (by rintro t rfl; exact ⟨t, h, rfl⟩) rfl

/-- **Fuel bound**: if every turn either lowers the measure or changes nothing,
the fuel `μ s + 1` decides whether the loop is ever left. -/
theorem run_bound_isSome_iff {μ : σ → ℕ} (hμ : ∀ s s', step s = some s' → μ s' < μ s ∨ s' = s)
    {s : σ} {n : ℕ} (hn : μ s < n) : (run step n s).isSome ↔ Halts step s := by
  constructor
  · intro h
    obtain ⟨r, hr⟩ := Option.isSome_iff_exists.mp h
    exact ⟨n, r, hr⟩
  · intro hh
    induction n generalizing s with
    | zero => omega
    | succ n ih =>
      rcases hst : step s with _ | s'
      · rw [run_succ_none hst]
        rfl
      · rcases hμ s s' hst with hlt | rfl
        · rw [run_succ_some hst]
          exact ih (by omega) ((halts_iff_of_step hst).mp hh)
        · exact absurd hh (not_halts_of_fixed hst)

end FuelLoop
