import Mathlib.Data.Option.Basic
import Mathlib.Data.List.Basic

/-!
# Labelled runs

A system is a partial transition function `step : σ → ι → Option σ`; a run is a
list of labels. `none` means that the label leads nowhere from the state: it is
not enabled there, or the call it stands for never returns.

* `exec` — the state a run **ends in**, where it gets to its end.
* `Always` — a predicate of (state, label) holds **at every step** that the run
  takes, the one it may get stuck at included.
* `always_iff_of_inv` — the exact rule: under an invariant, a property and a
  guard that agree pointwise agree along every run; `always_iff_of_always`, for
  runs that keep to a condition.
* `always_of_inv` — the guarded rule: a property that the guard gives at each
  step, under an invariant that guarded steps keep, holds along every run whose
  steps all meet the guard.
-/

namespace Lts

universe u v

variable {σ : Type u} {ι : Type v}

/-- The state at the end of the run `ls` from `s`. -/
def exec (step : σ → ι → Option σ) : σ → List ι → Option σ
  | s, [] => some s
  | s, l :: ls => (step s l).bind fun s' => exec step s' ls

/-- `P` holds at every step of the run `ls` from `s`: of the state before the
step and its label. -/
def Always (step : σ → ι → Option σ) (P : σ → ι → Prop) : σ → List ι → Prop
  | _, [] => True
  | s, l :: ls => P s l ∧ ∀ s', step s l = some s' → Always step P s' ls

variable {step : σ → ι → Option σ} {P G : σ → ι → Prop}

@[simp] theorem exec_nil (s : σ) : exec step s [] = some s := rfl

theorem exec_cons (s : σ) (l : ι) (ls : List ι) :
    exec step s (l :: ls) = (step s l).bind fun s' => exec step s' ls := rfl

/-- A run that starts with an enabled label. -/
theorem exec_cons_of_step {s s' : σ} {l : ι} (h : step s l = some s') (ls : List ι) :
    exec step s (l :: ls) = exec step s' ls := by
  rw [exec_cons, h, Option.bind_some]

/-- A run of at least one label takes its first step. -/
theorem exec_cons_eq_some {s r : σ} {l : ι} {ls : List ι} :
    exec step s (l :: ls) = some r ↔ ∃ s', step s l = some s' ∧ exec step s' ls = some r := by
  rw [exec_cons, Option.bind_eq_some_iff]

/-- Runs **compose**. -/
theorem exec_append (s : σ) (ls ls' : List ι) :
    exec step s (ls ++ ls') = (exec step s ls).bind fun s' => exec step s' ls' := by
  induction ls generalizing s with
  | nil => rfl
  | cons l ls ih =>
    rw [List.cons_append, exec_cons, exec_cons, Option.bind_assoc]
    congr 1
    funext s'
    exact ih s'

/-- A run that ends with the label `l`. -/
theorem exec_concat {s r : σ} {l : ι} {ls : List ι} :
    exec step s (ls ++ [l]) = some r ↔ ∃ s', exec step s ls = some s' ∧ step s' l = some r := by
  rw [exec_append, Option.bind_eq_some_iff]
  constructor
  · rintro ⟨s', h, h'⟩
    obtain ⟨r', hr', h''⟩ := exec_cons_eq_some.mp h'
    obtain rfl := Option.some.inj h''
    exact ⟨s', h, hr'⟩
  · rintro ⟨s', h, h'⟩
    exact ⟨s', h, exec_cons_eq_some.mpr ⟨r, h', rfl⟩⟩

@[simp] theorem always_nil (s : σ) : Always step P s [] := trivial

theorem always_cons {s : σ} {l : ι} {ls : List ι} :
    Always step P s (l :: ls) ↔ P s l ∧ ∀ s', step s l = some s' → Always step P s' ls :=
  Iff.rfl

/-- Along a given run, a decidable property can be **computed**. -/
instance decidableAlways [∀ s l, Decidable (P s l)] :
    (s : σ) → (ls : List ι) → Decidable (Always step P s ls)
  | _, [] => .isTrue trivial
  | s, l :: ls =>
    match h : step s l with
    | none => decidable_of_iff (P s l) ⟨fun hP => ⟨hP, by simp [h]⟩, And.left⟩
    | some s' =>
      have := decidableAlways s' ls
      decidable_of_iff (P s l ∧ Always step P s' ls) <| by
        rw [always_cons, h]
        simp

/-- A property along a run, one enabled step at a time. -/
theorem always_cons_of_step {s s' : σ} {l : ι} {ls : List ι} (hP : P s l)
    (h : step s l = some s') (hrest : Always step P s' ls) : Always step P s (l :: ls) := by
  refine ⟨hP, fun t ht => ?_⟩
  rw [h] at ht
  obtain rfl := Option.some.inj ht
  exact hrest

/-- A property along a run that is **put together**: along its first part, and from where that ends
along the second. -/
theorem always_append {s : σ} {ls ls' : List ι} :
    Always step P s (ls ++ ls') ↔
      Always step P s ls ∧ ∀ r, exec step s ls = some r → Always step P r ls' := by
  induction ls generalizing s with
  | nil =>
    constructor
    · intro h
      refine ⟨trivial, fun r hr => ?_⟩
      obtain rfl := Option.some.inj hr
      exact h
    · rintro ⟨-, h⟩
      exact h s rfl
  | cons l ls ih =>
    rw [List.cons_append, always_cons, always_cons]
    constructor
    · rintro ⟨hP, hrest⟩
      refine ⟨⟨hP, fun s' hs' => (ih.mp (hrest s' hs')).1⟩, fun r hr => ?_⟩
      obtain ⟨s', hs', hr'⟩ := exec_cons_eq_some.mp hr
      exact (ih.mp (hrest s' hs')).2 r hr'
    · rintro ⟨⟨hP, hrest⟩, hthen⟩
      refine ⟨hP, fun s' hs' => ih.mpr ⟨hrest s' hs', fun r hr => hthen r ?_⟩⟩
      rwa [exec_cons_of_step hs']

/-- What holds of the labels of a run, whatever the state is. -/
theorem always_of_forall {s : σ} {ls : List ι} (h : ∀ l ∈ ls, ∀ s, P s l) : Always step P s ls := by
  induction ls generalizing s with
  | nil => trivial
  | cons l ls ih =>
    obtain ⟨hl, hls⟩ := List.forall_mem_cons.mp h
    exact ⟨hl s, fun _ _ => ih hls⟩

/-- `Always`, read at the positions of the run: at each one that the run gets
to, `P` holds of the state there and the next label. -/
theorem always_iff {s : σ} {ls : List ι} :
    Always step P s ls ↔
      ∀ pre l, pre ++ [l] <+: ls → ∀ r, exec step s pre = some r → P r l := by
  induction ls generalizing s with
  | nil =>
    refine ⟨fun _ pre l h => ?_, fun _ => trivial⟩
    simp at h
  | cons l₀ ls ih =>
    constructor
    · rintro ⟨hP, hrest⟩ pre l hpre r hr
      rcases pre with _ | ⟨l₁, pre⟩
      · obtain rfl := Option.some.inj hr
        obtain ⟨rfl, -⟩ := List.cons_prefix_cons.mp hpre
        exact hP
      · obtain ⟨rfl, hpre'⟩ := List.cons_prefix_cons.mp hpre
        obtain ⟨s', hs', hr'⟩ := exec_cons_eq_some.mp hr
        exact ih.mp (hrest s' hs') pre l hpre' r hr'
    · intro h
      refine ⟨h [] l₀ ⟨ls, rfl⟩ s rfl, fun s' hs' => ih.mpr fun pre l hpre r hr => ?_⟩
      apply h (l₀ :: pre) l (List.cons_prefix_cons.mpr ⟨rfl, hpre⟩) r
      rwa [exec_cons_of_step hs']

/-- The **guarded rule**: where the guard holds at every step, so does the
property, and the invariant is kept along the way. -/
theorem always_of_inv {I : σ → Prop} (hP : ∀ s l, I s → G s l → P s l)
    (hI : ∀ s l s', I s → G s l → step s l = some s' → I s') {s : σ} (hs : I s) {ls : List ι}
    (hG : Always step G s ls) : Always step P s ls := by
  induction ls generalizing s with
  | nil => trivial
  | cons l ls ih =>
    obtain ⟨hl, hrest⟩ := hG
    exact ⟨hP s l hs hl, fun s' hs' => ih (hI s l s' hs hl hs') (hrest s' hs')⟩

/-- The invariant that guarded steps keep holds **at the end** of a run whose
steps all meet the guard. -/
theorem exec_inv {I : σ → Prop} (hI : ∀ s l s', I s → G s l → step s l = some s' → I s')
    {s r : σ} (hs : I s) {ls : List ι} (hG : Always step G s ls)
    (hr : exec step s ls = some r) : I r := by
  induction ls generalizing s with
  | nil =>
    obtain rfl := Option.some.inj hr
    exact hs
  | cons l ls ih =>
    obtain ⟨s', hs', hr'⟩ := exec_cons_eq_some.mp hr
    exact ih (hI s l s' hs hG.1 hs') (hG.2 s' hs') hr'

/-- The **invariant rule** without a guard: what every step keeps holds at the
end of every run. -/
theorem exec_inv' {I : σ → Prop} (hI : ∀ s l s', I s → step s l = some s' → I s') {s r : σ}
    (hs : I s) {ls : List ι} (hr : exec step s ls = some r) : I r := by
  induction ls generalizing s with
  | nil =>
    obtain rfl := Option.some.inj hr
    exact hs
  | cons l ls ih =>
    obtain ⟨s', hs', hr'⟩ := exec_cons_eq_some.mp hr
    exact ih (hI s l s' hs hs') hr'

/-- A run **gets to its end** exactly if every label is enabled where it comes. -/
theorem isSome_exec_iff {I : σ → Prop} (hG : ∀ s l, I s → ((step s l).isSome ↔ G s l))
    (hI : ∀ s l s', I s → step s l = some s' → I s') {s : σ} (hs : I s) {ls : List ι} :
    (exec step s ls).isSome ↔ Always step G s ls := by
  induction ls generalizing s with
  | nil => exact iff_of_true rfl trivial
  | cons l ls ih =>
    rw [exec_cons, always_cons, ← hG s l hs]
    cases h : step s l with
    | none => exact iff_of_false Bool.false_ne_true fun h => Bool.false_ne_true h.1
    | some s' =>
      rw [Option.bind_some, ih (hI s l s' hs h)]
      exact ⟨fun hrest => ⟨rfl, fun _ ht => Option.some.inj ht ▸ hrest⟩, fun hall => hall.2 s' rfl⟩

/-- The **exact rule**: if under an invariant the property and the guard agree
at each step, and a step that meets both keeps the invariant, then they agree
along every run. -/
theorem always_iff_of_inv {I : σ → Prop} (hPG : ∀ s l, I s → (P s l ↔ G s l))
    (hI : ∀ s l s', I s → G s l → step s l = some s' → I s') {s : σ} (hs : I s) {ls : List ι} :
    Always step P s ls ↔ Always step G s ls := by
  induction ls generalizing s with
  | nil => exact Iff.rfl
  | cons l ls ih =>
    rw [always_cons, always_cons, hPG s l hs]
    refine and_congr_right fun hl => forall_congr' fun s' => ?_
    exact imp_congr_right fun hs' => ih (hI s l s' hs hl hs')

/-- The exact rule **along a run**: the property and the guard have to agree, and a step that meets
both to keep the invariant, only where `H` holds, if it holds at every step. -/
theorem always_iff_of_always {H : σ → ι → Prop} {I : σ → Prop}
    (hPG : ∀ s l, I s → H s l → (P s l ↔ G s l))
    (hI : ∀ s l s', I s → H s l → G s l → step s l = some s' → I s') {s : σ} (hs : I s)
    {ls : List ι} (hH : Always step H s ls) : Always step P s ls ↔ Always step G s ls := by
  induction ls generalizing s with
  | nil => exact Iff.rfl
  | cons l ls ih =>
    obtain ⟨hl, hrest⟩ := hH
    rw [always_cons, always_cons, hPG s l hs hl]
    refine and_congr_right fun hG => forall_congr' fun s' => ?_
    exact imp_congr_right fun hs' => ih (hI s l s' hs hl hG hs') (hrest s' hs')

end Lts
