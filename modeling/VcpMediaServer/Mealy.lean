import VcpMediaServer.Lts

/-!
# Machines with output

A machine is a total transition function `step : σ → ι → σ × List ο`: every label
leads to a state and gives some outputs, none or several. A **sink** takes the
outputs one by one, and may get stuck at one.

* `trace` — what a run gives, **label by label**.
* `sunk` — the machine and its sink as one system; before the outputs of a label
  are handed over, `prep` may change the state of the sink.
* `AtLast` — a run that gives nothing before its last label.
* `Once` — a label that gives one output at most, and then no label like it does.
* `exec_sunk` — seen through a `view` that `prep` does not touch, the system does
  what the sink alone does with the trace.
-/

namespace Mealy

open Lts

universe u v w x y

variable {σ : Type u} {ι : Type v} {ο : Type w} {τ : Type x} {ρ : Type y}

/-- The state at the end of a run. -/
def final (step : σ → ι → σ × List ο) : σ → List ι → σ
  | s, [] => s
  | s, l :: ls => final step (step s l).1 ls

/-- The outputs of a run, those of each label by themselves. -/
def trace (step : σ → ι → σ × List ο) : σ → List ι → List (List ο)
  | _, [] => []
  | s, l :: ls => (step s l).2 :: trace step (step s l).1 ls

/-- The machine with a sink for its outputs. -/
def sunk (sink : τ → ο → Option τ) (prep : τ → σ → ι → τ) (step : σ → ι → σ × List ο) :
    τ × σ → ι → Option (τ × σ)
  | (t, s), l => (exec sink (prep t s l) (step s l).2).map fun t => (t, (step s l).1)

variable {step : σ → ι → σ × List ο}

@[simp] theorem final_nil (s : σ) : final step s [] = s := rfl

@[simp] theorem final_cons (s : σ) (l : ι) (ls : List ι) :
    final step s (l :: ls) = final step (step s l).1 ls := rfl

@[simp] theorem trace_nil (s : σ) : trace step s [] = [] := rfl

@[simp] theorem trace_cons (s : σ) (l : ι) (ls : List ι) :
    trace step s (l :: ls) = (step s l).2 :: trace step (step s l).1 ls := rfl

/-- Runs **compose**. -/
theorem final_append (s : σ) (ls ls' : List ι) :
    final step s (ls ++ ls') = final step (final step s ls) ls' := by
  induction ls generalizing s with
  | nil => rfl
  | cons l ls ih => exact ih _

theorem trace_append (s : σ) (ls ls' : List ι) :
    trace step s (ls ++ ls') = trace step s ls ++ trace step (final step s ls) ls' := by
  induction ls generalizing s with
  | nil => rfl
  | cons l ls ih => rw [List.cons_append, trace_cons, ih, trace_cons, final_cons, List.cons_append]

@[simp] theorem length_trace (s : σ) (ls : List ι) : (trace step s ls).length = ls.length := by
  induction ls generalizing s with
  | nil => rfl
  | cons l ls ih => rw [trace_cons, List.length_cons, ih, List.length_cons]

/-- The first labels give the first outputs. -/
theorem trace_take (s : σ) (ls : List ι) (k : ℕ) :
    trace step s (ls.take k) = (trace step s ls).take k := by
  induction k generalizing s ls with
  | zero => rfl
  | succ k ih =>
    cases ls with
    | nil => rfl
    | cons l ls => rw [List.take_succ_cons, trace_cons, ih, trace_cons, List.take_succ_cons]

/-- What a label gives in the middle of a run. -/
theorem getElem?_trace (s : σ) (ls : List ι) (i : ℕ) :
    (trace step s ls)[i]? = ls[i]?.map fun l => (step (final step s (ls.take i)) l).2 := by
  induction i generalizing s ls with
  | zero => cases ls <;> rfl
  | succ i ih =>
    cases ls with
    | nil => rfl
    | cons l ls =>
      rw [trace_cons, List.getElem?_cons_succ, ih, List.getElem?_cons_succ]
      rfl

/-- What every label keeps holds at the end. -/
theorem final_inv {I : σ → Prop} (hI : ∀ s l, I s → I (step s l).1) {s : σ} (hs : I s)
    (ls : List ι) : I (final step s ls) := by
  induction ls generalizing s with
  | nil => exact hs
  | cons l ls ih => exact ih (hI s l hs)

/-- What every label gives, a run gives. -/
theorem forall_trace {Q : ο → Prop} (h : ∀ s l, ∀ o ∈ (step s l).2, Q o) (s : σ) (ls : List ι) :
    ∀ o ∈ (trace step s ls).flatten, Q o := by
  induction ls generalizing s with
  | nil => simp
  | cons l ls ih =>
    rw [trace_cons, List.flatten_cons]
    exact List.forall_mem_append.mpr ⟨h s l, ih _⟩

/-- A property of every output of a run is one of every step. -/
theorem forall_trace_iff_always {Q : ο → Prop} {s : σ} {ls : List ι} :
    (∀ o ∈ (trace step s ls).flatten, Q o) ↔
      Always (fun s l => some (step s l).1) (fun s l => ∀ o ∈ (step s l).2, Q o) s ls := by
  induction ls generalizing s with
  | nil => simp
  | cons l ls ih =>
    rw [trace_cons, List.flatten_cons, List.forall_mem_append, always_cons, ih]
    simp only [Option.some.injEq, forall_eq']

/-- The run gives nothing **before its last label**, which leads to `r`. -/
structure AtLast (step : σ → ι → σ × List ο) (s : σ) (ls : List ι) (r : σ × List ο) : Prop where
  trace_eq : trace step s ls = List.replicate (ls.length - 1) [] ++ [r.2]
  final_eq : final step s ls = r.1

theorem AtLast.single (s : σ) (l : ι) : AtLast step s [l] (step s l) := ⟨rfl, rfl⟩

theorem AtLast.ne_nil {s : σ} {ls : List ι} {r : σ × List ο} (h : AtLast step s ls r) :
    ls ≠ [] := by
  rintro rfl
  cases h.trace_eq

/-- A label that gives nothing, in front. -/
theorem AtLast.cons {s s' : σ} {l : ι} {ls : List ι} {r : σ × List ο} (hl : step s l = (s', []))
    (h : AtLast step s' ls r) : AtLast step s (l :: ls) r := by
  obtain ⟨l', ls', rfl⟩ := List.exists_cons_of_ne_nil h.ne_nil
  refine ⟨?_, ?_⟩
  · rw [trace_cons, hl, h.trace_eq]
    rfl
  · rw [final_cons, hl, h.final_eq]

/-- Labels that change and give nothing. -/
theorem AtLast.of_quiet {s : σ} {ls : List ι} (hne : ls ≠ []) (h : ∀ l ∈ ls, step s l = (s, [])) :
    AtLast step s ls (s, []) := by
  induction ls with
  | nil => exact absurd rfl hne
  | cons l ls ih =>
    obtain ⟨hl, hls⟩ := List.forall_mem_cons.mp h
    cases ls with
    | nil => exact hl ▸ AtLast.single s l
    | cons l' ls => exact AtLast.cons hl (ih (List.cons_ne_nil _ _) hls)

/-- A run that gives nothing, in front. -/
theorem AtLast.append {s s' : σ} {ls ls' : List ι} {r : σ × List ο}
    (hls : AtLast step s ls (s', [])) (h : AtLast step s' ls' r) : AtLast step s (ls ++ ls') r := by
  have hlen := List.length_pos_of_ne_nil hls.ne_nil
  have hlen' := List.length_pos_of_ne_nil h.ne_nil
  refine ⟨?_, ?_⟩
  · have hquiet : List.replicate (ls.length - 1) ([] : List ο) ++ [[]] =
        List.replicate ls.length [] := by
      rw [← List.replicate_succ', Nat.sub_add_cancel hlen]
    rw [trace_append, hls.trace_eq, hls.final_eq, h.trace_eq, hquiet, ← List.append_assoc,
      List.replicate_append_replicate, List.length_append]
    congr 2
    omega
  · rw [final_append, hls.final_eq, h.final_eq]

/-- What each label of such a run gives. -/
theorem AtLast.getElem? {s : σ} {ls : List ι} {r : σ × List ο} (h : AtLast step s ls r) {i : ℕ}
    (hi : i < ls.length) :
    (trace step s ls)[i]? = some (if i + 1 = ls.length then r.2 else []) := by
  rw [h.trace_eq]
  split
  · rw [List.getElem?_append_right (by rw [List.length_replicate]; omega), List.length_replicate,
      show i - (ls.length - 1) = 0 by omega]
    rfl
  · rw [List.getElem?_append_left (by rw [List.length_replicate]; omega),
      List.getElem?_replicate_of_lt (by omega)]

/-- A label that gives nothing in a state with `A` and keeps it; elsewhere it gives **one output at
most**, and leads to `A` with it. -/
structure Once (step : σ → ι → σ × List ο) (A : σ → Prop) (l : ι) : Prop where
  quiet : ∀ s, A s → (step s l).2 = [] ∧ A (step s l).1
  once : ∀ s, (step s l).2 = [] ∨ (step s l).2.length = 1 ∧ A (step s l).1

/-- A run of such labels that begins with `A` gives nothing. -/
theorem flatten_trace_of_once {A : σ → Prop} {ls : List ι} (h : ∀ l ∈ ls, Once step A l) {s : σ}
    (hs : A s) : (trace step s ls).flatten = [] := by
  induction ls generalizing s with
  | nil => rfl
  | cons l ls ih =>
    obtain ⟨hl, hls⟩ := List.forall_mem_cons.mp h
    obtain ⟨hout, hA⟩ := hl.quiet s hs
    rw [trace_cons, List.flatten_cons, hout, ih hls hA, List.nil_append]

/-- A run of such labels gives **one output at most**. -/
theorem length_trace_le_one {A : σ → Prop} {ls : List ι} (h : ∀ l ∈ ls, Once step A l) (s : σ) :
    (trace step s ls).flatten.length ≤ 1 := by
  induction ls generalizing s with
  | nil => exact Nat.zero_le 1
  | cons l ls ih =>
    obtain ⟨hl, hls⟩ := List.forall_mem_cons.mp h
    rw [trace_cons, List.flatten_cons]
    rcases hl.once s with hout | ⟨hout, hA⟩
    · rw [hout, List.nil_append]
      exact ih hls _
    · rw [flatten_trace_of_once hls hA, List.append_nil]
      exact Nat.le_of_eq hout

/-- Runs that give one output at most, one after the other. -/
theorem length_trace_flatten_le {runs : List (List ι)}
    (h : ∀ ls ∈ runs, ∃ A, ∀ l ∈ ls, Once step A l) (s : σ) :
    (trace step s runs.flatten).flatten.length ≤ runs.length := by
  induction runs generalizing s with
  | nil => exact Nat.le_refl 0
  | cons ls runs ih =>
    obtain ⟨⟨A, hls⟩, hruns⟩ := List.forall_mem_cons.mp h
    have hfirst := length_trace_le_one hls s
    have hrest := ih hruns (final step s ls)
    rw [List.flatten_cons, trace_append, List.flatten_append, List.length_append, List.length_cons]
    omega

section View

variable {sink : τ → ο → Option τ} {prep : τ → σ → ι → τ} (view : τ → ρ) {sink' : ρ → ο → Option ρ}
  {Q : ο → Prop}

/-- A sink that acts on a view of its state, acts on it along a run. -/
theorem exec_view (hsink : ∀ t o, Q o → (sink t o).map view = sink' (view t) o) {os : List ο}
    (hos : ∀ o ∈ os, Q o) (t : τ) : (exec sink t os).map view = exec sink' (view t) os := by
  induction os generalizing t with
  | nil => rfl
  | cons o os ih =>
    obtain ⟨ho, hos⟩ := List.forall_mem_cons.mp hos
    rw [exec_cons, exec_cons, ← hsink t o ho]
    cases sink t o with
    | none => rfl
    | some t' => exact ih hos t'

/-- Seen through the view, the system does **what the sink does with the trace**. -/
theorem exec_sunk {I : σ → Prop} (hI : ∀ s l, I s → I (step s l).1)
    (hQ : ∀ s l, I s → ∀ o ∈ (step s l).2, Q o)
    (hprep : ∀ t s l, I s → view (prep t s l) = view t)
    (hsink : ∀ t o, Q o → (sink t o).map view = sink' (view t) o) {s : σ} (hs : I s) (t : τ)
    (ls : List ι) :
    (exec (sunk sink prep step) (t, s) ls).map (fun r => (view r.1, r.2)) =
      (exec sink' (view t) (trace step s ls).flatten).map fun r => (r, final step s ls) := by
  induction ls generalizing t s with
  | nil => rfl
  | cons l ls ih =>
    rw [exec_cons, trace_cons, List.flatten_cons, exec_append, ← hprep t s l hs,
      ← exec_view view hsink (hQ s l hs), sunk]
    cases exec sink (prep t s l) (step s l).2 with
    | none => rfl
    | some t' => exact ih (hI s l hs) t'

end View

end Mealy
