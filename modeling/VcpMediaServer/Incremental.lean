import Mathlib.Data.List.Forall2

/-!
# Incremental parsers

A parser of a stream that arrives in segments. A step takes something off the front of the
buffer and may put out items; `none` means that the front is **not complete**. After each
segment the parser takes steps until the front is not complete, and may then change its
state (`touch`): a parser that remembers what it has seen of an incomplete front does.

* `drain` — the steps from a buffer on.
* `run` — the segments, one after the other.
* `run_flatten` — a parser that remembers nothing of an incomplete front **does not see**
  how the stream was cut.
* `AllFronts` — a property of the state and the buffer before every step of a run, the ones
  that take nothing included.
* `run_simulation` — two parsers of one stream, step by step, while such a property holds.
* `runUpTo_flatten` — the same of the first steps of a parser **that may never end**.
* `drain_encoded` — what was **encoded** piece by piece is taken piece by piece.
* `drain_interleaved` — and so it is if the pieces come from several sources, in any order.
* `run_encoded` — it is taken so **however it is cut**, if what the parser remembers of an
  incomplete piece does it no harm.
-/

namespace Incremental

universe u v w

variable {σ : Type u} {β : Type v} {μ : Type w}

/-- At most `n` steps: the items, the state and the buffer after them. -/
def drainN (step : σ → List β → Option (σ × List β × List μ)) :
    ℕ → σ → List β → List μ × σ × List β
  | 0, s, buf => ([], s, buf)
  | n + 1, s, buf =>
    match step s buf with
    | none => ([], s, buf)
    | some (s', rest, out) =>
      let r := drainN step n s' rest
      (out ++ r.1, r.2)

/-- The steps from `buf` on. -/
def drain (step : σ → List β → Option (σ × List β × List μ)) (s : σ) (buf : List β) :
    List μ × σ × List β :=
  drainN step buf.length s buf

/-- The segments, one after the other: the items, the state and the buffer after them. -/
def run (step : σ → List β → Option (σ × List β × List μ)) (touch : σ → List β → σ) :
    σ → List β → List (List β) → List μ × σ × List β
  | s, buf, [] => ([], s, buf)
  | s, buf, seg :: segs =>
    let d := drain step s (buf ++ seg)
    let r := run step touch (touch d.2.1 d.2.2) d.2.2 segs
    (d.1 ++ r.1, r.2)

/-- A parser that remembers nothing of an incomplete front. -/
def forget (s : σ) (_ : List β) : σ := s

/-- Every step takes something. -/
def Consumes (step : σ → List β → Option (σ × List β × List μ)) : Prop :=
  ∀ s buf s' rest out, step s buf = some (s', rest, out) → rest.length < buf.length

/-- What follows a complete front **does not matter**. -/
def Extends (step : σ → List β → Option (σ × List β × List μ)) : Prop :=
  ∀ s buf s' rest out, step s buf = some (s', rest, out) →
    ∀ more, step s (buf ++ more) = some (s', rest ++ more, out)

variable {step : σ → List β → Option (σ × List β × List μ)} {touch : σ → List β → σ}
  {s s' : σ} {buf rest : List β} {out : List μ}

theorem Consumes.step_nil (hc : Consumes step) (s : σ) : step s [] = none := by
  rcases h : step s [] with _ | ⟨s', rest, out⟩
  · rfl
  · exact absurd (hc s [] s' rest out h) (Nat.not_lt_zero _)

/-- More steps than there is something to take do not matter. -/
theorem drainN_of_le (hc : Consumes step) {n m : ℕ} (s : σ) (buf : List β)
    (hn : buf.length ≤ n) (hm : buf.length ≤ m) : drainN step n s buf = drainN step m s buf := by
  induction n generalizing m s buf with
  | zero =>
    obtain rfl := List.length_eq_zero_iff.mp (Nat.le_zero.mp hn)
    cases m with
    | zero => rfl
    | succ m => rw [drainN, drainN, hc.step_nil]
  | succ n ih =>
    cases m with
    | zero =>
      obtain rfl := List.length_eq_zero_iff.mp (Nat.le_zero.mp hm)
      rw [drainN, drainN, hc.step_nil]
    | succ m =>
      rw [drainN, drainN]
      rcases hs : step s buf with _ | ⟨s', rest, out⟩
      · rfl
      · have hlt := hc s buf s' rest out hs
        dsimp only
        rw [ih s' rest (by omega) (by omega : rest.length ≤ m)]

/-- The steps end at an incomplete front. -/
theorem drain_of_none (h : step s buf = none) : drain step s buf = ([], s, buf) := by
  rw [drain]
  cases buf.length with
  | zero => rfl
  | succ n => rw [drainN, h]

/-- A step, and the steps from there on. -/
theorem drain_of_some (hc : Consumes step) (h : step s buf = some (s', rest, out)) :
    drain step s buf = (out ++ (drain step s' rest).1, (drain step s' rest).2) := by
  have hlt := hc s buf s' rest out h
  obtain ⟨n, hn⟩ : ∃ n, buf.length = n + 1 := ⟨buf.length - 1, by omega⟩
  rw [drain, hn, drainN, h, drain]
  dsimp only
  rw [drainN_of_le hc s' rest (by omega) (Nat.le_refl rest.length)]

/-- The **induction rule**: over the steps from a buffer on. -/
theorem drain_induction {motive : σ → List β → Prop} (hc : Consumes step)
    (stop : ∀ s buf, step s buf = none → motive s buf)
    (take : ∀ s buf s' rest out, step s buf = some (s', rest, out) → motive s' rest →
      motive s buf) (s : σ) (buf : List β) : motive s buf := by
  induction hlen : buf.length using Nat.strongRecOn generalizing s buf with
  | ind n ih =>
    rcases h : step s buf with _ | ⟨s', rest, out⟩
    · exact stop s buf h
    · have hlt := hc s buf s' rest out h
      exact take s buf s' rest out h (ih rest.length (by omega) s' rest rfl)

/-- The front that is left is incomplete. -/
theorem step_drain (hc : Consumes step) (s : σ) (buf : List β) :
    step (drain step s buf).2.1 (drain step s buf).2.2 = none := by
  induction s, buf using drain_induction hc with
  | stop s buf h =>
    rw [drain_of_none h]
    exact h
  | take s buf s' rest out h ih =>
    rw [drain_of_some hc h]
    exact ih

/-- More of the stream: the steps go on **where they stopped**. -/
theorem drain_append (hc : Consumes step) (he : Extends step) (s : σ) (buf more : List β) :
    drain step s (buf ++ more) =
      ((drain step s buf).1 ++
          (drain step (drain step s buf).2.1 ((drain step s buf).2.2 ++ more)).1,
        (drain step (drain step s buf).2.1 ((drain step s buf).2.2 ++ more)).2) := by
  induction s, buf using drain_induction hc with
  | stop s buf h =>
    rw [drain_of_none h]
    rfl
  | take s buf s' rest out h ih =>
    rw [drain_of_some hc (he s buf s' rest out h more), drain_of_some hc h, ih,
      List.append_assoc]

/-- However the stream is cut, a parser that remembers nothing of an incomplete front puts
out **the same**. -/
theorem run_flatten (hc : Consumes step) (he : Extends step) (s : σ) (buf : List β)
    (h : step s buf = none) (segs : List (List β)) :
    run step forget s buf segs = drain step s (buf ++ segs.flatten) := by
  induction segs generalizing s buf with
  | nil =>
    rw [List.flatten_nil, List.append_nil, drain_of_none h]
    rfl
  | cons seg segs ih =>
    rw [run, List.flatten_cons, ← List.append_assoc, drain_append hc he s (buf ++ seg)]
    dsimp only [forget]
    rw [ih _ _ (step_drain hc s (buf ++ seg))]

/-- A single segment: what is remembered of its incomplete front comes too late. -/
theorem run_singleton (touch : σ → List β → σ) (s : σ) (buf seg : List β) :
    (run step touch s buf [seg]).1 = (drain step s (buf ++ seg)).1 := by
  rw [run, run, List.append_nil]

/-! ## The first steps -/

/-- At most `n` steps, and how many of them are left. -/
def drainUpTo (step : σ → List β → Option (σ × List β × List μ)) :
    ℕ → σ → List β → (List μ × σ × List β) × ℕ
  | 0, s, buf => (([], s, buf), 0)
  | n + 1, s, buf =>
    match step s buf with
    | none => (([], s, buf), n + 1)
    | some (s', rest, out) =>
      let r := drainUpTo step n s' rest
      ((out ++ r.1.1, r.1.2), r.2)

/-- At most `n` steps on the segments: the items, and the state after them. -/
def runUpTo (step : σ → List β → Option (σ × List β × List μ)) :
    ℕ → σ → List β → List (List β) → List μ × σ
  | _, s, _, [] => ([], s)
  | n, s, buf, seg :: segs =>
    let d := drainUpTo step n s (buf ++ seg)
    let r := runUpTo step d.2 d.1.2.1 d.1.2.2 segs
    (d.1.1 ++ r.1, r.2)

theorem drainUpTo_of_none (h : step s buf = none) (n : ℕ) :
    drainUpTo step n s buf = (([], s, buf), n) := by
  cases n with
  | zero => rfl
  | succ n => rw [drainUpTo, h]

theorem drainUpTo_of_some (h : step s buf = some (s', rest, out)) (n : ℕ) :
    drainUpTo step (n + 1) s buf =
      ((out ++ (drainUpTo step n s' rest).1.1, (drainUpTo step n s' rest).1.2),
          (drainUpTo step n s' rest).2) := by
  rw [drainUpTo, h]

/-- The steps end at an incomplete front, or none of them are left. -/
theorem step_drainUpTo (n : ℕ) (s : σ) (buf : List β) :
    (drainUpTo step n s buf).2 = 0 ∨
      step (drainUpTo step n s buf).1.2.1 (drainUpTo step n s buf).1.2.2 = none := by
  induction n generalizing s buf with
  | zero => exact .inl rfl
  | succ n ih =>
    rcases h : step s buf with _ | ⟨s', rest, out⟩
    · rw [drainUpTo_of_none h]
      exact .inr h
    · rw [drainUpTo_of_some h]
      exact ih s' rest

/-- More of the stream: the steps that are left go on where they stopped. -/
theorem drainUpTo_append (he : Extends step) (n : ℕ) (s : σ) (buf more : List β) :
    let d := drainUpTo step n s buf
    let r := drainUpTo step d.2 d.1.2.1 (d.1.2.2 ++ more)
    (drainUpTo step n s (buf ++ more)).1.1 = d.1.1 ++ r.1.1 ∧
      (drainUpTo step n s (buf ++ more)).1.2.1 = r.1.2.1 := by
  induction n generalizing s buf with
  | zero => exact ⟨rfl, rfl⟩
  | succ n ih =>
    rcases h : step s buf with _ | ⟨s', rest, out⟩
    · simp only [drainUpTo_of_none h, List.nil_append, and_self]
    · obtain ⟨hitems, hstate⟩ := ih s' rest
      simp only [drainUpTo_of_some h, drainUpTo_of_some (he s buf s' rest out h more)]
      exact ⟨by rw [hitems, List.append_assoc], hstate⟩

/-- However the stream is cut, the first steps put out **the same**; a parser that takes nothing off
the front for ever is no exception. -/
theorem runUpTo_flatten (he : Extends step) {n : ℕ} {s : σ} {buf : List β}
    (h : n = 0 ∨ step s buf = none) (segs : List (List β)) :
    runUpTo step n s buf segs =
      ((drainUpTo step n s (buf ++ segs.flatten)).1.1,
          (drainUpTo step n s (buf ++ segs.flatten)).1.2.1) := by
  induction segs generalizing n s buf with
  | nil =>
    rw [List.flatten_nil, List.append_nil, runUpTo]
    rcases h with rfl | h
    · rfl
    · rw [drainUpTo_of_none h]
  | cons seg segs ih =>
    obtain ⟨hitems, hstate⟩ := drainUpTo_append he n s (buf ++ seg) segs.flatten
    rw [runUpTo, List.flatten_cons, ← List.append_assoc, hitems, hstate]
    rw [ih (step_drainUpTo n s (buf ++ seg))]

/-- What a parser puts out of a buffer, and what it leaves, is the buffer. -/
theorem drainUpTo_bytes {bytes : μ → List β}
    (hbytes : ∀ s buf s' rest out, step s buf = some (s', rest, out) →
      out.flatMap bytes ++ rest = buf)
    (n : ℕ) (s : σ) (buf : List β) :
    (drainUpTo step n s buf).1.1.flatMap bytes ++ (drainUpTo step n s buf).1.2.2 = buf := by
  induction n generalizing s buf with
  | zero => rfl
  | succ n ih =>
    rcases h : step s buf with _ | ⟨s', rest, out⟩
    · rw [drainUpTo_of_none h]
      rfl
    · rw [drainUpTo_of_some h, List.flatMap_append, List.append_assoc, ih s' rest]
      exact hbytes s buf s' rest out h

/-! ## Fronts -/

/-- The property holds before every step from the buffer on, the one that takes nothing
included. -/
def AllFrontsN (step : σ → List β → Option (σ × List β × List μ)) (P : σ → List β → Prop) :
    ℕ → σ → List β → Prop
  | 0, s, buf => P s buf
  | n + 1, s, buf => P s buf ∧
    match step s buf with
    | none => True
    | some (s', rest, _) => AllFrontsN step P n s' rest

/-- The property holds before every step of a run. -/
def AllFronts (step : σ → List β → Option (σ × List β × List μ)) (touch : σ → List β → σ)
    (P : σ → List β → Prop) : σ → List β → List (List β) → Prop
  | _, _, [] => True
  | s, buf, seg :: segs =>
    AllFrontsN step P (buf ++ seg).length s (buf ++ seg) ∧
      AllFronts step touch P
        (touch (drain step s (buf ++ seg)).2.1 (drain step s (buf ++ seg)).2.2)
        (drain step s (buf ++ seg)).2.2 segs

/-- More fronts than there is something to take do not matter. -/
theorem allFrontsN_of_le {P : σ → List β → Prop} (hc : Consumes step) {n m : ℕ} (s : σ)
    (buf : List β) (hn : buf.length ≤ n) (hm : buf.length ≤ m) :
    AllFrontsN step P n s buf ↔ AllFrontsN step P m s buf := by
  induction n generalizing m s buf with
  | zero =>
    obtain rfl := List.length_eq_zero_iff.mp (Nat.le_zero.mp hn)
    cases m with
    | zero => exact Iff.rfl
    | succ m =>
      rw [AllFrontsN, AllFrontsN, hc.step_nil]
      exact (and_iff_left trivial).symm
  | succ n ih =>
    cases m with
    | zero =>
      obtain rfl := List.length_eq_zero_iff.mp (Nat.le_zero.mp hm)
      rw [AllFrontsN, AllFrontsN, hc.step_nil]
      exact and_iff_left trivial
    | succ m =>
      rw [AllFrontsN, AllFrontsN]
      rcases hs : step s buf with _ | ⟨s', rest, out⟩
      · exact Iff.rfl
      · have hlt := hc s buf s' rest out hs
        exact and_congr_right fun _ => ih s' rest (by omega) (by omega)

/-- The only front is an incomplete one. -/
theorem allFrontsN_of_none {P : σ → List β → Prop} (h : step s buf = none) (n : ℕ) :
    AllFrontsN step P n s buf ↔ P s buf := by
  cases n with
  | zero => exact Iff.rfl
  | succ n =>
    rw [AllFrontsN, h]
    exact and_iff_left trivial

/-- A front, and the fronts behind it. -/
theorem allFrontsN_of_some {P : σ → List β → Prop} (hc : Consumes step)
    (h : step s buf = some (s', rest, out)) :
    AllFrontsN step P buf.length s buf ↔ P s buf ∧ AllFrontsN step P rest.length s' rest := by
  have hlt := hc s buf s' rest out h
  obtain ⟨n, hn⟩ : ∃ n, buf.length = n + 1 := ⟨buf.length - 1, by omega⟩
  rw [hn, AllFrontsN, h]
  exact and_congr_right fun _ => allFrontsN_of_le hc s' rest (by omega) (Nat.le_refl _)

instance decidableAllFrontsN {P : σ → List β → Prop} [∀ s buf, Decidable (P s buf)] :
    (n : ℕ) → (s : σ) → (buf : List β) → Decidable (AllFrontsN step P n s buf)
  | 0, s, buf => inferInstanceAs (Decidable (P s buf))
  | n + 1, s, buf => by
    unfold AllFrontsN
    have : Decidable (match step s buf with
        | none => True
        | some (s', rest, _) => AllFrontsN step P n s' rest) := by
      split
      · infer_instance
      · exact decidableAllFrontsN n _ _
    infer_instance

instance decidableAllFronts {P : σ → List β → Prop} [∀ s buf, Decidable (P s buf)] :
    (s : σ) → (buf : List β) → (segs : List (List β)) →
      Decidable (AllFronts step touch P s buf segs)
  | _, _, [] => .isTrue trivial
  | s, buf, seg :: segs =>
    have : Decidable (AllFronts step touch P
        (touch (drain step s (buf ++ seg)).2.1 (drain step s (buf ++ seg)).2.2)
        (drain step s (buf ++ seg)).2.2 segs) := decidableAllFronts _ _ _
    inferInstanceAs (Decidable (_ ∧ _))

/-- A property of all fronts holds before every step of every run. -/
theorem allFronts_of_forall {P : σ → List β → Prop} (h : ∀ s buf, P s buf) (s : σ)
    (buf : List β) (segs : List (List β)) : AllFronts step touch P s buf segs := by
  have hfronts : ∀ n s buf, AllFrontsN step P n s buf := by
    intro n
    induction n with
    | zero => exact h
    | succ n ih =>
      intro s buf
      refine ⟨h s buf, ?_⟩
      rcases step s buf with _ | ⟨s', rest, out⟩
      · trivial
      · exact ih s' rest
  induction segs generalizing s buf with
  | nil => trivial
  | cons seg segs ih => exact ⟨hfronts _ _ _, ih _ _⟩

/-! ## Simulation -/

section Simulation

universe u₂ w₂

variable {σ₂ : Type u₂} {μ₂ : Type w₂} {step₂ : σ₂ → List β → Option (σ₂ × List β × List μ₂)}
  {touch₂ : σ₂ → List β → σ₂} {R : σ → σ₂ → List β → Prop} {ρ : μ → μ₂ → Prop}
  {P : σ₂ → List β → Prop}

/-- Two parsers at one front: both find it incomplete, or both take the same off it, put
out what is related and stay related. -/
inductive Related (R : σ → σ₂ → List β → Prop) (ρ : μ → μ₂ → Prop) :
    Option (σ × List β × List μ) → Option (σ₂ × List β × List μ₂) → Prop
  | stop : Related R ρ none none
  | take {s' : σ} {t' : σ₂} {rest : List β} {out : List μ} {out' : List μ₂}
      (outs : List.Forall₂ ρ out out') (rel : R s' t' rest) :
      Related R ρ (some (s', rest, out)) (some (t', rest, out'))

/-- The steps from related states on are related, while the property holds. -/
theorem drain_simulation (hc : Consumes step)
    (hstep : ∀ s t buf, R s t buf → P t buf → Related R ρ (step s buf) (step₂ t buf))
    {n : ℕ} (s : σ) (t : σ₂) (buf : List β) (hn : buf.length ≤ n) (hR : R s t buf)
    (hP : AllFrontsN step₂ P n t buf) :
    List.Forall₂ ρ (drainN step n s buf).1 (drainN step₂ n t buf).1 ∧
      (drainN step n s buf).2.2 = (drainN step₂ n t buf).2.2 ∧
      R (drainN step n s buf).2.1 (drainN step₂ n t buf).2.1 (drainN step n s buf).2.2 ∧
      P (drainN step₂ n t buf).2.1 (drainN step₂ n t buf).2.2 := by
  induction n generalizing s t buf with
  | zero => exact ⟨.nil, rfl, hR, hP⟩
  | succ n ih =>
    obtain ⟨hfront, hrest⟩ := hP
    have hrel := hstep s t buf hR hfront
    rw [drainN, drainN]
    rcases hs : step s buf with _ | ⟨s', rest, out⟩
    · rw [hs] at hrel
      rcases ht : step₂ t buf with _ | ⟨t', rest', out'⟩
      · exact ⟨.nil, rfl, hR, hfront⟩
      · rw [ht] at hrel
        cases hrel
    · rw [hs] at hrel
      rcases ht : step₂ t buf with _ | ⟨t', rest', out'⟩
      · rw [ht] at hrel
        cases hrel
      · rw [ht] at hrel hrest
        cases hrel with
        | take outs rel =>
          have hlt := hc s buf s' rest out hs
          obtain ⟨houts, hbuf, hR', hP'⟩ := ih s' t' rest (by omega) rel hrest
          exact ⟨List.rel_append outs houts, hbuf, hR', hP'⟩

/-- Two parsers of one stream that are related at the beginning put out what is **related**,
while the property holds before every step of the second. -/
theorem run_simulation (hc : Consumes step)
    (hstep : ∀ s t buf, R s t buf → P t buf → Related R ρ (step s buf) (step₂ t buf))
    (htouch : ∀ s t buf, R s t buf → P t buf → R (touch s buf) (touch₂ t buf) buf)
    (hmore : ∀ s t buf more, R s t buf → R s t (buf ++ more))
    {s : σ} {t : σ₂} {buf : List β} {segs : List (List β)} (hR : R s t buf)
    (hP : AllFronts step₂ touch₂ P t buf segs) :
    List.Forall₂ ρ (run step touch s buf segs).1 (run step₂ touch₂ t buf segs).1 := by
  induction segs generalizing s t buf with
  | nil => exact .nil
  | cons seg segs ih =>
    obtain ⟨hfronts, hrest⟩ := hP
    obtain ⟨houts, hbuf, hR', hP'⟩ := drain_simulation hc hstep s t (buf ++ seg) (Nat.le_refl _)
      (hmore s t buf seg hR) hfronts
    rw [run, run]
    apply List.rel_append houts
    change (drain step s (buf ++ seg)).2.2 = (drain step₂ t (buf ++ seg)).2.2 at hbuf
    change R (drain step s (buf ++ seg)).2.1 (drain step₂ t (buf ++ seg)).2.1
      (drain step s (buf ++ seg)).2.2 at hR'
    rw [hbuf] at hR' ⊢
    exact ih (htouch _ _ _ hR' hP') hrest

end Simulation

/-! ## Encoded pieces -/

section Encoded

universe x y

variable {ι : Type x} {bytes : ι → List β} {items : ι → List μ}

/-- If every piece is one step of the parser, whatever follows it, a list of pieces is taken
to its end. -/
theorem drain_encoded {R : σ → List ι → Prop} (hc : Consumes step)
    (hstep : ∀ s i l, R s (i :: l) →
      ∃ s', R s' l ∧ ∀ more, step s (bytes i ++ more) = some (s', more, items i))
    {l : List ι} (h : R s l) :
    ∃ s', R s' [] ∧ drain step s (l.flatMap bytes) = (l.flatMap items, s', []) := by
  induction l generalizing s with
  | nil => exact ⟨s, h, rfl⟩
  | cons i l ih =>
    obtain ⟨s₁, h₁, htake⟩ := hstep s i l h
    obtain ⟨s', h', hdrain⟩ := ih h₁
    refine ⟨s', h', ?_⟩
    rw [List.flatMap_cons, drain_of_some hc (htake _), hdrain, List.flatMap_cons]

/-- A part of the pieces: the first of them are taken, and what is left is the beginning of the
next. -/
theorem drain_part {R : σ → List ι → Prop} (hc : Consumes step) (he : Extends step)
    (hstep : ∀ s i l, R s (i :: l) →
      ∃ s', R s' l ∧ ∀ more, step s (bytes i ++ more) = some (s', more, items i))
    {l : List ι} (h : R s l) {part tail : List β} (hpart : part ++ tail = l.flatMap bytes) :
    ∃ s' done left front, l = done ++ left ∧ drain step s part = (done.flatMap items, s', front) ∧
      R s' left ∧
      front ++ tail = left.flatMap bytes ∧ ∀ i left', left = i :: left' →
          front <+: bytes i ∧ front ≠ bytes i := by
  induction l generalizing s part with
  | nil =>
    obtain ⟨rfl, rfl⟩ := List.append_eq_nil_iff.mp hpart
    exact ⟨s, [], [], [], rfl, drain_of_none (hc.step_nil s), h, rfl, nofun⟩
  | cons i l ih =>
    obtain ⟨s₁, h₁, htake⟩ := hstep s i l h
    rw [List.flatMap_cons] at hpart
    by_cases hwhole : bytes i <+: part
    · -- the piece is all there
      obtain ⟨more, rfl⟩ := hwhole
      rw [List.append_assoc] at hpart
      obtain ⟨s', done, left, front, rfl, hdrain, hR, hleft, hfront⟩ :=
        ih h₁ (List.append_cancel_left hpart)
      refine ⟨s', i :: done, left, front, rfl, ?_, hR, hleft, hfront⟩
      rw [drain_of_some hc (htake more), hdrain, List.flatMap_cons]
    · -- a part of the piece cannot be taken
      have hfront : part <+: bytes i :=
        (List.prefix_or_prefix_of_prefix ⟨tail, hpart⟩ (List.prefix_append _ _)).resolve_right
          hwhole
      obtain ⟨behind, hi⟩ := hfront
      have hne : part ≠ bytes i := fun heq => hwhole (heq ▸ List.prefix_rfl)
      refine ⟨s, [], i :: l, part, rfl, ?_, h, by rw [List.flatMap_cons]; exact hpart, ?_⟩
      · refine drain_of_none (Option.eq_none_iff_forall_ne_some.mpr ?_)
        rintro ⟨s', left, out⟩ hsome
        have hmore := he s part s' left out hsome behind
        have htaken := htake []
        rw [List.append_nil, ← hi, hmore] at htaken
        have hnil : left ++ behind = [] := (Prod.mk.inj (Prod.mk.inj (Option.some.inj htaken)).2).1
        rw [(List.append_eq_nil_iff.mp hnil).2, List.append_nil] at hi
        exact hne hi
      · intro i' l' hcons
        obtain ⟨rfl, rfl⟩ := List.cons.inj hcons
        exact ⟨⟨behind, hi⟩, hne⟩

/-- From a buffer on that holds a part of the first piece. -/
theorem run_encoded_from {R : σ → List ι → Prop} (hc : Consumes step) (he : Extends step)
    (hstep : ∀ s i l, R s (i :: l) →
      ∃ s', R s' l ∧ ∀ more, step s (bytes i ++ more) = some (s', more, items i))
    (htouch : ∀ s i l front, R s (i :: l) → front <+: bytes i → front ≠ bytes i →
      R (touch s front) (i :: l))
    (hend : ∀ s, R s [] → R (touch s []) []) {l : List ι} (h : R s l) {front : List β}
    (hfront : ∀ i l', l = i :: l' → front <+: bytes i ∧ front ≠ bytes i) {segs : List (List β)}
    (hsegs : front ++ segs.flatten = l.flatMap bytes) :
    (run step touch s front segs).1 = l.flatMap items := by
  induction segs generalizing s l front with
  | nil =>
    rw [List.flatten_nil, List.append_nil] at hsegs
    cases l with
    | nil => rfl
    | cons i l =>
      obtain ⟨hpart, hne⟩ := hfront i l rfl
      rw [List.flatMap_cons] at hsegs
      exact absurd (hpart.eq_of_length_le (hsegs ▸ List.length_append ▸ Nat.le_add_right _ _)) hne
  | cons seg segs ih =>
    rw [List.flatten_cons, ← List.append_assoc] at hsegs
    obtain ⟨s', done, left, front', rfl, hdrain, hR, hleft, hfront'⟩ :=
      drain_part hc he hstep h hsegs
    have hkept : R (touch s' front') left := by
      cases left with
      | nil =>
        rw [(List.append_eq_nil_iff.mp hleft).1]
        exact hend s' hR
      | cons i left =>
        obtain ⟨hpart, hne⟩ := hfront' i left rfl
        exact htouch s' i left front' hR hpart hne
    rw [run, hdrain, List.flatMap_append]
    dsimp only
    rw [ih hkept hfront' hleft]

/-- However the pieces are **cut**, they are taken piece by piece, if what is remembered at the end
of a segment does no harm. -/
theorem run_encoded {R : σ → List ι → Prop} (hc : Consumes step) (he : Extends step)
    (hstep : ∀ s i l, R s (i :: l) →
      ∃ s', R s' l ∧ ∀ more, step s (bytes i ++ more) = some (s', more, items i))
    (htouch : ∀ s i l front, R s (i :: l) → front <+: bytes i → R (touch s front) (i :: l))
    (hend : ∀ s, R s [] → R (touch s []) []) {l : List ι} (h : R s l) {segs : List (List β)}
    (hsegs : segs.flatten = l.flatMap bytes) : (run step touch s [] segs).1 = l.flatMap items := by
  refine run_encoded_from hc he hstep (fun s i l front hs hfront _ => htouch s i l front hs hfront)
    hend h ?_ hsegs
  rintro i l' rfl
  obtain ⟨s', -, htake⟩ := hstep s i l' h
  have hlt := hc s _ s' [] _ (htake [])
  exact ⟨List.nil_prefix, fun hnil => by rw [← hnil] at hlt; exact Nat.lt_irrefl 0 hlt⟩

/-- More segments do not change what has been put out. -/
theorem run_append_prefix (s : σ) (buf : List β) (segs more : List (List β)) :
    (run step touch s buf segs).1 <+: (run step touch s buf (segs ++ more)).1 := by
  induction segs generalizing s buf with
  | nil => exact List.nil_prefix
  | cons seg segs ih =>
    rw [List.cons_append, run, run]
    exact (List.prefix_append_right_inj _).mpr (ih _ _)

/-- Of a part of the bytes, the first of the items. -/
theorem run_encoded_part {R : σ → List ι → Prop} (hc : Consumes step) (he : Extends step)
    (hstep : ∀ s i l, R s (i :: l) →
      ∃ s', R s' l ∧ ∀ more, step s (bytes i ++ more) = some (s', more, items i))
    (htouch : ∀ s i l front, R s (i :: l) → front <+: bytes i → R (touch s front) (i :: l))
    (hend : ∀ s, R s [] → R (touch s []) []) {l : List ι} (h : R s l) {segs : List (List β)}
    (hsegs : segs.flatten <+: l.flatMap bytes) :
    (run step touch s [] segs).1 <+: l.flatMap items := by
  obtain ⟨tail, htail⟩ := hsegs
  have hall := run_encoded hc he hstep htouch hend h
    (show (segs ++ [tail]).flatten =
      l.flatMap bytes by rw [List.flatten_append, List.flatten_singleton, htail])
  rw [← hall]
  exact run_append_prefix s [] segs [tail]

variable {κ : Type y} [DecidableEq κ]

/-- What comes from the source `k`. -/
def fromSource {α : Type x} (l : List (κ × α)) (k : κ) : List α :=
  (l.filter fun e => e.1 = k).map Prod.snd

theorem fromSource_cons_self {α : Type x} (k : κ) (a : α) (l : List (κ × α)) :
    fromSource ((k, a) :: l) k = a :: fromSource l k := by
  simp [fromSource]

theorem fromSource_cons_ne {α : Type x} {k k' : κ} (h : k' ≠ k) (a : α) (l : List (κ × α)) :
    fromSource ((k, a) :: l) k' = fromSource l k' := by
  simp [fromSource, Ne.symm h]

/-- The pieces of several sources, in **any order** that keeps those of each: a step for a
source does not disturb what the parser knows of the others. -/
theorem drain_interleaved {R : σ → κ → List ι → Prop} (hc : Consumes step)
    (hstep : ∀ s k i q, R s k (i :: q) →
      ∃ s', R s' k q ∧ (∀ k', k' ≠ k → ∀ q', R s k' q' → R s' k' q') ∧
        ∀ more, step s (bytes i ++ more) = some (s', more, items i))
    {l : List (κ × ι)} (h : ∀ k, R s k (fromSource l k)) :
    ∃ s', (∀ k, R s' k []) ∧
      drain step s (l.flatMap fun e => bytes e.2) = (l.flatMap fun e => items e.2, s', []) := by
  refine drain_encoded (R := fun s l => ∀ k, R s k (fromSource l k)) hc ?_ h
  rintro s ⟨k, i⟩ l h
  have hk := h k
  rw [fromSource_cons_self] at hk
  obtain ⟨s', hself, hothers, htake⟩ := hstep s k i _ hk
  refine ⟨s', fun k' => ?_, htake⟩
  by_cases hne : k' = k
  · rw [hne]
    exact hself
  · have hk' := h k'
    rw [fromSource_cons_ne hne] at hk'
    exact hothers k' hne _ hk'

end Encoded

end Incremental
