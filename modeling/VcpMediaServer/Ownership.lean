import Mathlib.Logic.Function.Basic

/-!
# Exclusive slots

A table of slots over keys of any type: a key is absent, present and free, or
**held** by one owner. Owners acquire and release; keys come and go.

* `Holds` — the owner of a slot, of which there is **at most one** (`Holds.unique`).
* `create`, `remove`, `acquire`, `release` — the operations, each with what it
  does to `Holds`.
* `Respects` — the rely relation: a change of the table made by parties other
  than the ones in `own` gives them nothing and takes from them at most whole
  keys. Every operation of another party is one.
* `Acts` — the guarantee of a party: what it does to the table under its own ids,
  which is another party's doing for everybody else.
-/

namespace Ownership

universe u v

/-- Slots over the keys `κ` with owners in `α`: `none` is an absent key and
`some none` a free slot. -/
abbrev Table (κ : Type u) (α : Type v) := κ → Option (Option α)

variable {κ : Type u} {α : Type v}

/-- The slot of `k` is held by `a`. -/
def Holds (t : Table κ α) (k : κ) (a : α) : Prop := t k = some (some a)

instance [DecidableEq α] (t : Table κ α) (k : κ) (a : α) : Decidable (Holds t k a) :=
  inferInstanceAs (Decidable (t k = some (some a)))

/-- The table changes from `t` to `t'` by the doing of **others** than the owners
in `own`: none of those gains a slot, and one loses a slot only with its key. -/
def Respects (own : α → Prop) (t t' : Table κ α) : Prop :=
  ∀ k a, own a → (Holds t' k a → Holds t k a) ∧ (Holds t k a → Holds t' k a ∨ t' k = none)

variable {t t' : Table κ α} {k j : κ} {a b : α} {own : α → Prop}

/-- **At most one** owner holds a slot. -/
theorem Holds.unique (h : Holds t k a) (h' : Holds t k b) : a = b :=
  Option.some.inj (Option.some.inj (h.symm.trans h'))

/-- A key whose slot is held is there. -/
theorem Holds.ne_none (h : Holds t k a) : t k ≠ none := by
  rw [Holds] at h
  simp [h]

theorem Respects.refl (t : Table κ α) : Respects own t t :=
  fun _ _ _ => ⟨id, .inl⟩

/-! ## Keys -/

section Keys

variable [DecidableEq κ]

/-- Make a free slot for a key that has none. -/
def create (t : Table κ α) (k : κ) : Table κ α :=
  if t k = none then Function.update t k (some none) else t

/-- Take a key away, whoever holds its slot. -/
def remove (t : Table κ α) (k : κ) : Table κ α := Function.update t k none

theorem create_self : create t k k = some ((t k).getD none) := by
  rw [create]
  rcases h : t k with _ | o
  · rw [if_pos rfl, Function.update_self]
    rfl
  · rw [if_neg (by simp), h]
    rfl

theorem create_of_ne (h : j ≠ k) : create t k j = t j := by
  rw [create]
  split
  · exact Function.update_of_ne h _ _
  · rfl

theorem remove_self : remove t k k = none := Function.update_self _ _ _

theorem remove_of_ne (h : j ≠ k) : remove t k j = t j := Function.update_of_ne h _ _

/-- Making a slot gives it to nobody. -/
@[simp] theorem holds_create : Holds (create t k) j b ↔ Holds t j b := by
  by_cases hj : j = k
  · obtain rfl := hj
    rw [Holds, create_self, Holds]
    rcases t j with _ | o <;> simp
  · rw [Holds, create_of_ne hj, Holds]

/-- Taking a key away takes its slot away. -/
@[simp] theorem holds_remove : Holds (remove t k) j b ↔ j ≠ k ∧ Holds t j b := by
  by_cases hj : j = k
  · obtain rfl := hj
    simp [Holds, remove_self]
  · simp [Holds, remove_of_ne hj, hj]

theorem respects_create (t : Table κ α) (k : κ) : Respects own t (create t k) := by
  intro j a _
  rw [holds_create]
  exact ⟨id, .inl⟩

theorem respects_remove (t : Table κ α) (k : κ) : Respects own t (remove t k) := by
  intro j a _
  rw [holds_remove]
  refine ⟨And.right, fun h => ?_⟩
  by_cases hj : j = k
  · obtain rfl := hj
    exact .inr remove_self
  · exact .inl ⟨hj, h⟩

end Keys

/-! ## Owners -/

section Owners

variable [DecidableEq κ] [DecidableEq α]

/-- The slot of `k` is there for `a` to take: free, or `a`'s already. -/
def Available (t : Table κ α) (k : κ) (a : α) : Prop := t k = some none ∨ Holds t k a

instance (t : Table κ α) (k : κ) (a : α) : Decidable (Available t k a) :=
  inferInstanceAs (Decidable (_ ∨ _))

/-- Take the slot of `k`, if it is available. -/
def acquire (t : Table κ α) (k : κ) (a : α) : Table κ α :=
  if Available t k a then Function.update t k (some (some a)) else t

/-- Give the slot of `k` back, if `a` holds it. -/
def release (t : Table κ α) (k : κ) (a : α) : Table κ α :=
  if Holds t k a then Function.update t k (some none) else t

omit [DecidableEq κ] [DecidableEq α] in
/-- A slot that may be taken is nobody else's. -/
theorem Available.eq_of_holds (h : Available t k a) (h' : Holds t k b) : b = a := by
  rcases h with hfree | hold
  · rw [Holds, hfree] at h'
    cases h'
  · exact h'.unique hold

theorem acquire_self (h : Available t k a) : acquire t k a k = some (some a) := by
  rw [acquire, if_pos h, Function.update_self]

theorem acquire_of_not_available (h : ¬ Available t k a) : acquire t k a = t := by
  rw [acquire, if_neg h]

theorem acquire_of_ne (h : j ≠ k) : acquire t k a j = t j := by
  rw [acquire]
  split
  · exact Function.update_of_ne h _ _
  · rfl

theorem release_self (h : Holds t k a) : release t k a k = some none := by
  rw [release, if_pos h, Function.update_self]

theorem release_of_not_holds (h : ¬ Holds t k a) : release t k a = t := by
  rw [release, if_neg h]

theorem release_of_ne (h : j ≠ k) : release t k a j = t j := by
  rw [release]
  split
  · exact Function.update_of_ne h _ _
  · rfl

/-- An acquisition gives the slot it is for, if that is available, and takes none. -/
theorem holds_acquire :
    Holds (acquire t k a) j b ↔ Holds t j b ∨ (j = k ∧ b = a ∧ Available t k a) := by
  by_cases hav : Available t k a
  · by_cases hj : j = k
    · obtain rfl := hj
      rw [Holds, acquire_self hav]
      constructor
      · intro h
        obtain rfl := Option.some.inj (Option.some.inj h)
        exact .inr ⟨rfl, rfl, hav⟩
      · rintro (h | ⟨-, rfl, -⟩)
        · rcases hav with hfree | hold
          · rw [Holds, hfree] at h
            cases h
          · rw [hold.unique h]
        · rfl
    · rw [Holds, acquire_of_ne hj]
      simp [Holds, hj]
  · rw [acquire_of_not_available hav]
    simp [hav]

/-- A release takes the one slot it is for, and gives none. -/
theorem holds_release : Holds (release t k a) j b ↔ Holds t j b ∧ ¬ (j = k ∧ b = a) := by
  by_cases hh : Holds t k a
  · by_cases hj : j = k
    · obtain rfl := hj
      rw [Holds, release_self hh]
      constructor
      · intro h
        cases h
      · rintro ⟨h, hne⟩
        exact absurd ⟨rfl, h.unique hh⟩ hne
    · rw [Holds, release_of_ne hj]
      simp [Holds, hj]
  · rw [release_of_not_holds hh]
    constructor
    · intro h
      refine ⟨h, ?_⟩
      rintro ⟨rfl, rfl⟩
      exact hh h
    · exact And.left

/-- Another party's acquisition. -/
theorem respects_acquire (h : ¬ own b) : Respects own t (acquire t k b) := by
  intro j a ha
  rw [holds_acquire]
  refine ⟨?_, fun hold => .inl (.inl hold)⟩
  rintro (hold | ⟨-, rfl, -⟩)
  · exact hold
  · exact absurd ha h

/-- Another party's release. -/
theorem respects_release (h : ¬ own b) : Respects own t (release t k b) := by
  intro j a ha
  rw [holds_release]
  refine ⟨And.left, fun hold => .inl ⟨hold, ?_⟩⟩
  rintro ⟨-, rfl⟩
  exact h ha

end Owners

/-! ## Acting under own ids -/

/-- The table changes from `t` to `t'` by the doing of a party that acts as the
owners in `own`: at most the key `makes` is made and the slot of `takes` taken, and
nobody else loses a slot but with its key. -/
structure Acts (own : α → Prop) (makes takes : Option κ) (t t' : Table κ α) : Prop where
  keeps : ∀ k a, ¬ own a → Holds t k a → Holds t' k a ∨ t' k = none
  gains : ∀ k a, Holds t' k a → Holds t k a ∨ (own a ∧ takes = some k)
  absent : ∀ k, t k = none → makes ≠ some k → t' k = none

section Acts

variable {makes takes : Option κ} {other : α → Prop}

theorem Acts.refl (own : α → Prop) (makes takes : Option κ) (t : Table κ α) :
    Acts own makes takes t t :=
  ⟨fun _ _ _ => .inl, fun _ _ => .inl, fun _ h _ => h⟩

/-- For those who are apart from it, the party is **another**. -/
theorem Acts.respects (h : Acts own makes takes t t') (hapart : ∀ a, other a → ¬ own a) :
    Respects other t t' := by
  intro k a ha
  refine ⟨fun hold => ?_, h.keeps k a (hapart a ha)⟩
  exact (h.gains k a hold).resolve_right fun hown => hapart a ha hown.1

/-- A party that takes no slot **gives** none to anybody. -/
theorem Acts.holds (h : Acts own makes none t t') (hold : Holds t' k a) : Holds t k a :=
  (h.gains k a hold).resolve_right fun hgained => Option.some_ne_none k hgained.2.symm

/-- The party may act under more ids. -/
theorem Acts.mono {own' : α → Prop} (h : Acts own makes takes t t') (hown : ∀ a, own a → own' a) :
    Acts own' makes takes t t' where
  keeps k a ha := h.keeps k a fun ha' => ha (hown a ha')
  gains k a hold := (h.gains k a hold).imp id fun ⟨ha, hk⟩ => ⟨hown a ha, hk⟩
  absent := h.absent

variable [DecidableEq κ]

theorem acts_create (own : α → Prop) (takes : Option κ) (t : Table κ α) (k : κ) :
    Acts own (some k) takes t (create t k) where
  keeps j a _ hold := .inl (holds_create.mpr hold)
  gains j a hold := .inl (holds_create.mp hold)
  absent j hj hne := by
    rw [create_of_ne, hj]
    rintro rfl
    exact hne rfl

theorem acts_remove (own : α → Prop) (makes takes : Option κ) (t : Table κ α) (k : κ) :
    Acts own makes takes t (remove t k) where
  keeps j a _ := by
    have hall : Respects (fun _ : α => True) t (remove t k) := respects_remove t k
    exact (hall j a trivial).2
  gains j a hold := .inl (holds_remove.mp hold).2
  absent j hj _ := by
    by_cases hjk : j = k
    · obtain rfl := hjk
      exact remove_self
    · rw [remove_of_ne hjk, hj]

variable [DecidableEq α]

theorem acts_acquire (makes : Option κ) (t : Table κ α) (k : κ) (ha : own a) :
    Acts own makes (some k) t (acquire t k a) where
  keeps j b _ hold := .inl (holds_acquire.mpr (.inl hold))
  gains j b hold := (holds_acquire.mp hold).imp id fun ⟨hj, hb, _⟩ => ⟨hb ▸ ha, hj ▸ rfl⟩
  absent j hj _ := by
    by_cases hjk : j = k
    · obtain rfl := hjk
      rw [acquire_of_not_available, hj]
      rintro (hfree | hold)
      · simp [hj] at hfree
      · exact hold.ne_none hj
    · rw [acquire_of_ne hjk, hj]

/-- The key is made first, if need be. -/
theorem acts_acquire_create (t : Table κ α) (k : κ) (ha : own a) :
    Acts own (some k) (some k) t (acquire (create t k) k a) where
  keeps j b _ hold := .inl (holds_acquire.mpr (.inl (holds_create.mpr hold)))
  gains j b hold := ((acts_acquire none _ k ha).gains j b hold).imp holds_create.mp id
  absent j hj hne := by
    refine (acts_acquire none _ k ha).absent j ?_ nofun
    exact (acts_create own none t k).absent j hj hne

theorem acts_release (makes takes : Option κ) (t : Table κ α) (k : κ) (ha : own a) :
    Acts own makes takes t (release t k a) where
  keeps j b hb hold := by
    refine .inl (holds_release.mpr ⟨hold, ?_⟩)
    rintro ⟨-, rfl⟩
    exact hb ha
  gains j b hold := .inl (holds_release.mp hold).1
  absent j hj _ := by
    by_cases hjk : j = k
    · obtain rfl := hjk
      rw [release_of_not_holds, hj]
      exact fun hold => hold.ne_none hj
    · rw [release_of_ne hjk, hj]

end Acts

end Ownership
