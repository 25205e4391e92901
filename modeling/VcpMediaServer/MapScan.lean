import Mathlib.Data.List.AList

/-!
# Looking through the values of a map

A map holds values that hold things by a name of their own. Who has but the name looks through all
the values, and takes the first that knows it. Where a name is known to one value at most, it does
not matter in which order.

* `findMap`, `findMapMut` — the first value that has an answer; the second changes the values that
  it asks.
* `Separate` — at most one value has a property.
* `findMap_eq_some_iff`, `lookup_findMapMut` — then the search finds that value, and leaves all
  others alone.
* `flatKeys` — the names that the values know.
-/

namespace MapScan

variable {K : Type*} {H I β : Type*}

/-- The first answer. -/
def findMap (f : H → Option β) (t : AList fun _ : K => H) : Option β :=
  t.entries.findSome? fun e => f e.2

/-- Ask the values one after the other, and change them, until there is an answer. -/
def scan (f : H → H × Option β) : List (Σ _ : K, H) → List (Σ _ : K, H) × Option β
  | [] => ([], none)
  | ⟨k, h⟩ :: es =>
    match f h with
    | (h', some b) => (⟨k, h'⟩ :: es, some b)
    | (h', none) => (⟨k, h'⟩ :: (scan f es).1, (scan f es).2)

theorem keys_scan (f : H → H × Option β) (es : List (Σ _ : K, H)) :
    (scan f es).1.keys = es.keys := by
  induction es with
  | nil => rfl
  | cons e es ih =>
    rw [scan]
    split
    · rfl
    · rw [List.keys_cons, List.keys_cons, ih]

/-- The first answer, where the values that are asked change. -/
def findMapMut (f : H → H × Option β) (t : AList fun _ : K => H) :
    (AList fun _ : K => H) × Option β :=
  (⟨(scan f t.entries).1, by rw [List.NodupKeys, keys_scan]; exact t.nodupKeys⟩,
    (scan f t.entries).2)

variable [DecidableEq K] {t : AList fun _ : K => H}

/-- At most one value of the map has a property. -/
def Separate (p : H → Prop) (t : AList fun _ : K => H) : Prop :=
  ∀ k k' h h', t.lookup k = some h → t.lookup k' = some h' → p h → p h' → k = k'

/-- If at most one value has an answer, it is found. -/
theorem findMap_eq_some_iff {f : H → Option β} (hsep : Separate (fun h => (f h).isSome) t) {b : β} :
    findMap f t = some b ↔ ∃ k h, t.lookup k = some h ∧ f h = some b := by
  have hfound : ∀ {b}, findMap f t = some b → ∃ k h, t.lookup k = some h ∧ f h = some b := by
    intro b hb
    obtain ⟨⟨k, h⟩, hmem, hf⟩ := List.exists_of_findSome?_eq_some hb
    exact ⟨k, h, AList.mem_lookup_iff.mpr hmem, hf⟩
  refine ⟨hfound, ?_⟩
  rintro ⟨k, h, hk, hf⟩
  have hsome : (findMap f t).isSome :=
    List.findSome?_isSome_iff.mpr ⟨⟨k, h⟩, AList.mem_lookup_iff.mp hk, by rw [hf]; rfl⟩
  obtain ⟨b', hb'⟩ := Option.isSome_iff_exists.mp hsome
  -- whatever is found is an answer of the same value
  obtain ⟨k', h', hk', hf'⟩ := hfound hb'
  obtain rfl := hsep k k' h h' hk hk' (Option.isSome_iff_exists.mpr ⟨b, hf⟩)
    (Option.isSome_iff_exists.mpr ⟨b', hf'⟩)
  obtain rfl := Option.some.inj (hk.symm.trans hk')
  rw [hb', ← hf', hf]

/-- The search comes to the value that has an answer, if it is the only one. -/
theorem dlookup_scan {f : H → H × Option β} {es : List (Σ _ : K, H)} (hnodup : es.NodupKeys) {k : K}
    {h : H} (hmem : ⟨k, h⟩ ∈ es) (hothers : ∀ e ∈ es, e.1 ≠ k → (f e.2).2 = none) :
    (scan f es).1.dlookup k = some (f h).1 := by
  induction es with
  | nil => cases hmem
  | cons e es ih =>
    obtain ⟨k₀, h₀⟩ := e
    obtain ⟨hnot, hnodup⟩ := List.nodupKeys_cons.mp hnodup
    rw [scan]
    by_cases hk : k₀ = k
    · obtain rfl := hk
      rcases List.mem_cons.mp hmem with heq | hmem
      · cases heq
        split
        · next hf => rw [List.dlookup_cons_eq, hf]
        · next hf => rw [List.dlookup_cons_eq, hf]
      · -- the key is in the map once
        exact absurd (List.mem_keys_of_mem hmem) hnot
    · have hmem : ⟨k, h⟩ ∈ es := by
        rcases List.mem_cons.mp hmem with heq | hmem
        · cases heq
          exact absurd rfl hk
        · exact hmem
      -- another value comes first: it has no answer, and the search goes on
      have hnone := hothers ⟨k₀, h₀⟩ List.mem_cons_self hk
      split
      · next hf =>
        rw [hf] at hnone
        cases hnone
      · rw [List.dlookup_cons_ne _ _ (Ne.symm hk)]
        exact ih hnodup hmem fun e he => hothers e (List.mem_cons_of_mem _ he)

/-- Elsewhere the search leaves the values alone, or changes them as it asks them. -/
theorem dlookup_scan_cases (f : H → H × Option β) (es : List (Σ _ : K, H)) (k : K) :
    (scan f es).1.dlookup k = es.dlookup k ∨ (scan f es).1.dlookup k = (es.dlookup k).map fun h =>
        (f h).1 := by
  induction es with
  | nil => exact .inl rfl
  | cons e es ih =>
    obtain ⟨k₀, h₀⟩ := e
    rw [scan]
    by_cases hk : k = k₀
    · obtain rfl := hk
      right
      split
      · next hf => rw [List.dlookup_cons_eq, List.dlookup_cons_eq, Option.map_some, hf]
      · next hf => rw [List.dlookup_cons_eq, List.dlookup_cons_eq, Option.map_some, hf]
    · rw [List.dlookup_cons_ne _ _ hk]
      split
      · rw [List.dlookup_cons_ne _ _ hk]
        exact .inl rfl
      · rw [List.dlookup_cons_ne _ _ hk]
        exact ih

/-- If at most one value has an answer, and those that have none stay as they are, the map changes
by what the search does to a value. -/
theorem lookup_findMapMut {f : H → H × Option β} (hsep : Separate (fun h => (f h).2.isSome) t)
    (hsame : ∀ h, (f h).2 = none → (f h).1 = h) (k : K) :
    (findMapMut f t).1.lookup k = (t.lookup k).map fun h => (f h).1 := by
  change (scan f t.entries).1.dlookup k = (t.entries.dlookup k).map fun h => (f h).1
  rcases hk : t.entries.dlookup k with _ | h
  · rcases dlookup_scan_cases f t.entries k with hscan | hscan
    · rw [hscan, hk, Option.map_none]
    · rw [hscan, hk]
  · rw [Option.map_some]
    cases hf : (f h).2 with
    | none =>
      rcases dlookup_scan_cases f t.entries k with hscan | hscan
      · rw [hscan, hk, hsame h hf]
      · rw [hscan, hk, Option.map_some]
    | some b =>
      refine dlookup_scan t.nodupKeys (List.of_mem_dlookup hk) fun e he hne => ?_
      by_contra hsome
      have he' : t.lookup e.1 = some e.2 := AList.mem_lookup_iff.mpr he
      exact hne (hsep e.1 k e.2 h he' hk (Option.isSome_iff_ne_none.mpr hsome)
        (Option.isSome_iff_exists.mpr ⟨b, hf⟩))

/-- The names that the values know. -/
def flatKeys (keysOf : H → List I) (t : AList fun _ : K => H) : List I :=
  t.entries.flatMap fun e => keysOf e.2

theorem mem_flatKeys {keysOf : H → List I} {i : I} :
    i ∈ flatKeys keysOf t ↔ ∃ k h, t.lookup k = some h ∧ i ∈ keysOf h := by
  rw [flatKeys, List.mem_flatMap]
  constructor
  · rintro ⟨⟨k, h⟩, hmem, hi⟩
    exact ⟨k, h, AList.mem_lookup_iff.mpr hmem, hi⟩
  · rintro ⟨k, h, hk, hi⟩
    exact ⟨⟨k, h⟩, AList.mem_lookup_iff.mp hk, hi⟩

/-- A name that one value at most knows is listed once. -/
theorem nodup_flatKeys {keysOf : H → List I} (hnodup : ∀ h, (keysOf h).Nodup)
    (hsep : ∀ i, Separate (fun h => i ∈ keysOf h) t) : (flatKeys keysOf t).Nodup := by
  rw [flatKeys, List.nodup_flatMap]
  refine ⟨fun e _ => hnodup e.2, ?_⟩
  have hkeys := List.nodupKeys_iff_pairwise.mp t.nodupKeys
  refine hkeys.imp_of_mem fun {e e'} he he' hne i hi hi' => hne ?_
  exact hsep i e.1 e'.1 e.2 e'.2 (AList.mem_lookup_iff.mpr he) (AList.mem_lookup_iff.mpr he') hi hi'

end MapScan
