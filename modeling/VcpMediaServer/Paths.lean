import Mathlib.Data.List.DropRight
import Mathlib.Data.List.Infix
import Mathlib.Tactic.SplitIfs

/-!
# Paths

Unix paths as texts, joined as a text is and resolved **lexically**: empty components and `.` are
skipped, `..` takes back the name in front of it.

* `Dir` — what is left of a path: a start (the root, or a number of levels above the current
  directory) and the names to follow from there.
* `enter_follow` — a path that follows another one is entered **as a whole**: what it leads to
  depends only on what is left of it by itself.
* `inside_join_iff` — whether a text that is joined to a directory leads to a place inside a base
  directory is read from the text alone.
-/

namespace Paths

/-- A path, or a part of one. -/
abbrev Path := List Char

/-- A component of a path. -/
abbrev Name := List Char

def isAbsolute (p : Path) : Bool := p.head? = some '/'

/-- The path with a separator behind it; an empty path has none. -/
def slashed (b : Path) : Path := if b = [] ∨ b.getLast? = some '/' then b else b ++ ['/']

/-- `Path::join`: an absolute path replaces what it is joined to. -/
def join (b p : Path) : Path := if isAbsolute p then p else slashed b ++ p

/-- The components between separators, without the ones that lead nowhere. -/
def components (p : Path) : List Name := (p.splitOn '/').filter fun c => c ≠ [] ∧ c ≠ ['.']

/-- `Path::parent`, with the separator that is behind it. -/
def parent (p : Path) : Path := p.rdropWhile (· ≠ '/')

/-! ## What is left of a path -/

/-- A place: the root or the current directory, the levels above it, and the names from there. -/
structure Dir where
  abs : Bool
  ups : ℕ
  names : List Name
deriving DecidableEq, Repr

namespace Dir

/-- Follow one component; nothing is above the root. -/
def step (d : Dir) (c : Name) : Dir :=
  if c = ['.', '.'] then
    if d.names ≠ [] then { d with names := d.names.dropLast }
    else if d.abs then d
    else { d with ups := d.ups + 1 }
  else { d with names := d.names ++ [c] }

def follow (d : Dir) (cs : List Name) : Dir := cs.foldl step d

/-- The place some names further down. -/
def below (d : Dir) (ns : List Name) : Dir := { d with names := d.names ++ ns }

/-- The place that a relative one leads to from here. -/
def enter (d t : Dir) : Dir where
  abs := d.abs
  ups := if d.abs then d.ups else d.ups + (t.ups - d.names.length)
  names := d.names.take (d.names.length - t.ups) ++ t.names

/-- Strictly inside: the base directory itself is not. -/
def Inside (b d : Dir) : Prop := d.abs = b.abs ∧ d.ups = b.ups ∧ b.names <+: d.names ∧
    b.names ≠ d.names

instance (b d : Dir) : Decidable (Inside b d) := inferInstanceAs (Decidable (_ ∧ _ ∧ _ ∧ _))

@[simp] theorem below_nil (d : Dir) : d.below [] = d := by simp [below]

@[simp] theorem below_below (d : Dir) (ns ms : List Name) :
    (d.below ns).below ms = d.below (ns ++ ms) := by
  simp [below]

theorem follow_append (d : Dir) (cs ds : List Name) :
    d.follow (cs ++ ds) = (d.follow cs).follow ds :=
  List.foldl_append

/-- A relative place that does not go up is below. -/
theorem enter_names (d : Dir) (ns : List Name) : d.enter ⟨false, 0, ns⟩ = d.below ns := by
  simp [enter, below]

theorem dropLast_take_succ (names : List Name) (k : ℕ) :
    (names.take (names.length - k)).dropLast = names.take (names.length - (k + 1)) := by
  rw [List.dropLast_eq_take, List.take_take, List.length_take]
  congr 1
  omega

/-- Entering and then one component is entering what the component leads to. -/
theorem enter_step (d : Dir) {t : Dir} (ht : t.abs = false) (c : Name) :
    (d.enter t).step c = d.enter (t.step c) := by
  by_cases hc : c = ['.', '.']
  · by_cases hnames : t.names = []
    · by_cases hups : t.ups < d.names.length
      · -- the component takes back a name of `d`
        have htake : d.names.take (d.names.length - t.ups) ≠ [] := by
          rw [← List.length_pos_iff, List.length_take]
          omega
        have hclimb : t.ups - d.names.length = 0 ∧ t.ups + 1 - d.names.length = 0 := by omega
        simp [step, enter, hc, hnames, ht, htake, dropLast_take_succ, hclimb.1, hclimb.2]
      · -- nothing of `d` is left
        have htake : d.names.length - t.ups = 0 ∧ d.names.length - (t.ups + 1) = 0 := by omega
        have hclimb : t.ups + 1 - d.names.length = t.ups - d.names.length + 1 := by omega
        cases habs : d.abs <;>
          simp [step, enter, hc, hnames, ht, htake.1, htake.2, hclimb, habs, Nat.add_assoc]
    · simp [step, enter, hc, hnames, List.dropLast_append_of_ne_nil]
  · simp [step, enter, hc]

theorem step_abs (d : Dir) (c : Name) : (d.step c).abs = d.abs := by
  unfold step
  split_ifs <;> rfl

/-- A path that is followed from somewhere is entered **as a whole**. -/
theorem enter_follow (d : Dir) {t : Dir} (ht : t.abs = false) (cs : List Name) :
    (d.enter t).follow cs = d.enter (t.follow cs) := by
  induction cs generalizing t with
  | nil => rfl
  | cons c cs ih =>
    have hstep := ih (t := t.step c) (by rw [step_abs, ht])
    rw [← enter_step d ht] at hstep
    exact hstep

/-- What is below a place inside is inside. -/
theorem Inside.below {b d : Dir} (h : Inside b d) (ns : List Name) : Inside b (d.below ns) := by
  obtain ⟨habs, hups, hpre, hne⟩ := h
  refine ⟨habs, hups, hpre.trans (List.prefix_append _ _), fun heq => hne ?_⟩
  apply hpre.eq_of_length_le
  rw [heq]
  simp [Dir.below]

theorem inside_below {b : Dir} {ns : List Name} (h : ns ≠ []) : Inside b (b.below ns) := by
  refine ⟨rfl, rfl, List.prefix_append _ _, fun heq => h ?_⟩
  exact List.self_eq_append_right.mp heq

/-- The last name does not matter: a place beside one inside is inside. -/
theorem Inside.beside {b d : Dir} {n : Name} (h : Inside b (d.below [n])) (m : Name) :
    Inside b (d.below [m]) := by
  obtain ⟨habs, hups, hpre, hne⟩ := h
  have hdir : b.names <+: d.names := (List.prefix_concat_iff.mp hpre).resolve_left hne
  refine ⟨habs, hups, hdir.trans (List.prefix_append _ _), fun heq => ?_⟩
  have hlen := hdir.length_le
  rw [heq, Dir.below, List.length_append, List.length_singleton] at hlen
  omega

/-- How a relative place stays below a base when it is entered `depth` names further down: it does
not go higher than the base, or it comes **back** by the names of the base that it has left; and not
to the base itself. -/
def Stays (b : Dir) (depth : ℕ) (t : Dir) : Prop :=
  let back := b.names.drop (b.names.length - (t.ups - depth))
  (b.abs ∨ t.ups ≤ depth + b.names.length) ∧ back <+: t.names ∧ (depth ≤ t.ups → back ≠ t.names)

instance (b : Dir) (depth : ℕ) (t : Dir) : Decidable (Stays b depth t) :=
  inferInstanceAs (Decidable (_ ∧ _ ∧ _))

/-- What stays below a base itself has a name left. -/
theorem Stays.names_ne_nil {b t : Dir} (h : Stays b 0 t) : t.names ≠ [] := by
  obtain ⟨-, hback, hne⟩ := h
  intro hnil
  rw [hnil] at hback hne
  exact hne (Nat.zero_le _) (List.prefix_nil.mp hback)

theorem prefix_take_append_iff (names ns : List Name) (m : ℕ) :
    names <+: names.take m ++ ns ↔ names.drop m <+: ns := by
  have hsplit := List.take_append_drop m names
  calc names <+: names.take m ++ ns
      ↔ names.take m ++ names.drop m <+: names.take m ++ ns := by rw [hsplit]
    _ ↔ names.drop m <+: ns := List.prefix_append_right_inj _

theorem eq_take_append_iff (names ns : List Name) (m : ℕ) :
    names = names.take m ++ ns ↔ names.drop m = ns := by
  have hsplit := List.take_append_drop m names
  calc names = names.take m ++ ns
      ↔ names.take m ++ names.drop m = names.take m ++ ns := by rw [hsplit]
    _ ↔ names.drop m = ns := List.append_right_inj _

/-- What is left of the names when a relative place is entered: with a name below the base left
over, the base is left whole. -/
theorem enter_below_names (b : Dir) (ns : List Name) (t : Dir) :
    ((b.below ns).enter t).names =
      if t.ups < ns.length then b.names ++ (ns.take (ns.length - t.ups) ++ t.names)
      else b.names.take (b.names.length - (t.ups - ns.length)) ++ t.names := by
  change (b.names ++ ns).take ((b.names ++ ns).length - t.ups) ++ t.names = _
  rw [List.length_append]
  split_ifs with hlt
  · have hcut : b.names.length + ns.length - t.ups =
      b.names.length + (ns.length - t.ups) := by omega
    rw [hcut, List.take_length_add_append, List.append_assoc]
  · have hcut : b.names.length + ns.length - t.ups =
      b.names.length - (t.ups - ns.length) := by omega
    rw [hcut, List.take_append_of_le_length (by omega)]

/-- **Staying inside** is read from the relative place. -/
theorem inside_enter_iff (b : Dir) (ns : List Name) (t : Dir) :
    Inside b ((b.below ns).enter t) ↔ Stays b ns.length t := by
  have hups : ((b.below ns).enter t).ups = b.ups ↔ b.abs ∨ t.ups ≤ ns.length + b.names.length := by
    cases habs : b.abs <;> simp [enter, Dir.below, habs, Nat.sub_eq_zero_iff_le, Nat.add_comm]
  have hnames :
      (b.names <+: ((b.below ns).enter t).names ∧ b.names ≠ ((b.below ns).enter t).names) ↔
      b.names.drop (b.names.length - (t.ups - ns.length)) <+: t.names ∧
        (ns.length ≤ t.ups → b.names.drop (b.names.length - (t.ups - ns.length)) ≠ t.names) := by
    rw [enter_below_names]
    split_ifs with hlt
    · -- nothing of the base has to come back, and a name below it stays
      have hzero : t.ups - ns.length = 0 := by omega
      have hleft : ns.take (ns.length - t.ups) ≠ [] := by
        rw [← List.length_pos_iff, List.length_take]
        omega
      simp [hzero, hleft, Nat.not_le.mpr hlt]
    · rw [prefix_take_append_iff, Ne, eq_take_append_iff]
      exact and_congr_right fun _ => ⟨fun h _ => h, fun h => h (Nat.not_lt.mp hlt)⟩
  have habs : ((b.below ns).enter t).abs = b.abs := rfl
  rw [Inside, hups, hnames]
  exact ⟨fun h => ⟨h.2.1, h.2.2⟩, fun h => ⟨habs, h.1, h.2⟩⟩

end Dir

/-! ## Joining -/

/-- Where a path leads. -/
def normalise (p : Path) : Dir := (Dir.mk (isAbsolute p) 0 []).follow (components p)

theorem slashed_cases (b : Path) : slashed b = [] ∨ ∃ front, slashed b = front ++ ['/'] := by
  unfold slashed
  split_ifs with h
  · rcases h with h | h
    · exact .inl h
    · exact .inr ⟨b.dropLast, (List.dropLast_append_getLast? '/' h).symm⟩
  · exact .inr ⟨b, rfl⟩

theorem components_separator (front p : Path) :
    components (front ++ '/' :: p) = components front ++ components p := by
  rw [components, List.splitOn_append_cons_self, List.filter_append]
  rfl

/-- Behind a separator a new component begins. -/
theorem components_append {b : Path} (hb : b = [] ∨ ∃ front, b = front ++ ['/']) (p : Path) :
    components (b ++ p) = components b ++ components p := by
  rcases hb with rfl | ⟨front, rfl⟩
  · rfl
  · rw [List.append_assoc, List.singleton_append, components_separator, components_separator]
    simp [components]

theorem components_slashed (b : Path) : components (slashed b) = components b := by
  unfold slashed
  split_ifs
  · rfl
  · rw [components_separator]
    simp [components]

theorem isAbsolute_append {b : Path} (hb : b ≠ []) (p : Path) :
    isAbsolute (b ++ p) = isAbsolute b := by
  rw [isAbsolute, isAbsolute, List.head?_append_of_ne_nil _ hb]

theorem slashed_ne_nil {b : Path} (hb : b ≠ []) : slashed b ≠ [] := by
  unfold slashed
  split_ifs
  · exact hb
  · exact List.append_ne_nil_of_right_ne_nil _ (List.cons_ne_nil _ _)

/-- The separator behind a whole is the one behind its end. -/
theorem slashed_append {b : Path} (hb : b = [] ∨ ∃ front, b = front ++ ['/']) (p : Path) :
    slashed (b ++ p) = b ++ slashed p := by
  by_cases hp : p = []
  · rcases hb with rfl | ⟨front, rfl⟩
    · rfl
    · simp [slashed, hp]
  · have hne := List.append_ne_nil_of_right_ne_nil b hp
    have hlast : (b ++ p).getLast? = p.getLast? := List.getLast?_append_of_ne_nil _ hp
    unfold slashed
    rw [hlast]
    simp only [hne, hp, false_or]
    split_ifs <;> simp

theorem isAbsolute_slashed (b : Path) : isAbsolute (slashed b) = isAbsolute b := by
  unfold slashed
  split_ifs with h
  · rfl
  · exact isAbsolute_append (fun hb => h (.inl hb)) _

theorem join_of_absolute {p : Path} (hp : isAbsolute p = true) (b : Path) : join b p = p :=
  if_pos hp

theorem join_of_relative {p : Path} (hp : isAbsolute p = false) (b : Path) :
    join b p = slashed b ++ p := by
  rw [join, hp]
  rfl

theorem isAbsolute_join {p : Path} (hp : isAbsolute p = false) (b : Path) :
    isAbsolute (join b p) = isAbsolute b := by
  rw [join_of_relative hp]
  by_cases hb : b = []
  · rw [hb]
    exact hp
  · rw [isAbsolute_append (slashed_ne_nil hb), isAbsolute_slashed]

theorem components_join {p : Path} (hp : isAbsolute p = false) (b : Path) :
    components (join b p) = components b ++ components p := by
  rw [join_of_relative hp, components_append (slashed_cases b), components_slashed]

/-- Joining is **associative**, as texts. -/
theorem join_assoc (b p q : Path) : join (join b p) q = join b (join p q) := by
  cases hq : isAbsolute q with
  | true => rw [join_of_absolute hq, join_of_absolute hq, join_of_absolute hq]
  | false =>
    cases hp : isAbsolute p with
    | true => rw [join_of_absolute hp, join_of_absolute ((isAbsolute_join hq p).trans hp)]
    | false =>
      rw [join_of_relative ((isAbsolute_join hq p).trans hp), join_of_relative hp,
        join_of_relative hq, join_of_relative hq, slashed_append (slashed_cases b),
        List.append_assoc]

theorem normalise_join {p : Path} (hp : isAbsolute p = false) (b : Path) :
    normalise (join b p) = (normalise b).enter (normalise p) := by
  have hnil : (normalise b).enter ⟨false, 0, []⟩ =
    normalise b := by rw [Dir.enter_names, Dir.below_nil]
  have hrelative : normalise p = (Dir.mk false 0 []).follow (components p) := by rw [normalise, hp]
  rw [hrelative, ← Dir.enter_follow _ rfl, hnil, normalise, isAbsolute_join hp, components_join hp,
    Dir.follow_append, normalise]

/-! ## Names -/

/-- A component that is a name: it does not lead nowhere and not back. -/
def IsName (n : Name) : Prop := '/' ∉ n ∧ n ≠ [] ∧ n ≠ ['.'] ∧ n ≠ ['.', '.']

instance (n : Name) : Decidable (IsName n) := inferInstanceAs (Decidable (_ ∧ _ ∧ _ ∧ _))

/-- A character other than the dot makes a name. -/
theorem IsName.of_mem {n : Name} {c : Char} (hslash : '/' ∉ n) (hc : c ∈ n) (hdot : c ≠ '.') :
    IsName n := by
  refine ⟨hslash, List.ne_nil_of_mem hc, ?_, ?_⟩ <;>
  · rintro rfl
    simp_all

/-- A name goes on as a name. -/
theorem IsName.append {n m : Name} (h : IsName n) (hm : '/' ∉ m) : IsName (n ++ m) := by
  obtain ⟨hslash, hne, hdot, hdots⟩ := h
  have hfront : ¬ n <+: ['.', '.'] := by
    intro hpre
    have hinits : n ∈ [[], ['.'], ['.', '.']] := (List.mem_inits n ['.', '.']).mpr hpre
    simp [hne, hdot, hdots] at hinits
  refine ⟨List.not_mem_append hslash hm, List.append_ne_nil_of_left_ne_nil hne m,
    fun heq => hfront ?_, fun heq => hfront ?_⟩
  · exact List.IsPrefix.trans ⟨m, heq⟩ ⟨['.'], rfl⟩
  · exact ⟨m, heq⟩

theorem isAbsolute_of_not_mem {p : Path} (h : '/' ∉ p) : isAbsolute p = false := by
  cases p with
  | nil => rfl
  | cons c p => exact decide_eq_false fun hc => h (by simp [Option.some.inj hc])

theorem components_name {n : Name} (h : IsName n) : components n = [n] := by
  have hsplit : n.splitOn '/' = [n] := List.splitOnP_eq_singleton fun c hc =>
    beq_false_of_ne fun heq => h.1 (heq ▸ hc)
  simp [components, hsplit, h.2.1, h.2.2.1]

theorem normalise_name {n : Name} (h : IsName n) : normalise n = ⟨false, 0, [n]⟩ := by
  rw [normalise, components_name h, isAbsolute_of_not_mem h.1]
  simp [Dir.follow, Dir.step, h.2.2.2]

/-- A name leads one level down. -/
theorem normalise_join_name {n : Name} (h : IsName n) (b : Path) :
    normalise (join b n) = (normalise b).below [n] := by
  rw [normalise_join (isAbsolute_of_not_mem h.1), normalise_name h, Dir.enter_names]

/-! ## Staying inside a base directory -/

/-- A text does not lead out of a base directory when it is joined to a place `depth` names below
it. -/
def Descends (base : Path) (depth : ℕ) (text : Path) : Prop :=
  if isAbsolute text then Dir.Inside (normalise base) (normalise text)
  else Dir.Stays (normalise base) depth (normalise text)

instance (base : Path) (depth : ℕ) (text : Path) : Decidable (Descends base depth text) :=
  inferInstanceAs (Decidable (if isAbsolute text then _ else _))

/-- **Containment** is read from the text that is joined. -/
theorem inside_join_iff {base dir : Path} {ns : List Name}
    (hdir : normalise dir = (normalise base).below ns) (text : Path) :
    Dir.Inside (normalise base) (normalise (join dir text)) ↔ Descends base ns.length text := by
  unfold Descends
  split_ifs with h
  · rw [join_of_absolute h]
  · rw [normalise_join (Bool.eq_false_iff.mpr h), hdir, Dir.inside_enter_iff]

-- a text may leave the base and come back by its name, but the base itself is not inside
example : Descends "./hls".toList 0 "../hls/cam".toList ∧
    ¬ Descends "./hls".toList 0 [] := by decide

theorem slashed_parent (p : Path) : slashed (parent p) = parent p := by
  apply if_pos
  by_cases hne : parent p = []
  · exact .inl hne
  · have hlast := List.rdropWhile_last_not _ _ hne
    refine .inr ?_
    rw [List.getLast?_eq_some_getLast hne]
    simpa [parent] using hlast

/-- What is beside a path in its parent is inside where the path is. -/
theorem inside_beside {base p : Path} {n : Name} {last : Char} (hp : p.getLast? = some last)
    (hslash : last ≠ '/') (hdot : last ≠ '.') (hn : IsName n)
    (h : Dir.Inside (normalise base) (normalise p)) :
    Dir.Inside (normalise base) (normalise (join (parent p) n)) := by
  -- the path is the last of its components in its parent
  obtain ⟨m, hm, hsplit⟩ : ∃ m, IsName m ∧ p = join (parent p) m := by
    refine ⟨p.rtakeWhile (· ≠ '/'), ?_, ?_⟩
    · obtain ⟨front, rfl⟩ := List.getLast?_eq_some_iff.mp hp
      refine .of_mem (fun hmem => ?_) ?_ hdot
      · simpa using List.mem_rtakeWhile_imp hmem
      · rw [List.rtakeWhile_concat_pos _ _ _ (by simpa using hslash)]
        exact List.mem_append_right _ (List.mem_singleton_self last)
    · have hrelative : '/' ∉ p.rtakeWhile (· ≠ '/') :=
        fun hmem => by simpa using List.mem_rtakeWhile_imp hmem
      rw [join_of_relative (isAbsolute_of_not_mem hrelative), slashed_parent, parent,
        List.rdropWhile_append_rtakeWhile]
  rw [hsplit, normalise_join_name hm] at h
  rw [normalise_join_name hn]
  exact h.beside n

end Paths
