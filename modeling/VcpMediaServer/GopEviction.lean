import VcpMediaServer.Eviction
import Mathlib.Data.List.DropRight

/-!
# What eviction leaves

A push that is over a limit first drops whole GOPs, oldest first, and leaves alone what
is stored **before** the first of them. Only when one GOP is left does it drop from the
front, up to the first key frame with a flag, or everything.

* `FrameRing.core` — what no turn on whole GOPs drops: the frames before the first GOP
  start and the newest GOP.
* `Listed` — the GOP starts of a ring are its key frames, but for an oldest one that may
  be gone.
* `GopTurns` — turns that drop whole GOPs.
* `push_cases` — what a push does: such turns, and then, **exactly if** the core does not
  fit and is more than one frame, a drop from the front.
-/

namespace VcpMediaServer

open FuelLoop

/-- `is_video_keyframe`, of a stored frame. -/
def StoredFrame.isVideoKeyframe (f : StoredFrame) : Bool :=
  VcpMediaServer.isVideoKeyframe f.toMediaFrame

/-- A key frame of the history, read off a stamped frame. -/
theorem isVideoKeyframe_of_stamped {fs : List MediaFrame} {s : StoredFrame} (h : s ∈ stamped fs) :
    s.isVideoKeyframe = true ↔ s.seq ∈ keySeqs fs := by
  have hs := stamped_getElem?_seq h
  rw [stamped_getElem?] at hs
  obtain ⟨f, hf, hfs⟩ := Option.map_eq_some_iff.mp hs
  rw [mem_keySeqs, hf, Option.any_some, ← hfs]
  rfl

namespace FrameRing

/-- The frame is stored before every GOP start. -/
def isLeading (r : FrameRing) (f : StoredFrame) : Bool := r.gopStarts.all fun s => f.seq < s

/-- The frame is of the newest GOP. -/
def inNewestGop (r : FrameRing) (f : StoredFrame) : Bool :=
  r.gopStarts.getLast?.any fun s => s ≤ f.seq

/-- The frames before the first GOP start. -/
def leading (r : FrameRing) : List StoredFrame := r.slots.filter r.isLeading

/-- The frames before the first GOP start and those of the newest GOP. -/
def core (r : FrameRing) : List StoredFrame :=
  r.slots.filter fun f => r.isLeading f || r.inNewestGop f

/-- The core is within the limits. -/
def CoreFits (r : FrameRing) : Prop :=
  r.core.length ≤ r.capacityFrames ∧ storedBytes r.core ≤ r.capacityBytes

instance (r : FrameRing) : Decidable r.CoreFits := inferInstanceAs (Decidable (_ ∧ _))

/-- The newest key frame is stored and carries its flag. -/
def newestKeyFlagged (r : FrameRing) : Bool :=
  r.slots.any fun f => f.isFlaggedKeyframe && r.gopStarts.getLast? == some f.seq

variable {r r' : FrameRing} {f : StoredFrame}

/-- Dropping the oldest of several GOPs. -/
theorem evictOldestGop_of_cons {start stop : ℕ} {gs : List ℕ}
    (hg : r.gopStarts = start :: stop :: gs) :
    r.evictOldestGop.gopStarts = stop :: gs ∧
      r.evictOldestGop.slots =
        r.slots.filter (fun f => !(decide (start ≤ f.seq) && decide (f.seq < stop))) ∧
      r.evictOldestGop.capacityFrames = r.capacityFrames ∧
      r.evictOldestGop.capacityBytes = r.capacityBytes ∧
      r.evictOldestGop.writeSeq = r.writeSeq := by
  rw [evictOldestGop, hg]
  exact ⟨rfl, rfl, rfl, rfl, rfl⟩

/-- The newest of several GOP starts is not the first. -/
theorem exists_getLast?_mem_tail (h : 1 < r.gopStarts.length) :
    ∃ s, r.gopStarts.getLast? = some s ∧ s ∈ r.gopStarts.tail := by
  rcases hg : r.gopStarts with _ | ⟨start, _ | ⟨stop, gs⟩⟩
  · rw [hg] at h
    simp at h
  · rw [hg] at h
    simp at h
  · rw [List.getLast?_cons_cons, List.tail_cons]
    exact ⟨_, List.getLast?_eq_some_getLast (List.cons_ne_nil stop gs),
      List.getLast_mem (List.cons_ne_nil stop gs)⟩

/-- The limits decide by the slots and their bytes. -/
theorem needsEvict_eq_false_iff : r.needsEvict = false ↔
    r.slots.length ≤ r.capacityFrames ∧ r.bytesUsed ≤ r.capacityBytes := by
  simp [needsEvict]

end FrameRing

open FrameRing

/-- A part of some frames has no more bytes than they have. -/
theorem storedBytes_le_of_sublist {l l' : List StoredFrame} (h : l.Sublist l') :
    storedBytes l ≤ storedBytes l' := by
  induction h with
  | slnil => exact le_rfl
  | cons f _ ih =>
    rw [storedBytes_cons]
    omega
  | cons_cons f _ ih =>
    rw [storedBytes_cons, storedBytes_cons]
    omega

/-! ## The GOP starts -/

/-- The GOP starts of a ring are its key frames, in which the oldest start may be gone:
what drops everything from the front leaves it behind. -/
structure Listed (r : FrameRing) : Prop where
  /-- Every stored key frame is listed. -/
  listed : ∀ f ∈ r.slots, f.isVideoKeyframe = true → f.seq ∈ r.gopStarts
  /-- Every GOP start but the first is stored. -/
  stored : ∀ s ∈ r.gopStarts.tail, ∃ f ∈ r.slots, f.seq = s

namespace Listed

variable {fs : List MediaFrame} {r r' : FrameRing} {f : MediaFrame}

theorem withCapacity (cf cb : ℕ) : Listed (FrameRing.withCapacity cf cb) where
  listed := nofun
  stored := nofun

/-- Appending a frame keeps the list. -/
theorem append (h : Listed r) (f : MediaFrame) : Listed (r.append f) where
  listed := by
    change ∀ g ∈ r.slots ++ [StoredFrame.ofMediaFrame r.writeSeq f], _ →
      g.seq ∈ if isVideoKeyframe f then r.gopStarts ++ [r.writeSeq] else r.gopStarts
    intro g hg hkey
    rcases List.mem_append.mp hg with hg | hg
    · split
      · exact List.mem_append_left _ (h.listed g hg hkey)
      · exact h.listed g hg hkey
    · obtain rfl := List.mem_singleton.mp hg
      have hkey : isVideoKeyframe f = true := hkey
      rw [if_pos hkey]
      exact List.mem_append_right _ (List.mem_singleton_self _)
  stored := by
    change ∀ s ∈ (if isVideoKeyframe f then r.gopStarts ++ [r.writeSeq] else r.gopStarts).tail,
      ∃ g ∈ r.slots ++ [StoredFrame.ofMediaFrame r.writeSeq f], g.seq = s
    intro s hs
    have hold : s ∈ r.gopStarts.tail →
        ∃ g ∈ r.slots ++ [StoredFrame.ofMediaFrame r.writeSeq f], g.seq = s := by
      intro hs
      obtain ⟨g, hg, hseq⟩ := h.stored s hs
      exact ⟨g, List.mem_append_left _ hg, hseq⟩
    split at hs
    · rcases hg : r.gopStarts with _ | ⟨start, gs⟩
      · rw [hg] at hs
        cases hs
      · rw [hg, List.cons_append, List.tail_cons] at hs
        rcases List.mem_append.mp hs with hs | hs
        · exact hold (by rw [hg]; exact hs)
        · obtain rfl := List.mem_singleton.mp hs
          exact ⟨_, List.mem_append_right _ (List.mem_singleton_self _), rfl⟩
    · exact hold hs

/-- Dropping the oldest of several GOPs keeps the list. -/
theorem evictOldestGop (h : Listed r) (hinv : RingInv fs r) (hgop : 1 < r.gopStarts.length) :
    Listed r.evictOldestGop := by
  rcases hg : r.gopStarts with _ | ⟨start, _ | ⟨stop, gs⟩⟩
  · rw [hg] at hgop
    simp at hgop
  · rw [hg] at hgop
    simp at hgop
  obtain ⟨hstarts, hslots, -⟩ := evictOldestGop_of_cons hg
  have hsorted := (keySeqs_pairwise fs).sublist hinv.gopStarts_suffix.sublist
  rw [hg] at hsorted
  constructor
  · intro f hf hkey
    rw [hslots] at hf
    obtain ⟨hf, hkeep⟩ := List.mem_filter.mp hf
    have hmem := h.listed f hf hkey
    rw [hg] at hmem
    rw [hstarts]
    rcases List.mem_cons.mp hmem with heq | hmem
    · -- the start of the dropped GOP is dropped
      have hlt := (List.pairwise_cons.mp hsorted).1 stop List.mem_cons_self
      simp [heq, hlt] at hkeep
    · exact hmem
  · intro s hs
    rw [hstarts, List.tail_cons] at hs
    obtain ⟨f, hf, hseq⟩ := h.stored s (by rw [hg]; exact List.mem_cons_of_mem _ hs)
    refine ⟨f, ?_, hseq⟩
    rw [hslots]
    have hlt := (List.pairwise_cons.mp (List.pairwise_cons.mp hsorted).2).1 s hs
    refine List.mem_filter.mpr ⟨hf, ?_⟩
    simp
    omega

/-- Dropping the front keeps the list. -/
theorem evictFront (h : Listed r) (hgop : r.gopStarts.length ≤ 1) :
    Listed r.evictFrontUntilKeyframeOrEmpty where
  listed f hf := h.listed f ((List.dropWhile_sublist _).subset hf)
  stored s hs := by
    change s ∈ r.gopStarts.tail at hs
    rcases hg : r.gopStarts with _ | ⟨start, _ | ⟨stop, gs⟩⟩
    · rw [hg] at hs
      cases hs
    · rw [hg] at hs
      cases hs
    · rw [hg] at hgop
      simp at hgop

/-- A turn of the eviction loop keeps the list. -/
theorem evictStep (h : Listed r) (hinv : RingInv fs r) (hs : r.evictStep = some r') :
    Listed r' := by
  obtain ⟨-, ⟨hgop, rfl⟩ | ⟨hgop, -, rfl⟩⟩ := evictStep_cases hs
  · exact h.evictOldestGop hinv hgop
  · exact h.evictFront hgop

/-- A push that returns keeps the list. -/
theorem push (h : Listed r) (hinv : RingInv fs r) (hp : r.push f = some r') : Listed r' :=
  (run_inv (I := fun r => RingInv (fs ++ [f]) r ∧ Listed r)
    (fun _ _ hi hs => ⟨hi.1.evictStep hs, hi.2.evictStep hi.1 hs⟩)
    ⟨hinv.append f, h.append f⟩ hp).1.2

end Listed

/-! ## Turns on whole GOPs -/

/-- Turns that drop whole GOPs lead from `a` to `r`. -/
inductive GopTurns (a : FrameRing) : FrameRing → Prop
  | refl : GopTurns a a
  | tail {r : FrameRing} (turns : GopTurns a r) (needs : r.needsEvict = true)
      (gops : 1 < r.gopStarts.length) : GopTurns a r.evictOldestGop

namespace GopTurns

variable {fs : List MediaFrame} {a r : FrameRing}

/-- What the turns leave: the frames before the first GOP start, and those from the
oldest GOP start that is left. -/
structure Leaves (a r : FrameRing) : Prop where
  capacityFrames : r.capacityFrames = a.capacityFrames
  capacityBytes : r.capacityBytes = a.capacityBytes
  writeSeq : r.writeSeq = a.writeSeq
  /-- Some of the GOP starts are left. -/
  starts : ∃ gone, a.gopStarts = gone ++ r.gopStarts ∧ (r.gopStarts = [] → gone = [])
  slots : r.slots = a.slots.filter fun f => a.isLeading f || r.gopStarts.head?.any (· ≤ f.seq)

/-- Without a turn everything is left. -/
theorem Leaves.refl (hinv : RingInv fs a) : Leaves a a where
  capacityFrames := rfl
  capacityBytes := rfl
  writeSeq := rfl
  starts := ⟨[], rfl, fun _ => rfl⟩
  slots := by
    refine (List.filter_eq_self.mpr fun f _ => ?_).symm
    have hsorted := (keySeqs_pairwise fs).sublist hinv.gopStarts_suffix.sublist
    rcases hg : a.gopStarts with _ | ⟨s, gs⟩
    · simp [isLeading, hg]
    · rw [hg] at hsorted
      by_cases hlt : f.seq < s
      · have hall : ∀ s' ∈ gs, f.seq < s' := fun s' hs' =>
          hlt.trans ((List.pairwise_cons.mp hsorted).1 s' hs')
        simpa [isLeading, hg, hlt] using Or.inl hall
      · simp [Nat.le_of_not_lt hlt]

/-- A turn more leaves **less of the GOPs**, and the frames before them. -/
theorem Leaves.evictOldestGop (h : Leaves a r) (hinv : RingInv fs a)
    (hgop : 1 < r.gopStarts.length) : Leaves a r.evictOldestGop := by
  rcases hg : r.gopStarts with _ | ⟨start, _ | ⟨stop, gs⟩⟩
  · rw [hg] at hgop
    simp at hgop
  · rw [hg] at hgop
    simp at hgop
  obtain ⟨hstarts, hslots, hcf, hcb, hws⟩ := evictOldestGop_of_cons hg
  obtain ⟨gone, hgone, -⟩ := h.starts
  have hsorted := (keySeqs_pairwise fs).sublist hinv.gopStarts_suffix.sublist
  rw [hgone, hg] at hsorted
  have hlt : start < stop := by
    have htail := (List.pairwise_append.mp hsorted).2.1
    exact (List.pairwise_cons.mp htail).1 stop List.mem_cons_self
  refine ⟨hcf.trans h.capacityFrames, hcb.trans h.capacityBytes, hws.trans h.writeSeq,
    ⟨gone ++ [start], by rw [hstarts, hgone, hg]; simp, by rw [hstarts]; nofun⟩, ?_⟩
  rw [hslots, h.slots, hg, hstarts, List.filter_filter]
  refine List.filter_congr fun f _ => ?_
  rcases hl : a.isLeading f with _ | _
  · simp only [Bool.false_or, List.head?_cons, Option.any_some]
    by_cases hs : stop ≤ f.seq
    · simp [hs, hlt.le.trans hs, Nat.not_lt.mpr hs]
    · by_cases hs' : start ≤ f.seq <;> simp [hs, hs', Nat.lt_of_not_le hs]
  · -- a frame before every GOP start is before the one dropped
    have hbefore : f.seq < start := by
      simp only [isLeading, List.all_eq_true, decide_eq_true_eq] at hl
      exact hl start (by rw [hgone, hg]; simp)
    simp [Nat.not_le.mpr hbefore]

theorem leaves (h : GopTurns a r) (hinv : RingInv fs a) : Leaves a r := by
  induction h with
  | refl => exact .refl hinv
  | tail _ _ gops ih => exact ih.evictOldestGop hinv gops

theorem ringInv (h : GopTurns a r) (hinv : RingInv fs a) : RingInv fs r := by
  induction h with
  | refl => exact hinv
  | tail _ _ gops ih => exact ih.evictOldestGop gops

theorem listed (h : GopTurns a r) (hinv : RingInv fs a) (hlisted : Listed a) : Listed r := by
  induction h with
  | refl => exact hlisted
  | tail turns _ gops ih => exact ih.evictOldestGop (turns.ringInv hinv) gops

/-- Turns were taken, or not. -/
theorem eq_or_length_lt (h : GopTurns a r) :
    r = a ∨ (a.needsEvict = true ∧ r.gopStarts.length < a.gopStarts.length) := by
  induction h with
  | refl => exact .inl rfl
  | tail turns needs gops ih =>
    next r =>
    right
    have hlt : r.evictOldestGop.gopStarts.length < r.gopStarts.length := by
      rcases hg : r.gopStarts with _ | ⟨start, _ | ⟨stop, gs⟩⟩
      · rw [hg] at gops
        simp at gops
      · rw [hg] at gops
        simp at gops
      · rw [(evictOldestGop_of_cons hg).1]
        exact Nat.lt_succ_self _
    rcases ih with rfl | ⟨hover, hle⟩
    · exact ⟨needs, hlt⟩
    · exact ⟨hover, hlt.trans hle⟩

/-- Turns are taken where **several** GOP starts are known. -/
theorem one_lt_of_length_lt (h : GopTurns a r) (hinv : RingInv fs a)
    (hlt : r.gopStarts.length < a.gopStarts.length) : 1 < a.gopStarts.length := by
  obtain ⟨gone, hgone, hnil⟩ := (h.leaves hinv).starts
  rcases hr : r.gopStarts with _ | ⟨s, gs⟩
  · rw [hgone, hr, hnil hr] at hlt
    simp at hlt
  · rw [hr, List.length_cons] at hlt
    omega

/-- The core is left by every turn. -/
theorem Leaves.core_sublist (h : Leaves a r) (hinv : RingInv fs a) : a.core.Sublist r.slots := by
  have hsorted := (keySeqs_pairwise fs).sublist hinv.gopStarts_suffix.sublist
  obtain ⟨gone, hgone, hnil⟩ := h.starts
  rw [h.slots, FrameRing.core]
  refine List.monotone_filter_right _ fun f hf => ?_
  rw [Bool.or_eq_true] at hf ⊢
  refine hf.imp_right fun hf => ?_
  obtain ⟨s, hs, hle⟩ := (Option.any_eq_true _ _).mp hf
  rcases hr : r.gopStarts with _ | ⟨start, gs⟩
  · rw [hgone, hr, hnil hr] at hs
    cases hs
  · -- the oldest GOP start that is left is at most the newest one
    rw [hgone, hr] at hs hsorted
    rw [List.getLast?_append_of_ne_nil _ (List.cons_ne_nil start gs)] at hs
    have hstart : start ≤ s := by
      rcases List.mem_cons.mp (List.mem_of_getLast? hs) with rfl | hmem
      · exact le_rfl
      · exact ((List.pairwise_cons.mp (List.pairwise_append.mp hsorted).2.1).1 s hmem).le
    simpa using hstart.trans (by simpa using hle)

/-- Where the turns have left one GOP, they have left the **core**. -/
theorem Leaves.slots_eq_core (h : Leaves a r) (hgop : r.gopStarts.length ≤ 1) :
    r.slots = a.core := by
  obtain ⟨gone, hgone, hnil⟩ := h.starts
  rw [h.slots, FrameRing.core]
  refine List.filter_congr fun f _ => ?_
  rcases hr : r.gopStarts with _ | ⟨start, _ | ⟨stop, gs⟩⟩
  · rw [hr, hnil hr] at hgone
    simp [isLeading, inNewestGop, hgone]
  · rw [hr] at hgone
    simp [inNewestGop, hgone]
  · rw [hr] at hgop
    simp at hgop

end GopTurns

/-! ## A push -/

section Push

variable {fs : List MediaFrame} {a r r' : FrameRing}

/-- After a drop from the front the loop is left, or **never**. -/
theorem run_evictFront {n : ℕ} (hgop : r.gopStarts.length ≤ 1)
    (h : run evictStep n r.evictFrontUntilKeyframeOrEmpty = some r') :
    r' = r.evictFrontUntilKeyframeOrEmpty := by
  rcases hs : r.evictFrontUntilKeyframeOrEmpty.evictStep with _ | r₂
  · cases n with
    | zero => cases h
    | succ n =>
      rw [run_succ_none hs] at h
      exact (Option.some.inj h).symm
  · -- another turn would drop from the front again, and there is nothing to drop
    exfalso
    obtain ⟨-, ⟨hlt, -⟩ | ⟨-, -, rfl⟩⟩ := evictStep_cases hs
    · change 1 < r.gopStarts.length at hlt
      omega
    · rcases evictStep_shrinks_or_eq hs with hlt | heq
      · rw [evictSize, evictSize] at hlt
        change ((r.slots.dropWhile _).dropWhile _).length + _ <
          (r.slots.dropWhile _).length + _ at hlt
        rw [List.dropWhile_idempotent] at hlt
        exact lt_irrefl _ hlt
      · rw [heq] at hs
        exact not_halts_of_fixed hs ⟨n, r', h⟩

/-- Where the loop is left. -/
theorem evictStep_eq_none_iff : r.evictStep = none ↔
    r.needsEvict = false ∨ (r.gopStarts.length ≤ 1 ∧ r.slots.length ≤ 1) := by
  rw [FrameRing.evictStep]
  rcases hn : r.needsEvict with _ | _
  · simp
  · by_cases hg : MIN_GOPS_RETAINED < r.gopStarts.length
    · have hg' : ¬ r.gopStarts.length ≤ 1 := Nat.not_le.mpr hg
      simp [hg, hg']
    · have hg' : r.gopStarts.length ≤ 1 := Nat.le_of_not_lt hg
      simp [hg, hg']

/-- What the eviction loop does, if it is left: turns on whole GOPs, and then at most
**one** drop from the front. -/
theorem run_evictStep_cases {r₀ : FrameRing} (hturns : GopTurns a r₀) {n : ℕ}
    (h : run evictStep n r₀ = some r') :
    ∃ r, GopTurns a r ∧ ((r' = r ∧ r.evictStep = none) ∨
      (r.needsEvict = true ∧ r.gopStarts.length ≤ 1 ∧ 1 < r.slots.length ∧
        r' = r.evictFrontUntilKeyframeOrEmpty)) := by
  induction n generalizing r₀ with
  | zero => cases h
  | succ n ih =>
    rcases hs : r₀.evictStep with _ | r₁
    · rw [run_succ_none hs] at h
      obtain rfl := Option.some.inj h
      exact ⟨r₀, hturns, .inl ⟨rfl, hs⟩⟩
    · rw [run_succ_some hs] at h
      obtain ⟨hover, ⟨hgop, rfl⟩ | ⟨hgop, hlen, rfl⟩⟩ := evictStep_cases hs
      · exact ih (hturns.tail hover hgop) h
      · exact ⟨r₀, hturns, .inr ⟨hover, hgop, hlen, run_evictFront hgop h⟩⟩

/-- Where one GOP is left, the limits decide by the **core**. -/
theorem needsEvict_iff_of_leaves (h : GopTurns.Leaves a r) (hinv : RingInv fs r)
    (hgop : r.gopStarts.length ≤ 1) : r.needsEvict = false ↔ a.CoreFits := by
  rw [needsEvict_eq_false_iff, hinv.bytesUsed_eq, h.slots_eq_core hgop, h.capacityFrames,
    h.capacityBytes]
  rfl

/-- What a push does that returns: turns on whole GOPs, if the core fits or is a single
frame, and otherwise these and **a drop from the front**. -/
theorem push_cases {f : MediaFrame} (hinv : RingInv fs r) (h : r.push f = some r') :
    ∃ r₁, GopTurns (r.append f) r₁ ∧
      ((r' = r₁ ∧ r₁.evictStep = none ∧
          ((r.append f).CoreFits ∨ (r.append f).core.length ≤ 1)) ∨
        (¬ (r.append f).CoreFits ∧ 1 < (r.append f).core.length ∧ r₁.gopStarts.length ≤ 1 ∧
          r' = r₁.evictFrontUntilKeyframeOrEmpty)) := by
  obtain ⟨r₁, hturns, hcases⟩ := run_evictStep_cases .refl h
  have hinv₀ := hinv.append f
  have hleaves := hturns.leaves hinv₀
  have hinv₁ := hturns.ringInv hinv₀
  refine ⟨r₁, hturns, ?_⟩
  rcases hcases with ⟨rfl, hstop⟩ | ⟨hover, hgop, hlen, rfl⟩
  · refine .inl ⟨rfl, hstop, ?_⟩
    rcases evictStep_eq_none_iff.mp hstop with hfits | ⟨hgop, hlen⟩
    · -- what is left fits, and the core is a part of it
      left
      have hsub := hleaves.core_sublist hinv₀
      obtain ⟨hframes, hbytes⟩ := needsEvict_eq_false_iff.mp hfits
      rw [hinv₁.bytesUsed_eq, hleaves.capacityBytes] at hbytes
      rw [hleaves.capacityFrames] at hframes
      exact ⟨hsub.length_le.trans hframes, (storedBytes_le_of_sublist hsub).trans hbytes⟩
    · rw [← hleaves.slots_eq_core hgop]
      exact .inr hlen
  · refine .inr ⟨?_, ?_, hgop, rfl⟩
    · intro hfits
      rw [(needsEvict_iff_of_leaves hleaves hinv₁ hgop).mpr hfits] at hover
      cases hover
    · rwa [← hleaves.slots_eq_core hgop]

/-- The newest key frame, read off the history. -/
theorem newestKeyFlagged_eq (hinv : RingInv fs r) :
    r.newestKeyFlagged = flaggedAt fs (newestKey fs) := by
  have hlast := hinv.getLast?_gopStarts
  rw [Bool.eq_iff_iff, newestKeyFlagged, List.any_eq_true]
  constructor
  · rintro ⟨f, hf, hff⟩
    obtain ⟨hflag, hseq⟩ := Bool.and_eq_true_iff.mp hff
    have hkey : newestKey fs = f.seq := by
      rw [newestKey, ← hlast, beq_iff_eq.mp hseq, Option.getD_some]
    rwa [hkey, ← isFlaggedKeyframe_of_stamped (hinv.mem_stamped hf)]
  · intro hflag
    obtain ⟨pre, t, hslots, -, -, -, -, ht⟩ := hinv.tail
    obtain rfl := ht hflag
    have hlt : newestKey fs < (stamped fs).length := by
      rw [stamped_length]
      exact lt_of_mem_keySeqs (mem_keySeqs_of_flaggedAt hflag)
    have hget := List.getElem?_eq_getElem hlt
    have hseq := seq_of_stamped_getElem? hget
    refine ⟨(stamped fs)[newestKey fs], ?_, ?_⟩
    · rw [hslots]
      exact List.mem_append_right _ (mem_stamped_drop.mpr ⟨List.getElem_mem hlt, hseq.ge⟩)
    · rw [isFlaggedKeyframe_of_stamped (List.getElem_mem hlt), hseq, hflag, hlast]
      obtain ⟨l, k, hk⟩ := (List.eq_nil_or_concat' (keySeqs fs)).resolve_left
        (keySeqs_ne_nil_of_flaggedAt hflag)
      rw [newestKey, hk]
      simp

/-- A drop from the front leaves the newest GOP, if its key frame is flagged, and
**nothing** if it is not. -/
theorem slots_evictFront (hinv : RingInv fs r) (hgop : r.gopStarts.length ≤ 1) :
    r.evictFrontUntilKeyframeOrEmpty.slots =
      if r.newestKeyFlagged then (stamped fs).drop (newestKey fs) else [] := by
  rw [newestKeyFlagged_eq hinv]
  exact hinv.dropWhile_slots hgop

/-- Turns on whole GOPs leave the newest key frame as it is. -/
theorem GopTurns.newestKeyFlagged (h : GopTurns a r) (hinv : RingInv fs a) :
    r.newestKeyFlagged = a.newestKeyFlagged := by
  rw [newestKeyFlagged_eq (h.ringInv hinv), newestKeyFlagged_eq hinv]

end Push

end VcpMediaServer
