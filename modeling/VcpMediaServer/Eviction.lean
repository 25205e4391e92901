import VcpMediaServer.RingInvariant
import Mathlib.Logic.Relation

/-!
# Termination of eviction

The loop of `evict_if_needed` drops the oldest group of pictures (GOP) while it
knows of several, and everything in front of the first flagged key frame when it
knows of one. The second turn shrinks nothing when that key frame is already in
front, so the loop **spins** on a single flagged GOP that is over a limit.

* `NewestGopFits` — the condition on a history under which a push returns.
* `halts_evictStep_iff` — exactly then is the loop left.
* `turnsShrink_iff_halts` — exactly then does every turn shrink the ring.
* `exec_push_isSome_iff`, `push_returns_iff` — the same along every run of pushes.
-/

namespace VcpMediaServer

open FrameRing FuelLoop Lts

/-- The newest GOP of a history: its frames from the newest key frame on. Empty
if the history has no key frame. -/
def newestGop (fs : List MediaFrame) : List MediaFrame :=
  match (keySeqs fs).getLast? with
  | none => []
  | some k => fs.drop k

/-- The bytes of the payloads of a history. -/
def mediaBytes (fs : List MediaFrame) : ℕ := (fs.map fun f => f.data.length).sum

/-- The newest GOP of the history **can be held** within the limits, or need not
be: it is a single frame, or its key frame has no flag and eviction drops it with
everything else. -/
def NewestGopFits (capacityFrames capacityBytes : ℕ) (fs : List MediaFrame) : Prop :=
  let gop := newestGop fs
  gop.length ≤ 1 ∨ (gop.head?.any MediaFrame.isFlaggedKeyframe) = false ∨
    (gop.length ≤ capacityFrames ∧ mediaBytes gop ≤ capacityBytes)

instance (cf cb : ℕ) (fs : List MediaFrame) : Decidable (NewestGopFits cf cb fs) := by
  unfold NewestGopFits
  infer_instance

/-! ## The turns of the loop -/

/-- The **measure** of the loop: the frames and the GOP starts it has left. -/
def evictSize (r : FrameRing) : ℕ := r.slots.length + r.gopStarts.length

/-- What a turn of the loop can be. -/
theorem evictStep_cases {r r' : FrameRing} (h : r.evictStep = some r') :
    r.needsEvict = true ∧
      ((1 < r.gopStarts.length ∧ r' = r.evictOldestGop) ∨
        (r.gopStarts.length ≤ 1 ∧ 1 < r.slots.length ∧
          r' = r.evictFrontUntilKeyframeOrEmpty)) := by
  rw [FrameRing.evictStep] at h
  split at h
  · next hover =>
    refine ⟨hover, ?_⟩
    split at h
    · next hgop => exact .inl ⟨hgop, (Option.some.inj h).symm⟩
    · next hgop =>
      split at h
      · next hlen => exact .inr ⟨Nat.le_of_not_lt hgop, hlen, (Option.some.inj h).symm⟩
      · cases h
  · cases h

/-- A turn of the loop leaves the limits alone. -/
theorem evictStep_capacity {r r' : FrameRing} (h : r.evictStep = some r') :
    r'.capacityFrames = r.capacityFrames ∧ r'.capacityBytes = r.capacityBytes := by
  obtain ⟨-, ⟨-, rfl⟩ | ⟨-, -, rfl⟩⟩ := evictStep_cases h
  · rw [evictOldestGop]
    split <;> exact ⟨rfl, rfl⟩
  · exact ⟨rfl, rfl⟩

/-- A turn of the loop leaves the number to come alone. -/
theorem evictStep_writeSeq {r r' : FrameRing} (h : r.evictStep = some r') :
    r'.writeSeq = r.writeSeq := by
  obtain ⟨-, ⟨-, rfl⟩ | ⟨-, -, rfl⟩⟩ := evictStep_cases h
  · rw [evictOldestGop]
    split <;> rfl
  · rfl

/-- Dropping the oldest GOP shrinks the ring. -/
theorem evictSize_evictOldestGop {r : FrameRing} (h : 1 < r.gopStarts.length) :
    evictSize r.evictOldestGop < evictSize r := by
  rcases hg : r.gopStarts with _ | ⟨start, gs⟩
  · rw [hg] at h
    simp at h
  · have hslots : r.evictOldestGop.slots.length ≤ r.slots.length := by
      rw [evictOldestGop, hg]
      exact List.length_filter_le _ _
    have hgops : r.evictOldestGop.gopStarts = gs := by
      rw [evictOldestGop, hg]
      rfl
    rw [evictSize, evictSize, hgops, hg, List.length_cons]
    omega

/-- Dropping the front shrinks the ring, or **changes nothing** because a flagged
key frame is in front. -/
theorem evictFront_shrinks_or_eq (r : FrameRing) :
    evictSize r.evictFrontUntilKeyframeOrEmpty < evictSize r ∨
      ((r.slots.head?.any StoredFrame.isFlaggedKeyframe) = true ∧
        r.evictFrontUntilKeyframeOrEmpty = r) ∨ r.slots = [] := by
  rcases hs : r.slots with _ | ⟨f, l⟩
  · exact .inr (.inr rfl)
  · rcases hf : f.isFlaggedKeyframe with _ | _
    · refine .inl ?_
      have hle := (List.dropWhile_sublist (fun g : StoredFrame => !g.isFlaggedKeyframe)
        (l := l)).length_le
      rw [evictSize, evictSize]
      change (r.slots.dropWhile _).length + r.gopStarts.length < _
      rw [hs, List.dropWhile_cons_of_pos (by simp [hf]), List.length_cons]
      omega
    · refine .inr (.inl ⟨by simp [hf], ?_⟩)
      have hdrop : (f :: l).dropWhile (fun g => !g.isFlaggedKeyframe) = f :: l :=
        List.dropWhile_cons_of_neg (by simp [hf])
      have htake : (f :: l).takeWhile (fun g => !g.isFlaggedKeyframe) = [] :=
        List.takeWhile_cons_of_neg (by simp [hf])
      rw [evictFrontUntilKeyframeOrEmpty, hs, hdrop, htake, ← hs]
      rfl

/-- A turn either **shrinks** the ring or **changes nothing**. -/
theorem evictStep_shrinks_or_eq {r r' : FrameRing} (h : r.evictStep = some r') :
    evictSize r' < evictSize r ∨ r' = r := by
  obtain ⟨-, ⟨hgop, rfl⟩ | ⟨-, hlen, rfl⟩⟩ := evictStep_cases h
  · exact .inl (evictSize_evictOldestGop hgop)
  · obtain hlt | ⟨-, heq⟩ | hnil := evictFront_shrinks_or_eq r
    · exact .inl hlt
    · exact .inr heq
    · rw [hnil] at hlen
      simp at hlen

/-- The **fuel suffices**: the model's push answers whenever the source's loop
ends. -/
theorem evictIfNeeded_isSome_iff (r : FrameRing) :
    r.evictIfNeeded.isSome ↔ Halts evictStep r :=
  run_bound_isSome_iff (fun _ _ h => evictStep_shrinks_or_eq h) (Nat.lt_succ_self _)

/-- Every turn that the loop takes from `r` on strictly shrinks the slots or the
GOP starts, and lets neither grow. -/
def TurnsShrink (r : FrameRing) : Prop :=
  ∀ s, Relation.ReflTransGen (fun a b => evictStep a = some b) r s →
    ∀ s', evictStep s = some s' →
      s'.slots.length ≤ s.slots.length ∧ s'.gopStarts.length ≤ s.gopStarts.length ∧
        (s'.slots.length < s.slots.length ∨ s'.gopStarts.length < s.gopStarts.length)

/-- Halting is the same from every state that the loop gets to. -/
theorem halts_of_reached {r s : FrameRing}
    (h : Relation.ReflTransGen (fun a b => evictStep a = some b) r s) :
    Halts evictStep r ↔ Halts evictStep s := by
  induction h with
  | refl => exact Iff.rfl
  | tail _ hstep ih => exact ih.trans (halts_iff_of_step hstep)

/-- No turn lets the slots or the GOP starts grow. -/
theorem evictStep_length_le {r r' : FrameRing} (h : r.evictStep = some r') :
    r'.slots.length ≤ r.slots.length ∧ r'.gopStarts.length ≤ r.gopStarts.length := by
  obtain ⟨-, ⟨-, rfl⟩ | ⟨-, -, rfl⟩⟩ := evictStep_cases h
  · rcases hg : r.gopStarts with _ | ⟨start, gs⟩
    · rw [evictOldestGop, hg]
      exact ⟨le_rfl, by rw [hg]⟩
    · rw [evictOldestGop, hg]
      exact ⟨List.length_filter_le _ _, Nat.le_succ _⟩
  · exact ⟨(List.dropWhile_sublist _).length_le, le_rfl⟩

/-- The loop is left **exactly if** every turn it takes shrinks the ring. -/
theorem turnsShrink_iff_halts (r : FrameRing) : TurnsShrink r ↔ Halts evictStep r := by
  constructor
  · intro h
    refine halts_of_measure (I := fun s => Relation.ReflTransGen
      (fun a b => evictStep a = some b) r s) (μ := evictSize) (fun s s' hs hstep => ?_)
      Relation.ReflTransGen.refl
    obtain ⟨hsl, hgl, hlt⟩ := h s hs s' hstep
    refine ⟨hs.tail hstep, ?_⟩
    rw [evictSize, evictSize]
    omega
  · intro h s hs s' hstep
    obtain ⟨hsl, hgl⟩ := evictStep_length_le hstep
    refine ⟨hsl, hgl, ?_⟩
    rcases evictStep_shrinks_or_eq hstep with hlt | rfl
    · rw [evictSize, evictSize] at hlt
      omega
    · exact absurd ((halts_of_reached hs).mp h) (not_halts_of_fixed hstep)

/-! ## When the loop ends -/

/-- The bytes of a stamped history. -/
theorem storedBytes_stamped_drop (fs : List MediaFrame) (k : ℕ) :
    storedBytes ((stamped fs).drop k) = mediaBytes (fs.drop k) := by
  have hmap : (stamped fs).map (fun f => f.data.length) = fs.map fun f => f.data.length := by
    refine List.ext_getElem? fun i => ?_
    rw [List.getElem?_map, stamped_getElem?, Option.map_map, List.getElem?_map]
    rfl
  rw [storedBytes, mediaBytes, List.map_drop, hmap, List.map_drop]

/-- The newest GOP of a history with a key frame. -/
theorem newestGop_of_keySeqs {fs : List MediaFrame} (h : keySeqs fs ≠ []) :
    newestGop fs = fs.drop (newestKey fs) := by
  rw [newestGop, newestKey]
  rcases hk : (keySeqs fs).getLast? with _ | k
  · exact absurd (List.getLast?_eq_none_iff.mp hk) h
  · rfl

/-- The head of the newest GOP is flagged exactly if the newest key frame is. -/
theorem newestGop_head?_flagged (fs : List MediaFrame) :
    (newestGop fs).head?.any MediaFrame.isFlaggedKeyframe = flaggedAt fs (newestKey fs) := by
  by_cases hk : keySeqs fs = []
  · rcases hf : flaggedAt fs (newestKey fs) with _ | _
    · rw [newestGop, hk]
      rfl
    · exact absurd hk (keySeqs_ne_nil_of_flaggedAt hf)
  · rw [newestGop_of_keySeqs hk, List.head?_drop, flaggedAt]

/-- A flagged newest GOP that does not fit **keeps the loop spinning**. -/
theorem evictStep_ne_none_of_not_fits {fs : List MediaFrame} {r : FrameRing} (h : RingInv fs r)
    (hfit : ¬ NewestGopFits r.capacityFrames r.capacityBytes fs) :
    ∃ r', r.evictStep = some r' := by
  rw [NewestGopFits, not_or, not_or, newestGop_head?_flagged, Bool.not_eq_false] at hfit
  obtain ⟨hlen, hflag, hover⟩ := hfit
  have hgop := newestGop_of_keySeqs (keySeqs_ne_nil_of_flaggedAt hflag)
  obtain ⟨pre, t, hslots, -, -, -, -, ht⟩ := h.tail
  obtain rfl := ht hflag
  have hslen : r.slots.length = pre.length + (newestGop fs).length := by
    rw [hslots, List.length_append, List.length_drop, stamped_length, hgop, List.length_drop]
  have hbytes : r.bytesUsed = storedBytes pre + mediaBytes (newestGop fs) := by
    rw [h.bytesUsed_eq, hslots, storedBytes_append, storedBytes_stamped_drop, hgop]
  have hneeds : r.needsEvict = true := by
    rw [needsEvict, Bool.or_eq_true, decide_eq_true_iff, decide_eq_true_iff]
    omega
  rw [FrameRing.evictStep, if_pos hneeds]
  by_cases hg : MIN_GOPS_RETAINED < r.gopStarts.length
  · exact ⟨_, if_pos hg⟩
  · rw [if_neg hg, if_pos (by omega)]
    exact ⟨_, rfl⟩

/-- Where the newest GOP fits, **every turn shrinks** the ring. -/
theorem evictSize_lt_of_fits {fs : List MediaFrame} {r r' : FrameRing} (h : RingInv fs r)
    (hfit : NewestGopFits r.capacityFrames r.capacityBytes fs) (hstep : r.evictStep = some r') :
    evictSize r' < evictSize r := by
  obtain ⟨hover, ⟨hgop, rfl⟩ | ⟨hgop, hlen, rfl⟩⟩ := evictStep_cases hstep
  · exact evictSize_evictOldestGop hgop
  · obtain hlt | ⟨hfront, heq⟩ | hnil := evictFront_shrinks_or_eq r
    · exact hlt
    · -- the front is the newest key frame, so the slots are the newest GOP
      exfalso
      have hslots := h.dropWhile_slots hgop
      rw [show r.slots.dropWhile (fun f => !f.isFlaggedKeyframe) = r.slots from
        congrArg FrameRing.slots heq] at hslots
      by_cases hflag : flaggedAt fs (newestKey fs) = true
      · rw [if_pos hflag] at hslots
        have hg := newestGop_of_keySeqs (keySeqs_ne_nil_of_flaggedAt hflag)
        have hslen : r.slots.length = (newestGop fs).length := by
          rw [hslots, List.length_drop, stamped_length, hg, List.length_drop]
        have hbytes : r.bytesUsed = mediaBytes (newestGop fs) := by
          rw [h.bytesUsed_eq, hslots, storedBytes_stamped_drop, hg]
        rw [needsEvict, Bool.or_eq_true, decide_eq_true_iff, decide_eq_true_iff] at hover
        rw [NewestGopFits, newestGop_head?_flagged, hflag] at hfit
        rcases hfit with hfit | hfit | hfit
        · omega
        · cases hfit
        · omega
      · rw [if_neg hflag] at hslots
        rw [hslots] at hlen
        simp at hlen
    · rw [hnil] at hlen
      simp at hlen

/-- The loop is left from a ring with the history `fs` **exactly if** the newest
GOP of `fs` fits. -/
theorem halts_evictStep_iff {fs : List MediaFrame} {r : FrameRing} (h : RingInv fs r) :
    Halts evictStep r ↔ NewestGopFits r.capacityFrames r.capacityBytes fs := by
  have hkeep : ∀ s s' : FrameRing, (RingInv fs s ∧ s.capacityFrames = r.capacityFrames ∧
      s.capacityBytes = r.capacityBytes) → s.evictStep = some s' →
      (RingInv fs s' ∧ s'.capacityFrames = r.capacityFrames ∧
        s'.capacityBytes = r.capacityBytes) := by
    rintro s s' ⟨hs, hf, hb⟩ hstep
    obtain ⟨hf', hb'⟩ := evictStep_capacity hstep
    exact ⟨hs.evictStep hstep, hf'.trans hf, hb'.trans hb⟩
  constructor
  · intro hh
    by_contra hfit
    refine not_halts_of_invariant (I := fun s => RingInv fs s ∧
      s.capacityFrames = r.capacityFrames ∧ s.capacityBytes = r.capacityBytes)
      (fun s hs => ?_) ⟨h, rfl, rfl⟩ hh
    obtain ⟨s', hs'⟩ := evictStep_ne_none_of_not_fits hs.1 (by rwa [hs.2.1, hs.2.2])
    exact ⟨s', hs', hkeep s s' hs hs'⟩
  · intro hfit
    refine halts_of_measure (I := fun s => RingInv fs s ∧
      s.capacityFrames = r.capacityFrames ∧ s.capacityBytes = r.capacityBytes)
      (μ := evictSize) (fun s s' hs hstep => ⟨hkeep s s' hs hstep, ?_⟩) ⟨h, rfl, rfl⟩
    exact evictSize_lt_of_fits hs.1 (by rwa [hs.2.1, hs.2.2]) hstep

/-! ## Runs of pushes -/

/-- The call `push(f)` on `r` **returns**, and does so because every turn of its
eviction loop shrinks the slots or the GOP starts. -/
def PushReturns (r : FrameRing) (f : MediaFrame) : Prop :=
  Halts evictStep (r.append f) ∧ TurnsShrink (r.append f)

/-- A push leaves the limits alone. -/
theorem push_capacity {r r' : FrameRing} {f : MediaFrame} (h : r.push f = some r') :
    r'.capacityFrames = r.capacityFrames ∧ r'.capacityBytes = r.capacityBytes := by
  refine (run_inv (I := fun s => s.capacityFrames = r.capacityFrames ∧
    s.capacityBytes = r.capacityBytes) (fun s s' hs hstep => ?_) ⟨rfl, rfl⟩ h).1
  obtain ⟨hf, hb⟩ := evictStep_capacity hstep
  exact ⟨hf.trans hs.1, hb.trans hs.2⟩

/-- A push gives the frame **its number**, whatever is evicted. -/
theorem push_writeSeq {r r' : FrameRing} {f : MediaFrame} (h : r.push f = some r') :
    r'.writeSeq = r.writeSeq + 1 :=
  (run_inv (I := fun s => s.writeSeq = r.writeSeq + 1)
    (fun _ _ hs hstep => (evictStep_writeSeq hstep).trans hs) rfl h).1

/-- Every push counts. -/
theorem exec_push_writeSeq {r r' : FrameRing} {fs : List MediaFrame}
    (h : exec FrameRing.push r fs = some r') : r'.writeSeq = r.writeSeq + fs.length := by
  induction fs generalizing r with
  | nil =>
    obtain rfl := Option.some.inj h
    rfl
  | cons f fs ih =>
    obtain ⟨r₁, hpush, hrest⟩ := exec_cons_eq_some.mp h
    rw [ih hrest, push_writeSeq hpush, List.length_cons, Nat.add_assoc, Nat.add_comm 1]

/-- The model's push answers exactly if the source's returns. -/
theorem push_isSome_iff (r : FrameRing) (f : MediaFrame) :
    (r.push f).isSome ↔ PushReturns r f := by
  rw [PushReturns, turnsShrink_iff_halts, and_self, push, evictIfNeeded_isSome_iff]

/-- A push into a ring with room for the frame evicts nothing. -/
theorem push_of_room {r : FrameRing} {f : MediaFrame} (hframes : r.slots.length < r.capacityFrames)
    (hbytes : r.bytesUsed + f.data.length ≤ r.capacityBytes) : r.push f = some (r.append f) := by
  have hlen : (r.append f).slots.length = r.slots.length + 1 := List.length_append
  have hroom : (r.append f).needsEvict = false := by
    rw [needsEvict, Bool.or_eq_false_iff, decide_eq_false_iff_not, decide_eq_false_iff_not, hlen]
    exact ⟨Nat.not_lt.mpr hframes, Nat.not_lt.mpr hbytes⟩
  have hstep : (r.append f).evictStep = none := by
    rw [FrameRing.evictStep, hroom]
    rfl
  exact run_succ_none hstep

/-- A push that drops the oldest GOP, and then has room. -/
theorem push_of_evictOldestGop {r : FrameRing} {f : MediaFrame}
    (h : (r.append f).needsEvict = true) (hgop : 1 < (r.append f).gopStarts.length)
    (h' : (r.append f).evictOldestGop.needsEvict = false) :
    r.push f = some (r.append f).evictOldestGop := by
  have hstep : (r.append f).evictStep = some (r.append f).evictOldestGop := by
    rw [FrameRing.evictStep, h]
    exact if_pos hgop
  have hstop : (r.append f).evictOldestGop.evictStep = none := by
    rw [FrameRing.evictStep, h']
    rfl
  obtain ⟨n, hn⟩ : ∃ n, (r.append f).evictFuel = n + 1 + 1 :=
    ⟨(r.append f).evictFuel - 2, by rw [evictFuel]; omega⟩
  rw [push, evictIfNeeded, hn, run_succ_some hstep, run_succ_none hstop]

/-- A run of pushes that returns has the frames pushed as its history. -/
theorem ringInv_of_exec {cf cb : ℕ} {fs : List MediaFrame} {r : FrameRing}
    (h : exec push (withCapacity cf cb) fs = some r) :
    RingInv fs r ∧ r.capacityFrames = cf ∧ r.capacityBytes = cb := by
  induction fs using List.reverseRecOn generalizing r with
  | nil =>
    obtain rfl := Option.some.inj h
    exact ⟨RingInv.withCapacity cf cb, rfl, rfl⟩
  | append_singleton fs f ih =>
    obtain ⟨s, hs, hp⟩ := exec_concat.mp h
    obtain ⟨hinv, hf, hb⟩ := ih hs
    obtain ⟨hf', hb'⟩ := push_capacity hp
    exact ⟨hinv.push hp, hf'.trans hf, hb'.trans hb⟩

/-- After a run of pushes, the next one returns **exactly if** the newest GOP of
the history with it fits. -/
theorem pushReturns_iff_fits {cf cb : ℕ} {fs : List MediaFrame} {r : FrameRing}
    (h : exec push (withCapacity cf cb) fs = some r) (f : MediaFrame) :
    PushReturns r f ↔ NewestGopFits cf cb (fs ++ [f]) := by
  obtain ⟨hinv, hf, hb⟩ := ringInv_of_exec h
  rw [PushReturns, turnsShrink_iff_halts, and_self, halts_evictStep_iff (hinv.append f)]
  change NewestGopFits r.capacityFrames r.capacityBytes _ ↔ _
  rw [hf, hb]

/-- After a history, a run of pushes gets to its end **exactly if** the newest GOP fits with
every frame of it. -/
theorem exec_push_isSome_iff {cf cb : ℕ} {history : List MediaFrame} {r : FrameRing}
    (h : exec push (withCapacity cf cb) history = some r) (fs : List MediaFrame) :
    (exec push r fs).isSome ↔
      ∀ pre, pre <+: fs → pre ≠ [] → NewestGopFits cf cb (history ++ pre) := by
  induction fs using List.reverseRecOn with
  | nil =>
    refine ⟨fun _ pre hpre hne => absurd (List.prefix_nil.mp hpre) hne, fun _ => rfl⟩
  | append_singleton fs f ih =>
    have hfits : ∀ {r'}, exec push r fs = some r' →
        ((r'.push f).isSome ↔ NewestGopFits cf cb (history ++ (fs ++ [f]))) := by
      intro r' hr'
      have hrun : exec push (withCapacity cf cb) (history ++ fs) = some r' := by
        rw [exec_append, h, Option.bind_some, hr']
      rw [push_isSome_iff, pushReturns_iff_fits hrun, List.append_assoc]
    have hpush : ∀ r' : FrameRing, exec push r' [f] = r'.push f := by
      intro r'
      rw [exec_cons]
      cases r'.push f <;> rfl
    rw [exec_append]
    constructor
    · intro hsome pre hpre hne
      obtain ⟨r'', hr''⟩ := Option.isSome_iff_exists.mp hsome
      obtain ⟨r', hr', hlast⟩ := Option.bind_eq_some_iff.mp hr''
      rcases List.prefix_concat_iff.mp hpre with rfl | hpre
      · exact (hfits hr').mp (by rw [← hpush, hlast]; rfl)
      · exact ih.mp (by rw [hr']; rfl) pre hpre hne
    · intro hall
      have hbefore := ih.mpr fun pre hpre hne =>
        hall pre (hpre.trans (List.prefix_append fs [f])) hne
      obtain ⟨r', hr'⟩ := Option.isSome_iff_exists.mp hbefore
      rw [hr', Option.bind_some, hpush]
      exact (hfits hr').mpr (hall _ (List.prefix_refl _) (by simp))

/-- Every push of a run returns **exactly if** the newest GOP of every initial
part of the run fits. -/
theorem push_returns_iff (capacityFrames capacityBytes : ℕ) (fs : List MediaFrame) :
    Always push PushReturns (withCapacity capacityFrames capacityBytes) fs ↔
      ∀ pre, pre <+: fs → NewestGopFits capacityFrames capacityBytes pre := by
  rw [always_iff]
  constructor
  · -- by induction on the initial part, the run gets to its end
    intro h
    have hreach : ∀ pre, pre <+: fs →
        (∃ r, exec push (withCapacity capacityFrames capacityBytes) pre = some r) ∧
          NewestGopFits capacityFrames capacityBytes pre := by
      intro pre
      induction pre using List.reverseRecOn with
      | nil => exact fun _ => ⟨⟨_, rfl⟩, .inl (Nat.zero_le _)⟩
      | append_singleton pre f ih =>
        intro hpre
        obtain ⟨⟨r, hr⟩, -⟩ := ih ((List.prefix_append pre [f]).trans hpre)
        have hret := h pre f hpre r hr
        obtain ⟨r', hr'⟩ := Option.isSome_iff_exists.mp ((push_isSome_iff r f).mpr hret)
        exact ⟨⟨r', exec_concat.mpr ⟨r, hr, hr'⟩⟩, (pushReturns_iff_fits hr f).mp hret⟩
    exact fun pre hpre => (hreach pre hpre).2
  · intro h pre f hpre r hr
    exact (pushReturns_iff_fits hr f).mpr (h _ hpre)

/-- An H264 frame of the ring's own tests: five bytes, an IDR slice if it is a
key frame. -/
def testFrame (key : Bool) : MediaFrame :=
  MediaFrame.new "s1" 0 0 [0, 0, 0, 1, if key then 0x65 else 0x41] key .h264

/-- A GOP of five frames in a ring for four: the last push **never returns**. -/
theorem push_not_returns_long_gop :
    ¬ Always push PushReturns (withCapacity 4 1024)
      [testFrame true, testFrame false, testFrame false, testFrame false, testFrame false] := by
  intro h
  obtain ⟨r, hr⟩ : ∃ r, exec push (withCapacity 4 1024)
      [testFrame true, testFrame false, testFrame false, testFrame false] = some r := ⟨_, rfl⟩
  have hret := always_iff.mp h _ (testFrame false) ⟨[], rfl⟩ r hr
  obtain rfl := Option.some.inj hr
  exact not_halts_of_fixed (by decide) hret.1

end VcpMediaServer
