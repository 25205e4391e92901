import VcpMediaServer.FrameRing
import Mathlib.Data.List.Infix
import Mathlib.Data.List.TakeWhile
import Mathlib.Algebra.BigOperators.Group.List.Basic
import Mathlib.Algebra.Ring.Nat

/-!
# What a ring holds

A ring is compared with the **history** of the frames pushed into it, whatever
has been evicted since.

* `stamped` — the history under its sequence numbers; the slots of a ring are a
  sublist of it.
* `keySeqs` — the positions of the key frames of the history; the GOP starts of
  a ring are its newest ones.
* `RingInv` — the invariant. Eviction may open **holes** between old frames, but
  what is stored from the newest key frame on has none, and where that key frame
  carries its flag, all of it is stored.
* `RingInv.push` — every push that returns keeps the invariant.
-/

namespace VcpMediaServer

/-- The frames of a history under their sequence numbers. -/
def stamped (fs : List MediaFrame) : List StoredFrame :=
  fs.mapIdx StoredFrame.ofMediaFrame

/-- The bytes of stored payloads. -/
def storedBytes (l : List StoredFrame) : ℕ := (l.map fun f => f.data.length).sum

/-- The sequence numbers of the key frames of a history. -/
def keySeqs (fs : List MediaFrame) : List ℕ :=
  (List.range fs.length).filter fun i => (fs[i]?).any isVideoKeyframe

/-- The sequence number of the newest key frame of a history; `0` if it has
none. -/
def newestKey (fs : List MediaFrame) : ℕ := (keySeqs fs).getLast?.getD 0

/-- Whether the frame at position `i` of a history is a flagged key frame. -/
def flaggedAt (fs : List MediaFrame) (i : ℕ) : Bool :=
  (fs[i]?).any MediaFrame.isFlaggedKeyframe

/-! ## Histories -/

@[simp] theorem stamped_length (fs : List MediaFrame) : (stamped fs).length = fs.length :=
  List.length_mapIdx

theorem stamped_concat (fs : List MediaFrame) (f : MediaFrame) :
    stamped (fs ++ [f]) = stamped fs ++ [StoredFrame.ofMediaFrame fs.length f] :=
  List.mapIdx_concat

theorem stamped_getElem? (fs : List MediaFrame) (i : ℕ) :
    (stamped fs)[i]? = (fs[i]?).map (StoredFrame.ofMediaFrame i) :=
  List.getElem?_mapIdx

/-- The frame at a position carries that position as its number. -/
theorem seq_of_stamped_getElem? {fs : List MediaFrame} {i : ℕ} {s : StoredFrame}
    (h : (stamped fs)[i]? = some s) : s.seq = i := by
  rw [stamped_getElem?] at h
  obtain ⟨f, -, rfl⟩ := Option.map_eq_some_iff.mp h
  rfl

/-- The numbers of a stamped history **strictly rise**. -/
theorem stamped_pairwise (fs : List MediaFrame) :
    (stamped fs).Pairwise fun a b => a.seq < b.seq := by
  rw [List.pairwise_iff_getElem]
  intro i j hi hj hij
  rw [seq_of_stamped_getElem? (List.getElem?_eq_getElem hi),
    seq_of_stamped_getElem? (List.getElem?_eq_getElem hj)]
  exact hij

/-- A stamped frame is in the history under its number. -/
theorem stamped_getElem?_seq {fs : List MediaFrame} {s : StoredFrame} (h : s ∈ stamped fs) :
    (stamped fs)[s.seq]? = some s := by
  obtain ⟨i, hi⟩ := List.mem_iff_getElem?.mp h
  rwa [seq_of_stamped_getElem? hi]

theorem seq_lt_of_mem_stamped {fs : List MediaFrame} {s : StoredFrame} (h : s ∈ stamped fs) :
    s.seq < fs.length := by
  have hlt := (List.getElem?_eq_some_iff.mp (stamped_getElem?_seq h)).1
  rwa [stamped_length] at hlt

/-- The tail of a stamped history from `t` on: the frames with a number of at
least `t`. -/
theorem mem_stamped_drop {fs : List MediaFrame} {t : ℕ} {s : StoredFrame} :
    s ∈ (stamped fs).drop t ↔ s ∈ stamped fs ∧ t ≤ s.seq := by
  constructor
  · intro h
    obtain ⟨i, hi⟩ := List.mem_iff_getElem?.mp h
    rw [List.getElem?_drop] at hi
    refine ⟨List.mem_iff_getElem?.mpr ⟨t + i, hi⟩, ?_⟩
    rw [seq_of_stamped_getElem? hi]
    exact Nat.le_add_right t i
  · rintro ⟨h, hle⟩
    refine List.mem_iff_getElem?.mpr ⟨s.seq - t, ?_⟩
    rw [List.getElem?_drop, Nat.add_sub_cancel' hle]
    exact stamped_getElem?_seq h

/-- The flag of a stamped frame, read off the history. -/
theorem isFlaggedKeyframe_of_stamped {fs : List MediaFrame} {s : StoredFrame}
    (h : s ∈ stamped fs) : s.isFlaggedKeyframe = flaggedAt fs s.seq := by
  have hs := stamped_getElem?_seq h
  rw [stamped_getElem?] at hs
  obtain ⟨f, hf, hfs⟩ := Option.map_eq_some_iff.mp hs
  rw [flaggedAt, hf, Option.any_some, ← hfs, StoredFrame.ofMediaFrame_isFlaggedKeyframe]

theorem keySeqs_concat (fs : List MediaFrame) (f : MediaFrame) :
    keySeqs (fs ++ [f]) = keySeqs fs ++ if isVideoKeyframe f then [fs.length] else [] := by
  have hold : (List.range fs.length).filter (fun i => ((fs ++ [f])[i]?).any isVideoKeyframe)
      = keySeqs fs := by
    refine List.filter_congr fun i hi => ?_
    rw [List.getElem?_append_left (List.mem_range.mp hi)]
  rw [keySeqs, List.length_append, List.length_singleton, List.range_succ, List.filter_append,
    hold, List.filter_singleton, List.getElem?_concat_length, Option.any_some, Bool.cond_eq_ite]

theorem mem_keySeqs {fs : List MediaFrame} {i : ℕ} :
    i ∈ keySeqs fs ↔ (fs[i]?).any isVideoKeyframe = true := by
  rw [keySeqs, List.mem_filter, List.mem_range, and_iff_right_iff_imp]
  intro h
  rcases hi : fs[i]? with _ | f
  · rw [hi] at h
    cases h
  · exact (List.getElem?_eq_some_iff.mp hi).1

theorem lt_of_mem_keySeqs {fs : List MediaFrame} {i : ℕ} (h : i ∈ keySeqs fs) :
    i < fs.length :=
  List.mem_range.mp (List.mem_filter.mp h).1

theorem keySeqs_pairwise (fs : List MediaFrame) : (keySeqs fs).Pairwise (· < ·) :=
  List.pairwise_lt_range.filter _

/-- A flagged key frame is among the key frames. -/
theorem mem_keySeqs_of_flaggedAt {fs : List MediaFrame} {i : ℕ} (h : flaggedAt fs i = true) :
    i ∈ keySeqs fs := by
  rw [mem_keySeqs]
  rw [flaggedAt, Option.any_eq_true] at h
  obtain ⟨f, hf, hflag⟩ := h
  rw [hf, Option.any_some]
  exact isVideoKeyframe_of_flagged hflag

theorem flaggedAt_concat_of_lt {fs : List MediaFrame} {i : ℕ} (f : MediaFrame)
    (h : i < fs.length) : flaggedAt (fs ++ [f]) i = flaggedAt fs i := by
  rw [flaggedAt, List.getElem?_append_left h, flaggedAt]

/-- Every key frame is at most the newest one. -/
theorem le_newestKey {fs : List MediaFrame} {i : ℕ} (h : i ∈ keySeqs fs) : i ≤ newestKey fs := by
  obtain ⟨l, k, hk⟩ := List.eq_nil_or_concat' (keySeqs fs) |>.resolve_left (List.ne_nil_of_mem h)
  have hp := keySeqs_pairwise fs
  rw [newestKey, hk, List.getLast?_concat, Option.getD_some]
  rw [hk] at h hp
  rcases List.mem_append.mp h with h | h
  · exact Nat.le_of_lt ((List.pairwise_append.mp hp).2.2 i h k (List.mem_singleton_self k))
  · rw [List.mem_singleton.mp h]

theorem newestKey_le (fs : List MediaFrame) : newestKey fs ≤ fs.length := by
  rcases hk : (keySeqs fs).getLast? with _ | k
  · rw [newestKey, hk, Option.getD_none]
    exact Nat.zero_le _
  · rw [newestKey, hk, Option.getD_some]
    exact Nat.le_of_lt (lt_of_mem_keySeqs (List.mem_of_getLast? hk))

theorem newestKey_concat (fs : List MediaFrame) (f : MediaFrame) :
    newestKey (fs ++ [f]) = if isVideoKeyframe f then fs.length else newestKey fs := by
  rw [newestKey, keySeqs_concat]
  by_cases hf : isVideoKeyframe f = true
  · rw [if_pos hf, if_pos hf, List.getLast?_concat, Option.getD_some]
  · rw [if_neg hf, if_neg hf, List.append_nil, newestKey]

/-- A history without a key frame has no flagged one at its newest key. -/
theorem keySeqs_ne_nil_of_flaggedAt {fs : List MediaFrame} {i : ℕ} (h : flaggedAt fs i = true) :
    keySeqs fs ≠ [] :=
  List.ne_nil_of_mem (mem_keySeqs_of_flaggedAt h)

/-! ## Bytes -/

@[simp] theorem storedBytes_cons (f : StoredFrame) (l : List StoredFrame) :
    storedBytes (f :: l) = f.data.length + storedBytes l := rfl

@[simp] theorem storedBytes_append (l l' : List StoredFrame) :
    storedBytes (l ++ l') = storedBytes l + storedBytes l' := by
  rw [storedBytes, List.map_append, List.sum_append, storedBytes, storedBytes]

/-- Lowering the count frame by frame lowers it by the sum. -/
theorem subtractBytes_eq (n : ℕ) (l : List StoredFrame) :
    FrameRing.subtractBytes n l = n - storedBytes l := by
  induction l generalizing n with
  | nil => rfl
  | cons f l ih =>
    rw [FrameRing.subtractBytes, List.foldl_cons]
    change FrameRing.subtractBytes (n - f.data.length) l = _
    rw [ih, storedBytes_cons, Nat.sub_sub]

/-- The two halves of a filter hold all the bytes. -/
theorem storedBytes_filter (p : StoredFrame → Bool) (l : List StoredFrame) :
    storedBytes (l.filter fun f => !p f) + storedBytes (l.filter p) = storedBytes l := by
  induction l with
  | nil => rfl
  | cons f l ih =>
    by_cases hf : p f = true
    · rw [List.filter_cons_of_pos hf, List.filter_cons_of_neg (by simp [hf]), storedBytes_cons,
        storedBytes_cons]
      omega
    · rw [List.filter_cons_of_neg hf, List.filter_cons_of_pos (by simp [hf]), storedBytes_cons,
        storedBytes_cons]
      omega

/-! ## The invariant -/

/-- What a ring holds after the history `fs`. -/
structure RingInv (fs : List MediaFrame) (r : FrameRing) : Prop where
  /-- The next number is the length of the history. -/
  writeSeq_eq : r.writeSeq = fs.length
  /-- The slots are frames of the history, in its order. -/
  slots_sublist : r.slots.Sublist (stamped fs)
  /-- The byte count is exact. -/
  bytesUsed_eq : r.bytesUsed = storedBytes r.slots
  /-- The GOP starts are the newest key frames of the history. -/
  gopStarts_suffix : r.gopStarts <:+ keySeqs fs
  /-- The newest key frame stays a GOP start. -/
  gopStarts_ne_nil : keySeqs fs ≠ [] → r.gopStarts ≠ []
  /-- The two deques agree. -/
  idrSeqs_eq : r.idrSeqs = r.gopStarts
  /-- Every stored key frame with a flag begins a retained GOP. -/
  flagged_mem : ∀ f ∈ r.slots, f.isFlaggedKeyframe = true → f.seq ∈ r.gopStarts
  /-- From some number `t` on, at or after the newest key frame, everything is
  stored. Frames before the newest key frame are stored only if nothing after
  it is missing; nothing is missing where it is flagged. -/
  tail : ∃ pre t, r.slots = pre ++ (stamped fs).drop t ∧ newestKey fs ≤ t ∧ t ≤ fs.length ∧
    (∀ f ∈ pre, f.seq < newestKey fs) ∧ (newestKey fs < t → pre = []) ∧
    (flaggedAt fs (newestKey fs) = true → t = newestKey fs)

namespace RingInv

open FrameRing

/-- An empty ring, before any push. -/
theorem withCapacity (cf cb : ℕ) : RingInv [] (FrameRing.withCapacity cf cb) where
  writeSeq_eq := rfl
  slots_sublist := List.nil_sublist _
  bytesUsed_eq := rfl
  gopStarts_suffix := List.nil_suffix
  gopStarts_ne_nil := fun h => h
  idrSeqs_eq := rfl
  flagged_mem := fun _ hf => absurd hf List.not_mem_nil
  tail := ⟨[], 0, rfl, le_rfl, le_rfl, fun _ hf => absurd hf List.not_mem_nil, fun _ => rfl,
    fun _ => rfl⟩

variable {fs : List MediaFrame} {r : FrameRing}

theorem mem_stamped (h : RingInv fs r) {f : StoredFrame} (hf : f ∈ r.slots) : f ∈ stamped fs :=
  h.slots_sublist.subset hf

/-- The numbers of the slots strictly rise. -/
theorem slots_pairwise (h : RingInv fs r) : r.slots.Pairwise fun a b => a.seq < b.seq :=
  (stamped_pairwise fs).sublist h.slots_sublist

/-- The newest key frame, where there is one, is the last GOP start. -/
theorem getLast?_gopStarts (h : RingInv fs r) : r.gopStarts.getLast? = (keySeqs fs).getLast? := by
  obtain ⟨l, hl⟩ := h.gopStarts_suffix
  rcases hg : r.gopStarts with _ | ⟨g, gs⟩
  · have hnil : keySeqs fs = [] := by
      by_contra hne
      exact h.gopStarts_ne_nil hne hg
    rw [hnil]
  · rw [← hl, hg, List.getLast?_append_of_ne_nil _ (List.cons_ne_nil g gs)]

theorem latestIdrSeq_eq (h : RingInv fs r) : r.latestIdrSeq = (keySeqs fs).getLast? := by
  rw [latestIdrSeq, h.idrSeqs_eq, h.getLast?_gopStarts]

/-- Appending a frame keeps the invariant. -/
theorem append (h : RingInv fs r) (f : MediaFrame) : RingInv (fs ++ [f]) (r.append f) where
  writeSeq_eq := by
    rw [List.length_append, List.length_singleton]
    exact congrArg (· + 1) h.writeSeq_eq
  slots_sublist := by
    rw [stamped_concat, ← h.writeSeq_eq]
    exact h.slots_sublist.append (List.Sublist.refl _)
  bytesUsed_eq := by
    change r.bytesUsed + f.data.length = storedBytes (r.slots ++ [_])
    rw [storedBytes_append, h.bytesUsed_eq]
    rfl
  gopStarts_suffix := by
    change (if isVideoKeyframe f then r.gopStarts ++ [r.writeSeq] else r.gopStarts) <:+ _
    rw [keySeqs_concat, h.writeSeq_eq]
    by_cases hf : isVideoKeyframe f = true
    · rw [if_pos hf, if_pos hf]
      obtain ⟨l, hl⟩ := h.gopStarts_suffix
      exact ⟨l, by rw [← List.append_assoc, hl]⟩
    · rw [if_neg hf, if_neg hf, List.append_nil]
      exact h.gopStarts_suffix
  gopStarts_ne_nil := by
    change _ → (if isVideoKeyframe f then r.gopStarts ++ [r.writeSeq] else r.gopStarts) ≠ []
    rw [keySeqs_concat]
    by_cases hf : isVideoKeyframe f = true
    · rw [if_pos hf, if_pos hf]
      exact fun _ => by simp
    · rw [if_neg hf, if_neg hf, List.append_nil]
      exact h.gopStarts_ne_nil
  idrSeqs_eq := by
    change (if isVideoKeyframe f then r.idrSeqs ++ [r.writeSeq] else r.idrSeqs)
      = if isVideoKeyframe f then r.gopStarts ++ [r.writeSeq] else r.gopStarts
    rw [h.idrSeqs_eq]
  flagged_mem := by
    change ∀ g ∈ r.slots ++ [StoredFrame.ofMediaFrame r.writeSeq f], _ →
      g.seq ∈ if isVideoKeyframe f then r.gopStarts ++ [r.writeSeq] else r.gopStarts
    intro g hg hflag
    rcases List.mem_append.mp hg with hg | hg
    · have hmem := h.flagged_mem g hg hflag
      by_cases hf : isVideoKeyframe f = true
      · rw [if_pos hf]
        exact List.mem_append_left _ hmem
      · rw [if_neg hf]
        exact hmem
    · obtain rfl := List.mem_singleton.mp hg
      rw [StoredFrame.ofMediaFrame_isFlaggedKeyframe] at hflag
      rw [if_pos (isVideoKeyframe_of_flagged hflag), StoredFrame.ofMediaFrame_seq]
      exact List.mem_append_right _ (List.mem_singleton_self _)
  tail := by
    obtain ⟨pre, t, hslots, hkt, htl, hpre, hnil, hflag⟩ := h.tail
    have hslots' : (r.append f).slots = r.slots ++ [StoredFrame.ofMediaFrame fs.length f] := by
      rw [← h.writeSeq_eq]
      rfl
    rw [newestKey_concat, stamped_concat, List.length_append, List.length_singleton, hslots']
    by_cases hf : isVideoKeyframe f = true
    · -- the frame begins a GOP of its own, and all of the old slots come before it
      rw [if_pos hf]
      refine ⟨r.slots, fs.length, ?_, le_rfl, Nat.le_succ _, fun g hg => ?_, fun hlt => ?_,
        fun _ => rfl⟩
      · rw [List.drop_left' (stamped_length fs)]
      · exact seq_lt_of_mem_stamped (h.mem_stamped hg)
      · exact absurd hlt (lt_irrefl _)
    · -- the frame continues the newest GOP
      rw [if_neg hf]
      refine ⟨pre, t, ?_, hkt, Nat.le_succ_of_le htl, hpre, hnil, fun hfl => hflag ?_⟩
      · rw [List.drop_append_of_le_length (by rwa [stamped_length]), hslots, List.append_assoc]
      · by_cases hk : newestKey fs < fs.length
        · rwa [flaggedAt_concat_of_lt f hk] at hfl
        · -- only the empty history has its newest key beyond its end, and `f` is no key
          have hlen : newestKey fs = fs.length := le_antisymm (newestKey_le fs) (not_lt.mp hk)
          rw [hlen, flaggedAt, List.getElem?_concat_length, Option.any_some] at hfl
          exact absurd (isVideoKeyframe_of_flagged hfl) hf

/-- Where nothing but the newest GOP can begin in the ring, dropping everything
in front of a flagged key frame leaves the newest GOP if that is flagged, and
nothing if it is not. -/
theorem dropWhile_slots (h : RingInv fs r) (hlen : r.gopStarts.length ≤ 1) :
    r.slots.dropWhile (fun f => !f.isFlaggedKeyframe)
      = if flaggedAt fs (newestKey fs) then (stamped fs).drop (newestKey fs) else [] := by
  -- a stored flagged frame is the newest key frame
  have hnew : ∀ f ∈ r.slots, f.isFlaggedKeyframe = true → f.seq = newestKey fs := by
    intro f hf hfl
    have hmem := h.flagged_mem f hf hfl
    have hlast := h.getLast?_gopStarts
    rcases hg : r.gopStarts with _ | ⟨g, _ | ⟨g', gs⟩⟩
    · rw [hg] at hmem
      cases hmem
    · rw [hg] at hmem hlast
      rw [newestKey, ← hlast, List.mem_singleton.mp hmem]
      rfl
    · rw [hg] at hlen
      simp at hlen
  by_cases hflag : flaggedAt fs (newestKey fs) = true
  · obtain ⟨pre, t, hslots, -, -, hpre, -, ht⟩ := h.tail
    obtain rfl := ht hflag
    rw [if_pos hflag, hslots, List.dropWhile_append_of_pos]
    · rcases hd : (stamped fs).drop (newestKey fs) with _ | ⟨g, gs⟩
      · rfl
      · have hg : (stamped fs)[newestKey fs]? = some g := by
          have h0 : ((stamped fs).drop (newestKey fs))[0]? = some g := by rw [hd]; rfl
          rwa [List.getElem?_drop, Nat.add_zero] at h0
        have hgf : g.isFlaggedKeyframe = true := by
          rw [isFlaggedKeyframe_of_stamped (List.mem_iff_getElem?.mpr ⟨_, hg⟩),
            seq_of_stamped_getElem? hg, hflag]
        rw [List.dropWhile_cons_of_neg (by simp [hgf])]
    · intro f hf
      rcases hff : f.isFlaggedKeyframe with _ | _
      · rfl
      · have hmem : f ∈ r.slots := by rw [hslots]; exact List.mem_append_left _ hf
        have heq := hnew f hmem hff
        have hlt := hpre f hf
        omega
  · rw [if_neg hflag, List.dropWhile_eq_nil_iff]
    intro f hf
    rcases hff : f.isFlaggedKeyframe with _ | _
    · rfl
    · have heq := hnew f hf hff
      rw [isFlaggedKeyframe_of_stamped (h.mem_stamped hf), heq] at hff
      exact absurd hff hflag

/-- Dropping the front keeps the invariant. -/
theorem evictFront (h : RingInv fs r) (hlen : r.gopStarts.length ≤ 1) :
    RingInv fs r.evictFrontUntilKeyframeOrEmpty where
  writeSeq_eq := h.writeSeq_eq
  slots_sublist := (List.dropWhile_sublist _).trans h.slots_sublist
  bytesUsed_eq := by
    have hsplit := congrArg storedBytes
      (List.takeWhile_append_dropWhile (p := fun f => !f.isFlaggedKeyframe) (l := r.slots))
    rw [storedBytes_append] at hsplit
    change subtractBytes r.bytesUsed _ = storedBytes (r.slots.dropWhile _)
    rw [subtractBytes_eq, h.bytesUsed_eq]
    omega
  gopStarts_suffix := h.gopStarts_suffix
  gopStarts_ne_nil := h.gopStarts_ne_nil
  idrSeqs_eq := h.idrSeqs_eq
  flagged_mem := fun f hf => h.flagged_mem f ((List.dropWhile_sublist _).subset hf)
  tail := by
    change ∃ pre t, r.slots.dropWhile _ = _ ∧ _
    rw [h.dropWhile_slots hlen]
    by_cases hflag : flaggedAt fs (newestKey fs) = true
    · rw [if_pos hflag]
      exact ⟨[], newestKey fs, rfl, le_rfl, newestKey_le fs,
        fun _ hf => absurd hf List.not_mem_nil, fun _ => rfl, fun _ => rfl⟩
    · rw [if_neg hflag]
      refine ⟨[], fs.length, ?_, newestKey_le fs, le_rfl,
        fun _ hf => absurd hf List.not_mem_nil, fun _ => rfl, fun h => absurd h hflag⟩
      rw [List.drop_eq_nil_of_le (by rw [stamped_length]), List.append_nil]

/-- Dropping the oldest of several GOPs keeps the invariant. -/
theorem evictOldestGop (h : RingInv fs r) (hlen : 1 < r.gopStarts.length) :
    RingInv fs r.evictOldestGop := by
  rcases hg : r.gopStarts with _ | ⟨start, _ | ⟨stop, gs⟩⟩
  · rw [hg] at hlen
    simp at hlen
  · rw [hg] at hlen
    simp at hlen
  have hsuf : start :: stop :: gs <:+ keySeqs fs := hg ▸ h.gopStarts_suffix
  have hsuf' : stop :: gs <:+ keySeqs fs := (List.suffix_cons _ _).trans hsuf
  have hstop : stop ≤ newestKey fs := le_newestKey (hsuf'.subset List.mem_cons_self)
  have hsorted := (keySeqs_pairwise fs).sublist hsuf.sublist
  have hstart : ∀ s ∈ stop :: gs, start < s := (List.pairwise_cons.mp hsorted).1
  have hring : r.evictOldestGop =
      { r with
        gopStarts := stop :: gs
        idrSeqs := r.idrSeqs.filter fun s => s != start
        slots := r.slots.filter fun f => !(decide (start ≤ f.seq) && decide (f.seq < stop))
        bytesUsed := subtractBytes r.bytesUsed
          (r.slots.filter fun f => decide (start ≤ f.seq) && decide (f.seq < stop)) } := by
    rw [FrameRing.evictOldestGop, hg]
    rfl
  rw [hring]
  exact
    { writeSeq_eq := h.writeSeq_eq
      slots_sublist := (List.filter_sublist).trans h.slots_sublist
      bytesUsed_eq := by
        have hsplit := storedBytes_filter
          (fun f => decide (start ≤ f.seq) && decide (f.seq < stop)) r.slots
        change subtractBytes r.bytesUsed _ = storedBytes (r.slots.filter _)
        rw [subtractBytes_eq, h.bytesUsed_eq]
        omega
      gopStarts_suffix := hsuf'
      gopStarts_ne_nil := fun _ => List.cons_ne_nil _ _
      idrSeqs_eq := by
        change r.idrSeqs.filter _ = stop :: gs
        rw [h.idrSeqs_eq, hg, List.filter_cons_of_neg (by simp), List.filter_eq_self]
        intro s hs
        exact bne_iff_ne.mpr (Nat.ne_of_gt (hstart s hs))
      flagged_mem := by
        intro f hf hfl
        obtain ⟨hf, hkeep⟩ := List.mem_filter.mp hf
        have hmem := h.flagged_mem f hf hfl
        rw [hg] at hmem
        rcases List.mem_cons.mp hmem with heq | hmem
        · -- the dropped GOP's own key frame is in the dropped range
          have hlt := hstart stop List.mem_cons_self
          simp only [Bool.not_and, Bool.or_eq_true, Bool.not_eq_true', decide_eq_false_iff_not,
            not_le, not_lt] at hkeep
          omega
        · exact hmem
      tail := by
        obtain ⟨pre, t, hslots, hkt, htl, hpre, hnil, hflag⟩ := h.tail
        refine ⟨pre.filter fun f => !(decide (start ≤ f.seq) && decide (f.seq < stop)), t, ?_, hkt,
          htl, fun f hf => hpre f (List.mem_filter.mp hf).1, fun hlt => ?_, hflag⟩
        · change r.slots.filter _ = _
          rw [hslots, List.filter_append]
          congr 1
          rw [List.filter_eq_self]
          intro f hf
          have hle := (mem_stamped_drop.mp hf).2
          have hns : ¬ f.seq < stop := by omega
          simp [hns]
        · rw [hnil hlt, List.filter_nil] }

/-- A **turn of the eviction loop** keeps the invariant. -/
theorem evictStep {r' : FrameRing} (h : RingInv fs r) (hs : r.evictStep = some r') :
    RingInv fs r' := by
  rw [FrameRing.evictStep] at hs
  split at hs
  · split at hs
    · next hgop =>
      obtain rfl := Option.some.inj hs
      exact h.evictOldestGop hgop
    · next hgop =>
      split at hs
      · obtain rfl := Option.some.inj hs
        exact h.evictFront (Nat.le_of_not_lt hgop)
      · cases hs
  · cases hs

/-- A **push that returns** keeps the invariant. -/
theorem push {r' : FrameRing} (h : RingInv fs r) {f : MediaFrame} (hp : r.push f = some r') :
    RingInv (fs ++ [f]) r' :=
  (FuelLoop.run_inv (fun _ _ hi hs => evictStep hi hs) (h.append f) hp).1

end RingInv

end VcpMediaServer
