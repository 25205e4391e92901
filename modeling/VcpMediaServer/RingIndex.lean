import VcpMediaServer.GopEviction
import Mathlib.Data.List.Sort

/-!
# The indices of a ring

Besides its frames a ring keeps their bytes, and twice the numbers of its key frames. A
turn on whole GOPs takes a key frame out of all of them. A drop from the front takes the
frames and leaves the key frames listed; it stops at a key frame by its **flag alone**,
so that it may take everything, the frame just pushed included.

* `Indexed` — bytes, GOP starts and key frames are those of the stored frames.
* `StaysIndexed` — the condition on a push: the core fits, or is one frame, or its newest
  key frame carries a flag.
* `indexed_push_iff` — what one push does.
* `indexed_iff` — along every run of pushes the indices are right, and the frame just
  pushed can be got, **exactly if** every push meets the condition.
-/

namespace VcpMediaServer

open FrameRing FuelLoop Lts

/-- The numbers of the stored key frames. -/
def FrameRing.storedKeys (r : FrameRing) : List ℕ :=
  (r.slots.filter StoredFrame.isVideoKeyframe).map StoredFrame.seq

/-- The indices of a ring are those of its frames. -/
structure Indexed (r : FrameRing) : Prop where
  bytesUsed : r.bytesUsed = storedBytes r.slots
  gopStarts : r.gopStarts = r.storedKeys
  idrSeqs : r.idrSeqs = r.storedKeys
  /-- The key frames are listed in order. -/
  increasing : r.storedKeys.Pairwise (· < ·)
  /-- The newest key frame can be got. -/
  latest : ∀ s, r.latestIdrSeq = some s → (r.get s).isSome = true

/-- The condition on a push: eviction stops **before** it drops from the front, or finds a
flagged key frame there. -/
def StaysIndexed (r : FrameRing) (f : MediaFrame) : Prop :=
  let a := r.append f
  a.CoreFits ∨ a.core.length ≤ 1 ∨ a.newestKeyFlagged = true

instance (r : FrameRing) (f : MediaFrame) : Decidable (StaysIndexed r f) :=
  inferInstanceAs (Decidable (_ ∨ _ ∨ _))

section

variable {fs : List MediaFrame} {r r' : FrameRing} {f : MediaFrame}

/-! ## Stored frames -/

/-- A stored frame can be got by its number. -/
theorem get_eq_some_of_mem (hinv : RingInv fs r) {g : StoredFrame} (hg : g ∈ r.slots) :
    r.get g.seq = some g := by
  rcases hget : r.get g.seq with _ | g'
  · have hnone := List.find?_eq_none.mp hget g hg
    simp at hnone
  · have hmem := List.mem_of_find?_eq_some hget
    have hseq : g'.seq = g.seq := by simpa using List.find?_some hget
    have hg₁ := stamped_getElem?_seq (hinv.mem_stamped hg)
    have hg₂ := stamped_getElem?_seq (hinv.mem_stamped hmem)
    rw [hseq, hg₁] at hg₂
    rw [Option.some.inj hg₂]

/-- The stored key frames are in order. -/
theorem storedKeys_pairwise (hinv : RingInv fs r) : r.storedKeys.Pairwise (· < ·) :=
  List.pairwise_map.mpr (hinv.slots_pairwise.sublist List.filter_sublist)

/-- The indices are right **exactly if** every stored key frame is listed, and every listed
one is stored. -/
theorem indexed_iff_stored (hinv : RingInv fs r) :
    Indexed r ↔ Listed r ∧ ∀ s ∈ r.gopStarts, ∃ g ∈ r.slots, g.seq = s := by
  constructor
  · intro h
    have hstored : ∀ s ∈ r.gopStarts, ∃ g ∈ r.slots, g.seq = s := by
      intro s hs
      rw [h.gopStarts] at hs
      obtain ⟨g, hg, hseq⟩ := List.mem_map.mp hs
      exact ⟨g, (List.mem_filter.mp hg).1, hseq⟩
    refine ⟨⟨fun g hg hkey => ?_, fun s hs => hstored s (List.mem_of_mem_tail hs)⟩, hstored⟩
    rw [h.gopStarts]
    exact List.mem_map_of_mem (List.mem_filter.mpr ⟨hg, hkey⟩)
  · rintro ⟨hlisted, hstored⟩
    have hsorted := (keySeqs_pairwise fs).sublist hinv.gopStarts_suffix.sublist
    have hkeys : r.gopStarts = r.storedKeys := by
      refine hsorted.eq_of_mem_iff (storedKeys_pairwise hinv) fun s => ?_
      rw [storedKeys, List.mem_map]
      constructor
      · intro hs
        obtain ⟨g, hg, hseq⟩ := hstored s hs
        refine ⟨g, List.mem_filter.mpr ⟨hg, ?_⟩, hseq⟩
        rw [isVideoKeyframe_of_stamped (hinv.mem_stamped hg), hseq]
        exact hinv.gopStarts_suffix.subset hs
      · rintro ⟨g, hg, rfl⟩
        obtain ⟨hg, hkey⟩ := List.mem_filter.mp hg
        exact hlisted.listed g hg hkey
    refine ⟨hinv.bytesUsed_eq, hkeys, hinv.idrSeqs_eq.trans hkeys, storedKeys_pairwise hinv,
      fun s hs => ?_⟩
    rw [latestIdrSeq, hinv.idrSeqs_eq] at hs
    obtain ⟨g, hg, rfl⟩ := hstored s (List.mem_of_getLast? hs)
    rw [get_eq_some_of_mem hinv hg]
    rfl

/-! ## A push -/

/-- Appending a frame keeps the indices right. -/
theorem Indexed.append (h : Indexed r) (hinv : RingInv fs r) (f : MediaFrame) :
    Indexed (r.append f) := by
  obtain ⟨hlisted, hstored⟩ := (indexed_iff_stored hinv).mp h
  refine (indexed_iff_stored (hinv.append f)).mpr ⟨hlisted.append f, ?_⟩
  change ∀ s ∈ (if isVideoKeyframe f then r.gopStarts ++ [r.writeSeq] else r.gopStarts),
    ∃ g ∈ r.slots ++ [StoredFrame.ofMediaFrame r.writeSeq f], g.seq = s
  intro s hs
  have hnew : StoredFrame.ofMediaFrame r.writeSeq f ∈
      r.slots ++ [StoredFrame.ofMediaFrame r.writeSeq f] :=
    List.mem_append_right _ (List.mem_singleton_self _)
  have hold : s ∈ r.gopStarts →
      ∃ g ∈ r.slots ++ [StoredFrame.ofMediaFrame r.writeSeq f], g.seq = s := by
    intro hs
    obtain ⟨g, hg, hseq⟩ := hstored s hs
    exact ⟨g, List.mem_append_left _ hg, hseq⟩
  split at hs
  · rcases List.mem_append.mp hs with hs | hs
    · exact hold hs
    · exact ⟨_, hnew, (List.mem_singleton.mp hs).symm⟩
  · exact hold hs

/-- Turns on whole GOPs keep the indices right. -/
theorem Indexed.turns {a : FrameRing} (h : Indexed a) (hinv : RingInv fs a)
    (hturns : GopTurns a r) : Indexed r := by
  obtain ⟨hlisted, hstored⟩ := (indexed_iff_stored hinv).mp h
  refine (indexed_iff_stored (hturns.ringInv hinv)).mpr ⟨hturns.listed hinv hlisted, ?_⟩
  have hleaves := hturns.leaves hinv
  obtain ⟨gone, hgone, -⟩ := hleaves.starts
  have hsorted := (keySeqs_pairwise fs).sublist
    (hturns.ringInv hinv).gopStarts_suffix.sublist
  intro s hs
  obtain ⟨g, hg, hseq⟩ := hstored s (by rw [hgone]; exact List.mem_append_right _ hs)
  refine ⟨g, ?_, hseq⟩
  rw [hleaves.slots]
  refine List.mem_filter.mpr ⟨hg, ?_⟩
  -- it is not before the oldest GOP start that is left
  rcases hr : r.gopStarts with _ | ⟨start, gs⟩
  · rw [hr] at hs
    cases hs
  · rw [hr] at hs hsorted
    have hle : start ≤ g.seq := by
      rw [hseq]
      rcases List.mem_cons.mp hs with rfl | hs
      · exact le_rfl
      · exact ((List.pairwise_cons.mp hsorted).1 s hs).le
    simp [hle]

/-- Turns on whole GOPs leave the frame just pushed. -/
theorem mem_slots_of_turns (hinv : RingInv fs r) {r₁ : FrameRing}
    (hturns : GopTurns (r.append f) r₁) :
    StoredFrame.ofMediaFrame r.writeSeq f ∈ r₁.slots := by
  have hinv₀ := hinv.append f
  have hleaves := hturns.leaves hinv₀
  obtain ⟨gone, hgone, hnil⟩ := hleaves.starts
  have hslots : (r.append f).slots = r.slots ++ [StoredFrame.ofMediaFrame r.writeSeq f] := rfl
  rw [hleaves.slots, hslots]
  refine List.mem_filter.mpr ⟨List.mem_append_right _ (List.mem_singleton_self _), ?_⟩
  rcases hr : r₁.gopStarts with _ | ⟨start, gs⟩
  · rw [hr, hnil hr] at hgone
    simp [isLeading, hgone]
  · -- its number is the largest
    have hstart : start ∈ keySeqs (fs ++ [f]) :=
      (hturns.ringInv hinv₀).gopStarts_suffix.subset (by rw [hr]; exact List.mem_cons_self)
    have hlt := lt_of_mem_keySeqs hstart
    rw [List.length_append, List.length_singleton, ← hinv.writeSeq_eq] at hlt
    simp [Nat.le_of_lt_succ hlt]

/-- A drop from the front that stops at the newest key frame keeps the indices right. -/
theorem indexed_evictFront (hinv : RingInv fs r) (hlisted : Listed r)
    (hgop : r.gopStarts.length ≤ 1) (hflag : flaggedAt fs (newestKey fs) = true) :
    Indexed r.evictFrontUntilKeyframeOrEmpty := by
  have hslots := slots_evictFront hinv hgop
  rw [newestKeyFlagged_eq hinv, hflag, if_pos rfl] at hslots
  refine (indexed_iff_stored (hinv.evictFront hgop)).mpr ⟨hlisted.evictFront hgop, ?_⟩
  change ∀ s ∈ r.gopStarts, _
  intro s hs
  -- the one GOP start is the newest key frame
  have hkey := mem_keySeqs_of_flaggedAt hflag
  have hlast := hinv.getLast?_gopStarts
  have hsnew : s = newestKey fs := by
    rcases hg : r.gopStarts with _ | ⟨start, _ | ⟨stop, gs⟩⟩
    · rw [hg] at hs
      cases hs
    · rw [hg] at hs hlast
      rw [newestKey, ← hlast, List.mem_singleton.mp hs]
      rfl
    · rw [hg] at hgop
      simp at hgop
  have hlt : newestKey fs < (stamped fs).length := by
    rw [stamped_length]
    exact lt_of_mem_keySeqs hkey
  have hget := List.getElem?_eq_getElem hlt
  have hseq := seq_of_stamped_getElem? hget
  refine ⟨(stamped fs)[newestKey fs], ?_, hseq.trans hsnew.symm⟩
  rw [hslots]
  exact mem_stamped_drop.mpr ⟨List.getElem_mem hlt, hseq.ge⟩

/-- A push that returns leaves the indices right, with the frame just pushed at hand,
**exactly if** it meets the condition. -/
theorem indexed_push_iff (hinv : RingInv fs r) (h : Indexed r) (hp : r.push f = some r') :
    (Indexed r' ∧ r'.get r.writeSeq = some (StoredFrame.ofMediaFrame r.writeSeq f)) ↔
      StaysIndexed r f := by
  have hinv₀ := hinv.append f
  have hinv' := hinv.push hp
  obtain ⟨r₁, hturns, ⟨rfl, -, hfits⟩ | ⟨hfits, hlen, hgop, rfl⟩⟩ := push_cases hinv hp
  · refine iff_of_true ⟨(h.append hinv f).turns hinv₀ hturns, ?_⟩ ?_
    · exact get_eq_some_of_mem hinv' (mem_slots_of_turns hinv hturns)
    · exact hfits.imp_right .inl
  · have hinv₁ := hturns.ringInv hinv₀
    have hlisted₁ := ((indexed_iff_stored hinv₁).mp ((h.append hinv f).turns hinv₀ hturns)).1
    have hslots := slots_evictFront hinv₁ hgop
    by_cases hflag : r₁.newestKeyFlagged = true
    · rw [if_pos hflag] at hslots
      rw [newestKeyFlagged_eq hinv₁] at hflag
      refine iff_of_true ⟨indexed_evictFront hinv₁ hlisted₁ hgop hflag, ?_⟩ ?_
      · apply get_eq_some_of_mem (g := StoredFrame.ofMediaFrame r.writeSeq f) hinv'
        rw [hslots]
        refine mem_stamped_drop.mpr ⟨?_, ?_⟩
        · exact hinv₁.mem_stamped (mem_slots_of_turns hinv hturns)
        · have hlt := lt_of_mem_keySeqs (mem_keySeqs_of_flaggedAt hflag)
          rw [List.length_append, List.length_singleton, ← hinv.writeSeq_eq] at hlt
          exact Nat.le_of_lt_succ hlt
      · rw [StaysIndexed, newestKeyFlagged_eq hinv₀]
        exact .inr (.inr hflag)
    · rw [if_neg hflag] at hslots
      refine iff_of_false ?_ ?_
      · rintro ⟨-, hget⟩
        rw [FrameRing.get, hslots] at hget
        cases hget
      · rw [hturns.newestKeyFlagged hinv₀] at hflag
        rintro (hfits' | hlen' | hflag')
        · exact hfits hfits'
        · exact absurd hlen (Nat.not_lt.mpr hlen')
        · exact hflag hflag'

/-- A push that never returns meets the condition: it spins on a **flagged** key frame. -/
theorem staysIndexed_of_push_none (hinv : RingInv fs r) (hp : r.push f = none) :
    StaysIndexed r f := by
  have hinv₀ := hinv.append f
  refine .inr (.inr ?_)
  rw [newestKeyFlagged_eq hinv₀, ← newestGop_head?_flagged]
  by_contra hflag
  have hfits : NewestGopFits (r.append f).capacityFrames (r.append f).capacityBytes (fs ++ [f]) :=
    .inr (.inl (by simpa using hflag))
  have hsome : (r.push f).isSome = true :=
    (evictIfNeeded_isSome_iff _).mpr ((halts_evictStep_iff hinv₀).mpr hfits)
  rw [hp] at hsome
  cases hsome

end

/-! ## Runs of pushes -/

/-- Every push of a run that returns leaves the indices right and the frame just pushed at
hand **exactly if** every push meets the condition. -/
theorem indexed_iff (capacityFrames capacityBytes : ℕ) (fs : List MediaFrame) :
    Always push (fun r f => ∀ r', r.push f = some r' →
        Indexed r' ∧ r'.get r.writeSeq = some (StoredFrame.ofMediaFrame r.writeSeq f))
        (withCapacity capacityFrames capacityBytes) fs ↔
      Always push StaysIndexed (withCapacity capacityFrames capacityBytes) fs := by
  refine always_iff_of_inv (I := fun r => (∃ fs, RingInv fs r) ∧ Indexed r) ?_ ?_
    ⟨⟨[], .withCapacity _ _⟩, (indexed_iff_stored (.withCapacity _ _)).mpr
      ⟨.withCapacity _ _, nofun⟩⟩
  · intro r f ⟨⟨fs, hinv⟩, hidx⟩
    constructor
    · intro h
      rcases hp : r.push f with _ | r'
      · exact staysIndexed_of_push_none hinv hp
      · exact (indexed_push_iff hinv hidx hp).mp (h r' hp)
    · exact fun h r' hp => (indexed_push_iff hinv hidx hp).mpr h
  · intro r f r' ⟨⟨fs, hinv⟩, hidx⟩ hstays hp
    exact ⟨⟨_, hinv.push hp⟩, ((indexed_push_iff hinv hidx hp).mpr hstays).1⟩

/-- An IDR frame whose flag is not set. -/
def testUnflagged : MediaFrame := { testFrame true with isKeyframe := false }

/-- An IDR frame without its flag and two more frames in a ring for two: everything is
dropped, and the IDR frame **stays listed**. -/
theorem not_indexed_after_unflagged :
    ¬ Always push (fun r f => ∀ r', r.push f = some r' →
        Indexed r' ∧ r'.get r.writeSeq = some (StoredFrame.ofMediaFrame r.writeSeq f))
      (withCapacity 2 1024) [testUnflagged, testFrame false, testFrame false] := by
  intro h
  obtain ⟨r, hr⟩ : ∃ r, exec push (withCapacity 2 1024)
      [testUnflagged, testFrame false] = some r := ⟨_, rfl⟩
  have hpush := always_iff.mp h _ (testFrame false) ⟨[], rfl⟩ r hr
  obtain rfl := Option.some.inj hr
  have hstarts := (hpush _ rfl).1.gopStarts
  revert hstarts
  decide

end VcpMediaServer
