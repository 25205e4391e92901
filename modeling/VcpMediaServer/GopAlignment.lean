import VcpMediaServer.GopEviction
import VcpMediaServer.Lts

/-!
# Holes

The readers of a ring take it that only whole GOPs leave, and from the front. Dropping
GOPs opens a **hole** between the frames before the first key frame and the GOPs that are
left.

* `GopAligned` — no hole, and the oldest frame is a key frame once frames are gone.
* `KeepsAligned` — the condition on a push.
* `gopAligned_push_iff` — what one push does to an aligned ring.
* `gopAligned_iff` — along every run of pushes the ring is aligned **exactly if** no push
  drops GOPs from behind other frames, and no key frame comes to other frames after a
  drop.
-/

namespace VcpMediaServer

open FrameRing Lts

/-! ## Consecutive numbers -/

/-- The slots carry consecutive numbers, up to the one assigned last. -/
def Consecutive (r : FrameRing) : Prop :=
  r.slots.map StoredFrame.seq = List.range' (r.writeSeq - r.slots.length) r.slots.length

instance (r : FrameRing) : Decidable (Consecutive r) := inferInstanceAs (Decidable (_ = _))

/-- Frames are gone while a key frame is stored, so that the oldest frame **must be** one. -/
def StartsWithKey (r : FrameRing) : Prop :=
  r.slots.length < r.writeSeq → (∃ f ∈ r.slots, f.isVideoKeyframe = true) →
    (r.slots.head?.any StoredFrame.isVideoKeyframe) = true

instance (r : FrameRing) : Decidable (StartsWithKey r) := inferInstanceAs (Decidable (_ → _ → _))

/-- Only whole GOPs have left, and from the front. -/
structure GopAligned (r : FrameRing) : Prop where
  consecutive : Consecutive r
  startsWithKey : StartsWithKey r

section

variable {fs : List MediaFrame} {r r' : FrameRing} {f : MediaFrame}

/-- The numbers of the end of a history. -/
theorem map_seq_stamped_drop (fs : List MediaFrame) (t : ℕ) :
    ((stamped fs).drop t).map StoredFrame.seq = List.range' t (fs.length - t) := by
  refine List.ext_getElem? fun i => ?_
  rw [List.getElem?_map, List.getElem?_drop, stamped_getElem?, Option.map_map]
  by_cases hi : i < fs.length - t
  · rw [List.getElem?_range' hi, List.getElem?_eq_getElem (by omega)]
    simp
  · rw [List.getElem?_eq_none (by omega), List.getElem?_eq_none (by simpa using hi)]
    rfl

/-- The slots are consecutive **exactly if** they are the end of the history. -/
theorem consecutive_iff (hinv : RingInv fs r) :
    Consecutive r ↔ ∃ t, r.slots = (stamped fs).drop t := by
  have hlen : r.slots.length ≤ fs.length := by
    rw [← stamped_length fs]
    exact hinv.slots_sublist.length_le
  constructor
  · intro hseq
    refine ⟨fs.length - r.slots.length, List.ext_getElem? fun i => ?_⟩
    rw [List.getElem?_drop]
    rcases hi : r.slots[i]? with _ | s
    · have hge := List.getElem?_eq_none_iff.mp hi
      rw [List.getElem?_eq_none (by rw [stamped_length]; omega)]
    · have hlt := (List.getElem?_eq_some_iff.mp hi).1
      have hs : s.seq = fs.length - r.slots.length + i := by
        have hmap := congrArg (fun l => l[i]?) hseq
        simp only [List.getElem?_map, hi, Option.map_some] at hmap
        rw [List.getElem?_range' hlt, hinv.writeSeq_eq] at hmap
        simpa using hmap
      rw [← hs, stamped_getElem?_seq (hinv.mem_stamped (List.mem_of_getElem? hi))]
  · rintro ⟨t, ht⟩
    have hslen : r.slots.length = fs.length - t := by
      rw [ht, List.length_drop, stamped_length]
    rw [Consecutive, hinv.writeSeq_eq, hslen, ht, map_seq_stamped_drop]
    by_cases hle : t ≤ fs.length
    · rw [Nat.sub_sub_self hle]
    · rw [Nat.sub_eq_zero_of_le (by omega)]
      rfl

/-- The end of a history from a number on. -/
theorem filter_seq_stamped_drop (fs : List MediaFrame) {t s : ℕ} (h : t ≤ s) :
    ((stamped fs).drop t).filter (fun f => s ≤ f.seq) = (stamped fs).drop s := by
  have hsplit : (stamped fs).drop t = ((stamped fs).drop t).take (s - t) ++
      (stamped fs).drop s := by
    have hdrop : (stamped fs).drop s = ((stamped fs).drop t).drop (s - t) := by
      rw [List.drop_drop, Nat.add_sub_cancel' h]
    rw [hdrop, List.take_append_drop]
  rw [hsplit, List.filter_append, List.filter_eq_nil_iff.mpr, List.nil_append,
    List.filter_eq_self.mpr]
  · intro f hf
    simpa using (mem_stamped_drop.mp hf).2
  · intro f hf
    obtain ⟨i, hi⟩ := List.mem_iff_getElem?.mp hf
    rw [List.getElem?_take, Option.ite_none_right_eq_some, List.getElem?_drop] at hi
    obtain ⟨hlt, hi⟩ := hi
    have hseq := seq_of_stamped_getElem? hi
    simp
    omega

/-- The end of a history from a key frame on begins with that. -/
theorem head?_stamped_drop {s : ℕ} (hs : s ∈ keySeqs fs) :
    (((stamped fs).drop s).head?.any StoredFrame.isVideoKeyframe) = true := by
  have hlt : s < (stamped fs).length := by
    rw [stamped_length]
    exact lt_of_mem_keySeqs hs
  rw [List.head?_drop, List.getElem?_eq_getElem hlt, Option.any_some,
    isVideoKeyframe_of_stamped (List.getElem_mem hlt),
    seq_of_stamped_getElem? (List.getElem?_eq_getElem hlt)]
  exact hs

/-- A ring that holds the history from a key frame on is aligned. -/
theorem gopAligned_of_drop (hinv : RingInv fs r) {s : ℕ} (hs : s ∈ keySeqs fs)
    (hslots : r.slots = (stamped fs).drop s) : GopAligned r where
  consecutive := (consecutive_iff hinv).mpr ⟨s, hslots⟩
  startsWithKey _ _ := by
    rw [hslots]
    exact head?_stamped_drop hs

/-- An empty ring is aligned. -/
theorem gopAligned_of_nil (h : r.slots = []) : GopAligned r where
  consecutive := by
    rw [Consecutive, h]
    rfl
  startsWithKey _ hkey := by
    rw [h] at hkey
    obtain ⟨f, hf, -⟩ := hkey
    cases hf

/-! ## Alignment -/

/-- The condition on a push. If it evicts, whole GOPs **alone** do not make room for the
frames before the first GOP start, or there are none; if it does not, and frames are gone,
a key frame comes to an empty ring, or to another key frame. -/
def KeepsAligned (r : FrameRing) (f : MediaFrame) : Prop :=
  if (r.append f).needsEvict = true then
    1 < (r.append f).gopStarts.length → (r.append f).CoreFits → (r.append f).leading = []
  else
    r.slots.length < r.writeSeq → VcpMediaServer.isVideoKeyframe f = true →
      r.slots = [] ∨ ∃ g ∈ r.slots, g.isVideoKeyframe = true

instance (r : FrameRing) (f : MediaFrame) : Decidable (KeepsAligned r f) := by
  unfold KeepsAligned
  split <;> infer_instance

/-- Appending a frame to consecutive ones. -/
theorem slots_append_of_consecutive (hinv : RingInv fs r) (h : Consecutive r) (f : MediaFrame) :
    ∃ t, (r.append f).slots = (stamped (fs ++ [f])).drop t := by
  obtain ⟨t, ht⟩ := (consecutive_iff hinv).mp h
  have hslots : (r.append f).slots = r.slots ++ [StoredFrame.ofMediaFrame r.writeSeq f] := rfl
  rcases Nat.le_total t fs.length with hle | hle
  · refine ⟨t, ?_⟩
    rw [hslots, ht, stamped_concat, hinv.writeSeq_eq,
      List.drop_append_of_le_length (by rwa [stamped_length])]
  · refine ⟨fs.length, ?_⟩
    rw [hslots, ht, stamped_concat, hinv.writeSeq_eq,
      List.drop_append_of_le_length (by rw [stamped_length]),
      List.drop_eq_nil_of_le (by rwa [stamped_length]),
      List.drop_eq_nil_of_le (by rw [stamped_length])]

/-- Appending a frame, with nothing evicted. -/
theorem gopAligned_append_iff (hinv : RingInv fs r) (h : GopAligned r) (f : MediaFrame) :
    GopAligned (r.append f) ↔
      (r.slots.length < r.writeSeq → VcpMediaServer.isVideoKeyframe f = true →
        r.slots = [] ∨ ∃ g ∈ r.slots, g.isVideoKeyframe = true) := by
  have hslots : (r.append f).slots = r.slots ++ [StoredFrame.ofMediaFrame r.writeSeq f] := rfl
  have hlen : (r.append f).slots.length = r.slots.length + 1 := List.length_append
  have hseq : (r.append f).writeSeq = r.writeSeq + 1 := rfl
  constructor
  · intro ha hgone hkey
    by_contra hne
    obtain ⟨hnil, hnone⟩ := not_or.mp hne
    have hstart := ha.startsWithKey (by rw [hlen, hseq]; exact Nat.succ_lt_succ hgone)
      ⟨StoredFrame.ofMediaFrame r.writeSeq f,
        by rw [hslots]; exact List.mem_append_right _ (List.mem_singleton_self _), hkey⟩
    rw [hslots, List.head?_append_of_ne_nil _ hnil] at hstart
    obtain ⟨g, hg, hgk⟩ := (Option.any_eq_true _ _).mp hstart
    exact hnone ⟨g, List.mem_of_head? hg, hgk⟩
  · intro hcond
    constructor
    · exact (consecutive_iff (hinv.append f)).mpr
        (slots_append_of_consecutive hinv h.consecutive f)
    · intro hgone ⟨g, hg, hgk⟩
      rw [hlen, hseq] at hgone
      have hgone := Nat.lt_of_succ_lt_succ hgone
      rw [hslots] at hg ⊢
      by_cases hnil : r.slots = []
      · rw [hnil, List.nil_append] at hg ⊢
        obtain rfl := List.mem_singleton.mp hg
        simpa using hgk
      · rw [List.head?_append_of_ne_nil _ hnil]
        apply h.startsWithKey hgone
        rcases List.mem_append.mp hg with hg | hg
        · exact ⟨g, hg, hgk⟩
        · obtain rfl := List.mem_singleton.mp hg
          exact (hcond hgone hgk).resolve_left hnil

/-- Where turns take out the first GOP start and leave another one, a ring without a hole
had **nothing** before the first. -/
theorem leading_eq_nil_of_turns {a : FrameRing} (hinv : RingInv fs a) (hturns : GopTurns a r)
    {start s : ℕ} {gone gs : List ℕ} (hgone : a.gopStarts = start :: (gone ++ s :: gs))
    (hr : r.gopStarts = s :: gs) (hstart : start < s) (hslen : start < (stamped fs).length)
    (ha : GopAligned r) : a.leading = [] := by
  have hslots := (hturns.leaves hinv).slots
  by_contra hlead
  obtain ⟨f, hf⟩ := List.exists_mem_of_ne_nil _ hlead
  obtain ⟨hf, hl⟩ := List.mem_filter.mp hf
  have hfr : f ∈ r.slots := by
    rw [hslots]
    exact List.mem_filter.mpr ⟨hf, by rw [hl, Bool.true_or]⟩
  have hbefore : f.seq < start := by
    simp only [isLeading, List.all_eq_true, decide_eq_true_eq] at hl
    exact hl start (by rw [hgone]; exact List.mem_cons_self)
  -- so the first GOP start would be stored, and it has been dropped
  obtain ⟨t, ht⟩ := (consecutive_iff (hturns.ringInv hinv)).mp ha.consecutive
  have hseq := seq_of_stamped_getElem? (List.getElem?_eq_getElem hslen)
  have hin : (stamped fs)[start] ∈ r.slots := by
    rw [ht] at hfr ⊢
    refine mem_stamped_drop.mpr ⟨List.getElem_mem hslen, ?_⟩
    have hle := (mem_stamped_drop.mp hfr).2
    omega
  rw [hslots] at hin
  obtain ⟨-, hkeep⟩ := List.mem_filter.mp hin
  rw [hr, Bool.or_eq_true] at hkeep
  rcases hkeep with hkeep | hkeep
  · simp only [isLeading, List.all_eq_true, decide_eq_true_eq] at hkeep
    have hself := hkeep start (by rw [hgone]; exact List.mem_cons_self)
    omega
  · simp only [List.head?_cons, Option.any_some, decide_eq_true_eq] at hkeep
    omega

/-- Turns on whole GOPs leave an aligned ring **exactly if** nothing is stored before the
first GOP start. -/
theorem gopAligned_of_turns {a : FrameRing} (hinv : RingInv fs a) (hlisted : Listed a)
    {t : ℕ} (ht : a.slots = (stamped fs).drop t) (hturns : GopTurns a r)
    (hlt : r.gopStarts.length < a.gopStarts.length) : GopAligned r ↔ a.leading = [] := by
  have hinv' := hturns.ringInv hinv
  obtain ⟨gone, hgone, hnil⟩ := (hturns.leaves hinv).starts
  have hslots := (hturns.leaves hinv).slots
  rcases hr : r.gopStarts with _ | ⟨s, gs⟩
  · rw [hgone, hr, hnil hr] at hlt
    simp at hlt
  rcases gone with _ | ⟨start, gone⟩
  · rw [hgone] at hlt
    simp at hlt
  rw [hr, List.cons_append] at hgone
  -- the oldest GOP start left is stored, since it is not the first one
  have hmem : s ∈ a.gopStarts.tail := by
    rw [hgone]
    simp
  obtain ⟨g, hg, hseq⟩ := hlisted.stored s hmem
  have hts : t ≤ s := by
    rw [ht] at hg
    rw [← hseq]
    exact (mem_stamped_drop.mp hg).2
  have hsorted := (keySeqs_pairwise fs).sublist hinv.gopStarts_suffix.sublist
  rw [hgone] at hsorted
  have hstart : start < s := (List.pairwise_cons.mp hsorted).1 s (by simp)
  constructor
  · apply leading_eq_nil_of_turns hinv hturns hgone hr hstart
    have hslt := seq_lt_of_mem_stamped (hinv.mem_stamped hg)
    rw [stamped_length]
    omega
  · intro hlead
    refine gopAligned_of_drop hinv' (hinv'.gopStarts_suffix.subset ?_) (s := s) ?_
    · rw [hr]
      exact List.mem_cons_self
    · rw [← filter_seq_stamped_drop fs hts, ← ht, hslots, hr]
      refine List.filter_congr fun f hf => ?_
      have hl : a.isLeading f = false := by
        have hnone := List.filter_eq_nil_iff.mp hlead f hf
        simpa using hnone
      rw [hl, Bool.false_or]
      rfl

/-- A core that does not fit is over the limits with everything else. -/
theorem needsEvict_of_not_coreFits (hinv : RingInv fs r) (h : ¬ r.CoreFits) :
    r.needsEvict = true := by
  by_contra hover
  obtain ⟨hframes, hbytes⟩ := needsEvict_eq_false_iff.mp (by simpa using hover)
  rw [hinv.bytesUsed_eq] at hbytes
  exact h ⟨(List.filter_sublist (l := r.slots)).length_le.trans hframes,
    (storedBytes_le_of_sublist List.filter_sublist).trans hbytes⟩

/-- Where several GOP starts are known and the core is a single frame, that is the newest
one of them, and **nothing** is stored before the first. -/
theorem leading_eq_nil_of_core (hlisted : Listed r) (hgop : 1 < r.gopStarts.length)
    (hlen : r.core.length ≤ 1) : r.leading = [] := by
  obtain ⟨s, hlast, hs⟩ := exists_getLast?_mem_tail hgop
  obtain ⟨g, hg, hseq⟩ := hlisted.stored s hs
  have hgcore : g ∈ r.core := by
    refine List.mem_filter.mpr ⟨hg, ?_⟩
    rw [inNewestGop, hlast, Option.any_some, hseq]
    simp
  refine List.eq_nil_iff_forall_not_mem.mpr fun f hf => ?_
  obtain ⟨hf, hl⟩ := List.mem_filter.mp hf
  have hfcore : f ∈ r.core := List.mem_filter.mpr ⟨hf, by rw [hl, Bool.true_or]⟩
  -- two frames of the core are one
  obtain ⟨c, hc⟩ := List.length_eq_one_iff.mp
    (Nat.le_antisymm hlen (List.length_pos_of_mem hgcore))
  rw [hc, List.mem_singleton] at hgcore hfcore
  simp only [isLeading, List.all_eq_true, decide_eq_true_eq] at hl
  have hlt := hl s (List.mem_of_getLast? hlast)
  rw [hfcore, ← hgcore, hseq] at hlt
  exact lt_irrefl _ hlt

/-- A push that returns leaves an aligned ring aligned **exactly if** it meets the
condition. -/
theorem gopAligned_push_iff (hinv : RingInv fs r) (hlisted : Listed r) (h : GopAligned r)
    (hp : r.push f = some r') : GopAligned r' ↔ KeepsAligned r f := by
  obtain ⟨r₁, hturns, hcases⟩ := push_cases hinv hp
  have hinv₀ := hinv.append f
  have hlisted₀ := hlisted.append f
  have hinv₁ := hturns.ringInv hinv₀
  rcases hcases with ⟨rfl, hstop, hfits⟩ | ⟨hfits, -, hgop, rfl⟩
  · rcases hturns.eq_or_length_lt with rfl | ⟨hover, hlt⟩
    · rcases hover : (r.append f).needsEvict with _ | _
      · rw [KeepsAligned, hover, if_neg Bool.false_ne_true]
        exact gopAligned_append_iff hinv h f
      · -- nothing could be dropped: the frame is alone
        rw [KeepsAligned, if_pos hover]
        rcases evictStep_eq_none_iff.mp hstop with hfree | ⟨hgop, hlen⟩
        · rw [hover] at hfree
          cases hfree
        · refine iff_of_true ((gopAligned_append_iff hinv h f).mpr fun _ _ => .inl ?_) fun hlt => ?_
          · have hlen' : (r.append f).slots.length = r.slots.length + 1 := List.length_append
            exact List.length_eq_zero_iff.mp (by omega)
          · omega
    · obtain ⟨t, ht⟩ := slots_append_of_consecutive hinv h.consecutive f
      rw [gopAligned_of_turns hinv₀ hlisted₀ ht hturns hlt, KeepsAligned, if_pos hover]
      refine ⟨fun hlead _ _ => hlead, fun hcond => ?_⟩
      -- a turn was taken, so there were several GOP starts
      have hgops := hturns.one_lt_of_length_lt hinv₀ hlt
      rcases hfits with hfits | hlen
      · exact hcond hgops hfits
      · exact leading_eq_nil_of_core hlisted₀ hgops hlen
  · rw [KeepsAligned, if_pos (needsEvict_of_not_coreFits hinv₀ hfits)]
    refine iff_of_true ?_ fun _ hfits' => absurd hfits' hfits
    have hinv₂ := hinv₁.evictFront hgop
    have hslots := slots_evictFront hinv₁ hgop
    by_cases hflag : r₁.newestKeyFlagged = true
    · rw [if_pos hflag] at hslots
      rw [newestKeyFlagged_eq hinv₁] at hflag
      exact gopAligned_of_drop hinv₂ (mem_keySeqs_of_flaggedAt hflag) hslots
    · rw [if_neg hflag] at hslots
      exact gopAligned_of_nil hslots

/-- The newest GOP is **part of the core** where its key frame carries its flag. -/
theorem newestGop_sublist_core (hinv : RingInv fs r)
    (hflag : flaggedAt fs (newestKey fs) = true) :
    ((stamped fs).drop (newestKey fs)).Sublist r.core := by
  obtain ⟨pre, t, hslots, -, -, -, -, ht⟩ := hinv.tail
  obtain rfl := ht hflag
  have hlast : r.gopStarts.getLast? = some (newestKey fs) := by
    rw [hinv.getLast?_gopStarts]
    rcases hk : (keySeqs fs).getLast? with _ | k
    · exact absurd (List.getLast?_eq_none_iff.mp hk) (keySeqs_ne_nil_of_flaggedAt hflag)
    · rw [newestKey, hk, Option.getD_some]
  have hall : ((stamped fs).drop (newestKey fs)).filter
      (fun f => r.isLeading f || r.inNewestGop f) = (stamped fs).drop (newestKey fs) := by
    refine List.filter_eq_self.mpr fun f hf => ?_
    rw [inNewestGop, hlast, Option.any_some, decide_eq_true (mem_stamped_drop.mp hf).2,
      Bool.or_true]
  rw [core, hslots, List.filter_append, hall]
  exact List.sublist_append_right _ _

/-- A push whose core fits **returns**. -/
theorem push_isSome_of_coreFits (hinv : RingInv fs r) (h : (r.append f).CoreFits) :
    (r.push f).isSome = true := by
  have hinv₀ := hinv.append f
  apply (push_isSome_iff r f).mpr
  rw [PushReturns, turnsShrink_iff_halts, and_self, halts_evictStep_iff hinv₀, NewestGopFits,
    newestGop_head?_flagged]
  rcases hflag : flaggedAt (fs ++ [f]) (newestKey (fs ++ [f])) with _ | _
  · exact .inr (.inl rfl)
  · have hsub := newestGop_sublist_core hinv₀ hflag
    have hlen := hsub.length_le
    have hbytes := storedBytes_le_of_sublist hsub
    rw [List.length_drop, stamped_length, ← List.length_drop,
      ← newestGop_of_keySeqs (keySeqs_ne_nil_of_flaggedAt hflag)] at hlen
    rw [storedBytes_stamped_drop, ← newestGop_of_keySeqs (keySeqs_ne_nil_of_flaggedAt hflag)]
      at hbytes
    exact .inr (.inr ⟨hlen.trans h.1, hbytes.trans h.2⟩)

/-- A push that never returns meets the condition, for its core does not fit. -/
theorem keepsAligned_of_push_none (hinv : RingInv fs r) (hp : r.push f = none) :
    KeepsAligned r f := by
  have hfits : ¬ (r.append f).CoreFits := by
    intro hfits
    have hsome := push_isSome_of_coreFits hinv hfits
    rw [hp] at hsome
    cases hsome
  rw [KeepsAligned, if_pos (needsEvict_of_not_coreFits (hinv.append f) hfits)]
  exact fun _ hfits' => absurd hfits' hfits

end

/-! ## Runs of pushes -/

/-- Every push of a run that returns leaves the ring aligned **exactly if** every push
meets the condition. -/
theorem gopAligned_iff (capacityFrames capacityBytes : ℕ) (fs : List MediaFrame) :
    Always push (fun r f => ∀ r', r.push f = some r' → GopAligned r')
        (withCapacity capacityFrames capacityBytes) fs ↔
      Always push KeepsAligned (withCapacity capacityFrames capacityBytes) fs := by
  refine always_iff_of_inv (I := fun r => (∃ fs, RingInv fs r) ∧ Listed r ∧ GopAligned r)
    ?_ ?_ ⟨⟨[], .withCapacity _ _⟩, .withCapacity _ _, gopAligned_of_nil rfl⟩
  · intro r f ⟨⟨fs, hinv⟩, hlisted, ha⟩
    constructor
    · intro h
      rcases hp : r.push f with _ | r'
      · exact keepsAligned_of_push_none hinv hp
      · exact (gopAligned_push_iff hinv hlisted ha hp).mp (h r' hp)
    · exact fun h r' hp => (gopAligned_push_iff hinv hlisted ha hp).mpr h
  · intro r f r' ⟨⟨fs, hinv⟩, hlisted, ha⟩ hkeeps hp
    exact ⟨⟨_, hinv.push hp⟩, hlisted.push hinv hp,
      (gopAligned_push_iff hinv hlisted ha hp).mpr hkeeps⟩

/-- An AAC frame of three bytes. -/
def testAudio : MediaFrame := MediaFrame.new "s1" 1 0 [0xAF, 0x01, 0x21] false .aac

/-- An audio frame and three key frames in a ring for three: the first GOP is dropped
from **behind** the audio frame. -/
theorem not_gopAligned_after_audio :
    ¬ Always push (fun r f => ∀ r', r.push f = some r' → GopAligned r') (withCapacity 3 1024)
      [testAudio, testFrame true, testFrame true, testFrame true] := by
  intro h
  obtain ⟨r, hr⟩ : ∃ r, exec push (withCapacity 3 1024)
      [testAudio, testFrame true, testFrame true] = some r := ⟨_, rfl⟩
  have hpush := always_iff.mp h _ (testFrame true) ⟨[], rfl⟩ r hr
  obtain rfl := Option.some.inj hr
  have hole := (hpush _ rfl).consecutive
  revert hole
  decide

end VcpMediaServer
