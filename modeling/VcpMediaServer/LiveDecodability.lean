import VcpMediaServer.LiveDelivery

/-!
# Decodability of live delivery

A video frame that is not an IDR frame refers to the video frame before it. A live reader
hands over a single one as it is, whatever became of the frame before: the range that was
read last may have lost **all** its video, for want of an IDR frame, and eviction may have
taken a part of the range.

* `Precedes` — the video frame published right before another.
* `InStep` — the video published last before the cursor has been handed over.
* `DispatchReader.KeepsReferences` — the condition on a call: it loses no video that a
  later frame refers to.
* `LiveDelivery.Decodable` — each frame of a batch comes after the one it refers to.
* `decodable_of_keepsReferences` — under the condition every batch of every run is.
-/

namespace VcpMediaServer

open FrameRing Lts

/-- There is no playable video among the frames. -/
def NoVideo (l : List StoredFrame) : Prop := ∀ g ∈ l, g.isPlayableVideo = false

instance (l : List StoredFrame) : Decidable (NoVideo l) :=
  inferInstanceAs (Decidable (∀ g ∈ l, g.isPlayableVideo = false))

/-- Of the playable video published before `f`, the frame `g` is the last. -/
def Precedes (published : List MediaFrame) (g f : StoredFrame) : Prop :=
  g.isPlayableVideo = true ∧ g.seq < f.seq ∧
    ∀ k ∈ stamped published, k.isPlayableVideo = true → k.seq < f.seq → k.seq ≤ g.seq

instance (published : List MediaFrame) (g f : StoredFrame) :
    Decidable (Precedes published g f) :=
  inferInstanceAs (Decidable (_ ∧ _ ∧ _))

/-- The frame can be decoded after the frames `before`, if it is video: it is an IDR frame,
or the first video, or `before` has the frame that it refers to. -/
def DecodableAfter (published : List MediaFrame) (before : List StoredFrame) (f : StoredFrame) :
    Prop :=
  f.isPlayableVideo = true → f.isPlayableIdr = false →
    NoVideo before ∨ ∃ g ∈ before, Precedes published g f

instance (published : List MediaFrame) (before : List StoredFrame) (f : StoredFrame) :
    Decidable (DecodableAfter published before f) :=
  inferInstanceAs (Decidable (_ → _ → _))

/-- No playable video published under a number from `a` to `b` has been evicted. -/
def VideoWhole (published : List MediaFrame) (ring : FrameRing) (a b : ℕ) : Prop :=
  ∀ k ∈ stamped published, k.isPlayableVideo = true → a ≤ k.seq → k.seq ≤ b → k ∈ ring.slots

instance (published : List MediaFrame) (ring : FrameRing) (a b : ℕ) :
    Decidable (VideoWhole published ring a b) :=
  inferInstanceAs (Decidable (∀ k ∈ stamped published, _ → _ → _ → _))

/-- Of the playable video published before the cursor, the last has been handed over, if
any has. -/
def InStep (published : List MediaFrame) (delivered : List StoredFrame) (cursor : ℕ) : Prop :=
  NoVideo delivered ∨
    ∃ g ∈ delivered, g.isPlayableVideo = true ∧ g.seq < cursor ∧ cursor ≤ published.length ∧
      ∀ k ∈ stamped published, k.isPlayableVideo = true → k.seq < cursor → k.seq ≤ g.seq

theorem NoVideo.append {l l' : List StoredFrame} (h : NoVideo l) (h' : NoVideo l') :
    NoVideo (l ++ l') := by
  intro g hg
  rcases List.mem_append.mp hg with hg | hg
  · exact h g hg
  · exact h' g hg

theorem noVideo_nonVideo (l : List StoredFrame) : NoVideo (nonVideo l) := fun g hg => by
  simpa using (List.mem_filter.mp hg).2

/-- There is no video among the frames, or a last one. -/
theorem noVideo_or_exists_last {l : List StoredFrame}
    (h : l.Pairwise fun f g => f.seq < g.seq) :
    NoVideo l ∨ ∃ g ∈ l, g.isPlayableVideo = true ∧
      ∀ k ∈ l, k.isPlayableVideo = true → k.seq ≤ g.seq := by
  rcases List.eq_nil_or_concat' (videoOf l) with hnil | ⟨init, g, hlast⟩
  · left
    intro g hg
    simpa using List.filter_eq_nil_iff.mp hnil g hg
  · right
    have hg : g ∈ videoOf l := by
      rw [hlast]
      exact List.mem_append_right _ (List.mem_singleton_self g)
    have hsorted : (videoOf l).Pairwise fun f g => f.seq < g.seq := h.sublist List.filter_sublist
    refine ⟨g, (List.mem_filter.mp hg).1, (List.mem_filter.mp hg).2, fun k hk hkv => ?_⟩
    have hk : k ∈ videoOf l := List.mem_filter.mpr ⟨hk, hkv⟩
    rw [hlast] at hk hsorted
    rcases List.mem_append.mp hk with hk | hk
    · exact ((List.pairwise_append.mp hsorted).2.2 k hk g (List.mem_singleton_self g)).le
    · rw [List.mem_singleton.mp hk]

section

variable {published : List MediaFrame} {h : StreamHub} {r r' : DispatchReader}
  {delivered batch : List StoredFrame} {cursor stop : ℕ}

/-! ## A range of which no video is gone -/

/-- The video published in the range is **in the range**. -/
theorem VideoWhole.mem (hw : VideoWhole published h.ring cursor stop) {k : StoredFrame}
    (hk : k ∈ stamped published) (hv : k.isPlayableVideo = true) (hlo : cursor ≤ k.seq)
    (hhi : k.seq ≤ stop) : k ∈ h.framesFrom cursor stop :=
  mem_framesFrom.mpr ⟨hw k hk hv hlo hhi, hlo, hhi⟩

/-- A frame of the range, where no video comes between it and the cursor. -/
theorem InStep.decodableAfter (hin : InStep published delivered cursor) {pre : List StoredFrame}
    {f : StoredFrame} (hpre : NoVideo pre) (hlo : cursor ≤ f.seq)
    (hnone : ∀ k ∈ stamped published, k.isPlayableVideo = true → cursor ≤ k.seq →
      ¬ k.seq < f.seq) : DecodableAfter published (delivered ++ pre) f := by
  intro _ _
  rcases hin with hno | ⟨g, hg, hgv, hlt, -, hlast⟩
  · exact .inl (hno.append hpre)
  · refine .inr ⟨g, List.mem_append_left _ hg, hgv, hlt.trans_le hlo, fun k hk hkv hkf => ?_⟩
    by_cases hkc : k.seq < cursor
    · exact hlast k hk hkv hkc
    · exact absurd hkf (hnone k hk hkv (Nat.le_of_not_lt hkc))

/-- Handing over all of a range, each video frame comes after the one it refers to. -/
theorem InStep.decodable_range (hin : InStep published delivered cursor)
    (hinv : RingInv published h.ring) (hw : VideoWhole published h.ring cursor stop)
    {pre post : List StoredFrame} {f : StoredFrame}
    (hsplit : h.framesFrom cursor stop = pre ++ f :: post) :
    DecodableAfter published (delivered ++ pre) f := by
  have hsorted := DispatchReader.framesFrom_pairwise (h := h) hinv cursor stop
  have hf : f ∈ h.framesFrom cursor stop := by
    rw [hsplit]
    exact List.mem_append_right _ List.mem_cons_self
  obtain ⟨-, hlo, hhi⟩ := mem_framesFrom.mp hf
  -- published video of the range before `f` comes before it
  have hmem : ∀ k ∈ stamped published, k.isPlayableVideo = true → cursor ≤ k.seq →
      k.seq < f.seq → k ∈ pre := by
    intro k hk hkv hkc hkf
    have hkr := hw.mem hk hkv hkc (hkf.le.trans hhi)
    rw [hsplit] at hkr hsorted
    have htail := (List.pairwise_append.mp hsorted).2.1
    rcases List.mem_append.mp hkr with hkr | hkr
    · exact hkr
    · rcases List.mem_cons.mp hkr with rfl | hkr
      · exact absurd hkf (lt_irrefl _)
      · exact absurd ((List.pairwise_cons.mp htail).1 k hkr) (Nat.lt_asymm hkf)
  have hpre : pre.Pairwise fun f g => f.seq < g.seq := by
    rw [hsplit] at hsorted
    exact (List.pairwise_append.mp hsorted).1
  rcases noVideo_or_exists_last hpre with hno | ⟨g, hg, hgv, hlast⟩
  · refine hin.decodableAfter hno hlo fun k hk hkv hkc hkf => ?_
    have hnot := hno k (hmem k hk hkv hkc hkf)
    rw [hkv] at hnot
    cases hnot
  · intro _ _
    refine .inr ⟨g, List.mem_append_right _ hg, hgv, ?_, fun k hk hkv hkf => ?_⟩
    · rw [hsplit] at hsorted
      exact (List.pairwise_append.mp hsorted).2.2 g hg f List.mem_cons_self
    · by_cases hkc : k.seq < cursor
      · have hgr : g ∈ h.framesFrom cursor stop := by
          rw [hsplit]
          exact List.mem_append_left _ hg
        exact hkc.le.trans (mem_framesFrom.mp hgr).2.1
      · exact hlast k (hmem k hk hkv (Nat.le_of_not_lt hkc) hkf) hkv

/-- What has been handed over stays in step, if the video of the range is among it and the
last of that is the last published. -/
theorem InStep.next (hin : InStep published delivered cursor) (hcs : cursor ≤ stop + 1)
    (hstop : stop + 1 ≤ published.length)
    (hlast : (NoVideo batch ∧ (NoVideo delivered ∨ ∀ k ∈ stamped published,
        k.isPlayableVideo = true → cursor ≤ k.seq → ¬ k.seq ≤ stop)) ∨
      ∃ g ∈ batch, g.isPlayableVideo = true ∧ g.seq ≤ stop ∧ ∀ k ∈ stamped published,
        k.isPlayableVideo = true → k.seq ≤ stop → k.seq ≤ g.seq) :
    InStep published (delivered ++ batch) (stop + 1) := by
  rcases hlast with ⟨hno, hbefore⟩ | ⟨g, hg, hgv, hgs, hlast⟩
  · rcases hin with hnone | ⟨g, hg, hgv, hlt, -, hlast⟩
    · exact .inl (hnone.append hno)
    · rcases hbefore with hnone | hbefore
      · rw [hnone g hg] at hgv
        cases hgv
      · refine .inr ⟨g, List.mem_append_left _ hg, hgv, hlt.trans_le hcs, hstop,
          fun k hk hkv hks => ?_⟩
        by_cases hkc : k.seq < cursor
        · exact hlast k hk hkv hkc
        · exact absurd (Nat.le_of_lt_succ hks) (hbefore k hk hkv (Nat.le_of_not_lt hkc))
  · exact .inr ⟨g, List.mem_append_right _ hg, hgv, Nat.lt_succ_of_le hgs, hstop,
      fun k hk hkv hks => hlast k hk hkv (Nat.le_of_lt_succ hks)⟩

/-- A publish brings video from the cursor on. -/
theorem InStep.publish (hin : InStep published delivered cursor) (f : MediaFrame) :
    InStep (published ++ [f]) delivered cursor := by
  refine hin.imp_right fun ⟨g, hg, hgv, hlt, hle, hlast⟩ => ⟨g, hg, hgv, hlt, ?_, ?_⟩
  · rw [List.length_append]
    omega
  · intro k hk hkv hkc
    rw [stamped_concat] at hk
    rcases List.mem_append.mp hk with hk | hk
    · exact hlast k hk hkv hkc
    · rw [List.mem_singleton.mp hk, StoredFrame.ofMediaFrame_seq] at hkc
      omega

/-- The end of the live edge is within what is published. -/
theorem latestSeq_succ_le (hinv : RingInv published h.ring) {a b : ℕ}
    (hne : h.framesFrom a b ≠ []) : h.latestSeq + 1 ≤ published.length := by
  obtain ⟨f, hf, -⟩ := exists_of_framesFrom_ne_nil hne
  rw [StreamHub.latestSeq, hinv.latestSeq_succ hf, hinv.writeSeq_eq]

/-! ## One call -/

/-- The condition on a call, on what it finds in the ring. A **catch-up** finds all the
video of its range. Another call, if it finds anything: where it finds several video
frames, an IDR frame is among them; where it finds at most one, no video of the range is
gone, or what is gone is before an IDR frame. As long as no video has been handed over,
only what is gone **behind** the video frame found matters. -/
def DispatchReader.KeepsReferences (published : List MediaFrame) (delivered : List StoredFrame)
    (h : StreamHub) (r : DispatchReader) : Prop :=
  match r.videoCatchupUntil with
  | some until' => h.framesFrom r.cursor (min h.latestSeq until') ≠ [] →
    VideoWhole published h.ring r.cursor (min h.latestSeq until')
  | none => h.framesFrom r.cursor h.latestSeq ≠ [] →
    match videoOf (h.framesFrom r.cursor h.latestSeq) with
    | [] => NoVideo delivered ∨ VideoWhole published h.ring r.cursor h.latestSeq
    | [v] => VideoWhole published h.ring r.cursor h.latestSeq ∨
      ((v.isPlayableIdr = true ∨ NoVideo delivered) ∧
        VideoWhole published h.ring v.seq h.latestSeq)
    | videos => NoVideo delivered ∨ ∃ g ∈ videos, g.isPlayableIdr = true

instance (published : List MediaFrame) (delivered : List StoredFrame) (h : StreamHub)
    (r : DispatchReader) : Decidable (r.KeepsReferences published delivered h) :=
  match hu : r.videoCatchupUntil with
  | some until' =>
    decidable_of_iff (h.framesFrom r.cursor (min h.latestSeq until') ≠ [] →
      VideoWhole published h.ring r.cursor (min h.latestSeq until'))
      (by simp only [DispatchReader.KeepsReferences, hu])
  | none =>
    match hv : videoOf (h.framesFrom r.cursor h.latestSeq) with
    | [] =>
      decidable_of_iff (h.framesFrom r.cursor h.latestSeq ≠ [] →
        NoVideo delivered ∨ VideoWhole published h.ring r.cursor h.latestSeq)
        (by simp only [DispatchReader.KeepsReferences, hu, hv])
    | [v] =>
      decidable_of_iff (h.framesFrom r.cursor h.latestSeq ≠ [] →
        VideoWhole published h.ring r.cursor h.latestSeq ∨
          ((v.isPlayableIdr = true ∨ NoVideo delivered) ∧
            VideoWhole published h.ring v.seq h.latestSeq))
        (by simp only [DispatchReader.KeepsReferences, hu, hv])
    | v :: w :: vs =>
      decidable_of_iff (h.framesFrom r.cursor h.latestSeq ≠ [] →
        NoVideo delivered ∨ ∃ g ∈ v :: w :: vs, g.isPlayableIdr = true)
        (by simp only [DispatchReader.KeepsReferences, hu, hv])

/-- Everything of a batch can be decoded where it stands. -/
def DecodableBatch (published : List MediaFrame) (delivered batch : List StoredFrame) : Prop :=
  ∀ pre f post, batch = pre ++ f :: post → DecodableAfter published (delivered ++ pre) f

/-- A range with one video frame. -/
theorem InStep.pass_one (hin : InStep published delivered r.cursor) {v : StoredFrame}
    (hv : videoOf (h.framesFrom r.cursor h.latestSeq) = [v])
    (hcond : VideoWhole published h.ring r.cursor h.latestSeq ∨
      ((v.isPlayableIdr = true ∨ NoVideo delivered) ∧
        VideoWhole published h.ring v.seq h.latestSeq)) :
    DecodableAfter published (delivered ++ nonVideo (h.framesFrom r.cursor h.latestSeq)) v ∧
      ∀ k ∈ stamped published, k.isPlayableVideo = true → k.seq ≤ h.latestSeq →
        k.seq ≤ v.seq := by
  have hvr : v ∈ videoOf (h.framesFrom r.cursor h.latestSeq) := by
    rw [hv]
    exact List.mem_singleton_self v
  obtain ⟨hvr, -⟩ := List.mem_filter.mp hvr
  obtain ⟨-, hlo, -⟩ := mem_framesFrom.mp hvr
  -- the range has no other video
  have hone : ∀ k ∈ h.framesFrom r.cursor h.latestSeq, k.isPlayableVideo = true → k = v := by
    intro k hk hkv
    have hmem : k ∈ videoOf (h.framesFrom r.cursor h.latestSeq) := List.mem_filter.mpr ⟨hk, hkv⟩
    rw [hv] at hmem
    exact List.mem_singleton.mp hmem
  constructor
  · rcases hcond with hw | ⟨hidr | hno, -⟩
    · refine hin.decodableAfter (noVideo_nonVideo _) hlo fun k hk hkv hkc hkf => ?_
      have heq := hone k (hw.mem hk hkv hkc ?_) hkv
      · rw [heq] at hkf
        exact lt_irrefl _ hkf
      · exact hkf.le.trans (mem_framesFrom.mp hvr).2.2
    · intro _ hnot
      rw [hidr] at hnot
      cases hnot
    · exact fun _ _ => .inl (hno.append (noVideo_nonVideo _))
  · intro k hk hkv hkl
    by_contra hlt
    have hlt := Nat.lt_of_not_le hlt
    have hmem : k ∈ h.framesFrom r.cursor h.latestSeq := by
      rcases hcond with hw | ⟨-, hw⟩
      · exact hw.mem hk hkv (hlo.trans hlt.le) hkl
      · exact mem_framesFrom.mpr ⟨hw k hk hkv hlt.le hkl, hlo.trans hlt.le, hkl⟩
    rw [hone k hmem hkv] at hlt
    exact lt_irrefl _ hlt

/-- A batch without video can be decoded. -/
theorem decodableBatch_of_noVideo (hno : NoVideo batch) :
    DecodableBatch published delivered batch := by
  intro pre f post hsplit hfv
  have hnot := hno f (by rw [hsplit]; exact List.mem_append_right _ List.mem_cons_self)
  rw [hfv] at hnot
  cases hnot

/-- A batch whose last frame is its only video. -/
theorem decodableBatch_concat {v : StoredFrame} (hno : NoVideo batch)
    (hdec : DecodableAfter published (delivered ++ batch) v) :
    DecodableBatch published delivered (batch ++ [v]) := by
  intro pre f post hsplit
  rcases List.eq_nil_or_concat' post with rfl | ⟨post, g, rfl⟩
  · obtain ⟨rfl, hvf⟩ := List.append_inj' hsplit rfl
    rw [← List.singleton_inj.mp hvf]
    exact hdec
  · rw [← List.cons_append, ← List.append_assoc] at hsplit
    obtain ⟨hsplit, -⟩ := List.append_inj' hsplit rfl
    exact decodableBatch_of_noVideo hno pre f post hsplit

/-- A **catch-up** that finds all the video of its range. -/
theorem InStep.replay (hin : InStep published delivered r.cursor)
    (hinv : RingInv published h.ring) {until' : ℕ}
    (hne : h.framesFrom r.cursor (min h.latestSeq until') ≠ [])
    (hw : VideoWhole published h.ring r.cursor (min h.latestSeq until')) :
    InStep published (delivered ++ h.framesFrom r.cursor (min h.latestSeq until'))
      (min h.latestSeq until' + 1) := by
  obtain ⟨g, -, hlo, hhi⟩ := exists_of_framesFrom_ne_nil hne
  have hsorted : (h.framesFrom r.cursor (min h.latestSeq until')).Pairwise
      fun f g => f.seq < g.seq := DispatchReader.framesFrom_pairwise hinv _ _
  have hend := latestSeq_succ_le hinv hne
  apply hin.next (by omega) (by omega)
  rcases noVideo_or_exists_last hsorted with hno | ⟨g, hg, hgv, hlast⟩
  · refine .inl ⟨hno, .inr fun k hk hkv hkc hks => ?_⟩
    have hnot := hno k (hw.mem hk hkv hkc hks)
    rw [hkv] at hnot
    cases hnot
  · obtain ⟨-, hglo, hghi⟩ := mem_framesFrom.mp hg
    refine .inr ⟨g, hg, hgv, hghi, fun k hk hkv hks => ?_⟩
    by_cases hkc : k.seq < r.cursor
    · exact hkc.le.trans hglo
    · exact hlast k (hw.mem hk hkv (Nat.le_of_not_lt hkc) hks) hkv

/-- A range without video. -/
theorem InStep.pass_none (hin : InStep published delivered r.cursor)
    (hinv : RingInv published h.ring) (hne : h.framesFrom r.cursor h.latestSeq ≠ [])
    (hv : videoOf (h.framesFrom r.cursor h.latestSeq) = [])
    (hcond : NoVideo delivered ∨ VideoWhole published h.ring r.cursor h.latestSeq) :
    InStep published (delivered ++ nonVideo (h.framesFrom r.cursor h.latestSeq))
      (h.latestSeq + 1) := by
  obtain ⟨g, -, hlo, hhi⟩ := exists_of_framesFrom_ne_nil hne
  refine hin.next (by omega) (latestSeq_succ_le hinv hne) (.inl ⟨noVideo_nonVideo _, ?_⟩)
  refine hcond.imp_right fun hw k hk hkv hkc hks => ?_
  have hmem : k ∈ videoOf (h.framesFrom r.cursor h.latestSeq) :=
    List.mem_filter.mpr ⟨hw.mem hk hkv hkc hks, hkv⟩
  rw [hv] at hmem
  cases hmem

/-- A call that passes on its range, with at most one video frame in it. -/
theorem InStep.pass (hin : InStep published delivered r.cursor)
    (hinv : RingInv published h.ring) (hne : h.framesFrom r.cursor h.latestSeq ≠ [])
    (few : (videoOf (h.framesFrom r.cursor h.latestSeq)).length ≤ 1)
    (hk : match videoOf (h.framesFrom r.cursor h.latestSeq) with
      | [] => NoVideo delivered ∨ VideoWhole published h.ring r.cursor h.latestSeq
      | [v] => VideoWhole published h.ring r.cursor h.latestSeq ∨
        ((v.isPlayableIdr = true ∨ NoVideo delivered) ∧
          VideoWhole published h.ring v.seq h.latestSeq)
      | videos => NoVideo delivered ∨ ∃ g ∈ videos, g.isPlayableIdr = true) :
    DecodableBatch published delivered (nonVideo (h.framesFrom r.cursor h.latestSeq) ++
        videoOf (h.framesFrom r.cursor h.latestSeq)) ∧
      InStep published (delivered ++ (nonVideo (h.framesFrom r.cursor h.latestSeq) ++
        videoOf (h.framesFrom r.cursor h.latestSeq))) (h.latestSeq + 1) := by
  have hno := noVideo_nonVideo (h.framesFrom r.cursor h.latestSeq)
  rcases hv : videoOf (h.framesFrom r.cursor h.latestSeq) with _ | ⟨v, _ | ⟨v', vs⟩⟩
  · rw [hv] at hk
    rw [List.append_nil]
    exact ⟨decodableBatch_of_noVideo hno, hin.pass_none hinv hne hv hk⟩
  · rw [hv] at hk
    obtain ⟨hdec, hlast⟩ := hin.pass_one hv hk
    obtain ⟨hvr, hvv⟩ := List.mem_filter.mp
      (show v ∈ videoOf (h.framesFrom r.cursor h.latestSeq) from hv ▸ List.mem_singleton_self v)
    obtain ⟨-, hlo, hhi⟩ := mem_framesFrom.mp hvr
    refine ⟨decodableBatch_concat hno hdec,
      hin.next (by omega) (latestSeq_succ_le hinv hne) (.inr ⟨v, ?_, hvv, hhi, hlast⟩)⟩
    exact List.mem_append_right _ (List.mem_singleton_self v)
  · rw [hv] at few
    simp at few

/-- One call that meets the condition, and flags no resync, hands over what can be decoded,
and leaves the reader in step. -/
theorem InStep.liveBatch (hin : InStep published delivered r.cursor)
    (hinv : RingInv published h.ring) (hb : LiveBatch h r batch r')
    (hflag : r'.pendingMuxerResync = false) (hk : r.KeepsReferences published delivered h) :
    DecodableBatch published delivered batch ∧
      InStep published (delivered ++ batch) r'.cursor := by
  unfold DispatchReader.KeepsReferences at hk
  cases hb with
  | idle rest => exact ⟨decodableBatch_of_noVideo nofun, by rwa [List.append_nil]⟩
  | jump free lt le seqs stored => cases hflag
  | replay running ne =>
    rw [running] at hk
    have hw := hk ne
    exact ⟨fun pre f post hsplit => hin.decodable_range hinv hw hsplit, hin.replay hinv ne hw⟩
  | pass free ne few =>
    rw [free] at hk
    exact hin.pass hinv ne few (hk ne)
  | collapse free many mem key =>
    next idr =>
    obtain ⟨hslot, hlo, hhi⟩ := mem_framesFrom.mp mem
    have hend := latestSeq_succ_le hinv (List.ne_nil_of_mem mem)
    refine ⟨?_, .inr ⟨idr, ?_, StoredFrame.isPlayableVideo_of_isPlayableIdr key,
      Nat.lt_succ_self _, (Nat.succ_le_succ hhi).trans hend, fun k _ _ hks =>
        Nat.le_of_lt_succ hks⟩⟩
    · refine decodableBatch_concat (noVideo_nonVideo _) fun _ hnot => ?_
      rw [key] at hnot
      cases hnot
    · exact List.mem_append_right _ (List.mem_append_right _ (List.mem_singleton_self idr))
  | dropVideo free many blind =>
    rw [free] at hk
    have hno := noVideo_nonVideo (h.framesFrom r.cursor h.latestSeq)
    have hne : h.framesFrom r.cursor h.latestSeq ≠ [] := by
      intro hnil
      rw [hnil] at many
      cases many
    have hk := hk hne
    refine ⟨decodableBatch_of_noVideo hno, ?_⟩
    rcases hv : videoOf (h.framesFrom r.cursor h.latestSeq) with _ | ⟨v, _ | ⟨v', vs⟩⟩
    · rw [hv] at many
      simp at many
    · rw [hv] at many
      simp at many
    · rw [hv] at hk
      rcases hk with hnone | ⟨g, hg, hidr⟩
      · exact .inl (hnone.append hno)
      · rw [← hv] at hg
        rw [blind g (List.mem_filter.mp hg).1] at hidr
        cases hidr

end

/-! ## Runs -/

namespace LiveDelivery

/-- The batch of the step, if it makes one, comes without the resync flag. -/
def NoResync (s : LiveDelivery) (l : LiveStep) : Prop :=
  ∀ batch r, s.received l = some (batch, r) → r.takeMuxerResync.1 = false

/-- Each frame of the batch can be decoded where it stands. -/
def Decodable (s : LiveDelivery) (l : LiveStep) : Prop :=
  ∀ batch r, s.received l = some (batch, r) → DecodableBatch s.published s.delivered batch

/-- The condition on a step: the call loses no video that a later frame refers to. -/
def KeepsReferences (s : LiveDelivery) (l : LiveStep) : Prop :=
  ∀ r, s.receiving l = some r → r.KeepsReferences s.published s.delivered s.hub

instance (s : LiveDelivery) (l : LiveStep) : Decidable (s.NoResync l) :=
  decidable_of_iff (∀ p ∈ s.received l, p.2.takeMuxerResync.1 = false)
    ⟨fun h batch r hr => h (batch, r) hr, fun h p hp => h p.1 p.2 hp⟩

instance (s : LiveDelivery) (l : LiveStep) : Decidable (s.KeepsReferences l) :=
  inferInstanceAs (Decidable (∀ r ∈ s.receiving l, r.KeepsReferences s.published s.delivered s.hub))

/-- The invariant: the reader stands where it should, and is in step. -/
structure InvInStep (s : LiveDelivery) : Prop extends s.Inv where
  /-- The video before the cursor has been handed over to its end. -/
  inStep : ∀ u, s.reader = some u → InStep s.published s.delivered u.reader.cursor

variable {s s' : LiveDelivery} {l : LiveStep} {r r' : DispatchReader} {batch : List StoredFrame}

theorem InvInStep.receiving (hi : s.InvInStep) (h : s.receiving l = some r) :
    InStep s.published s.delivered r.cursor := by
  cases l with
  | publish f => cases h
  | join r => cases h
  | recv =>
    obtain ⟨u, hu, h⟩ := Option.bind_eq_some_iff.mp h
    rw [Option.ite_none_right_eq_some] at h
    obtain rfl := Option.some.inj h.2
    exact hi.inStep u hu
  | wake =>
    obtain ⟨u, hu, h⟩ := Option.bind_eq_some_iff.mp h
    rw [Option.ite_none_right_eq_some] at h
    obtain rfl := Option.some.inj h.2
    exact hi.inStep u hu

/-- A batch under the condition: it can be decoded, and taking it keeps the reader in
step. -/
theorem InvInStep.received (hi : s.InvInStep) (hn : s.NoResync l) (hk : s.KeepsReferences l)
    (h : s.received l = some (batch, r')) :
    DecodableBatch s.published s.delivered batch ∧ (s.take batch r').InvInStep := by
  obtain ⟨r, hr, hb⟩ := hi.toInv.liveBatch h
  obtain ⟨hdec, hin⟩ := (hi.receiving hr).liveBatch hi.ring hb (hn batch r' h) (hk r hr)
  refine ⟨hdec, hi.toInv.take h, fun u hu => ?_⟩
  obtain rfl := Option.some.inj hu
  exact hin

/-- **Every step** that meets the condition keeps the invariant. -/
theorem InvInStep.step (hi : s.InvInStep) (hn : s.NoResync l) (hk : s.KeepsReferences l)
    (h : s.step l = some s') : s'.InvInStep := by
  refine ⟨hi.toInv.step h, ?_⟩
  cases l with
  | publish f =>
    obtain ⟨hub, -, rfl⟩ := Option.map_eq_some_iff.mp h
    exact fun u hu => (hi.inStep u hu).publish f
  | join r =>
    rw [LiveDelivery.step, Option.ite_none_right_eq_some] at h
    obtain ⟨⟨hnone, -⟩, h⟩ := h
    obtain rfl := Option.some.inj h
    refine fun _ _ => .inl ?_
    change NoVideo s.delivered
    rw [hi.none hnone]
    intro g hg
    cases hg
  | recv =>
    obtain ⟨u, hu, rfl⟩ := Option.map_eq_some_iff.mp h
    rcases hrec : s.received .recv with _ | ⟨batch, r⟩
    · intro v hv
      obtain rfl := Option.some.inj hv
      exact hi.inStep u hu
    · exact (hi.received hn hk hrec).2.inStep
  | wake =>
    obtain ⟨⟨batch, r⟩, hrec, rfl⟩ := Option.map_eq_some_iff.mp h
    exact (hi.received hn hk hrec).2.inStep

/-- In every run that flags no resync and in which every call meets the condition, each
video frame handed over can be decoded after the frames handed over before it. -/
theorem decodable_of_keepsReferences (stream : Stream) (ls : List LiveStep)
    (hn : Always LiveDelivery.step NoResync (LiveDelivery.init stream) ls)
    (hk : Always LiveDelivery.step KeepsReferences (LiveDelivery.init stream) ls) :
    Always LiveDelivery.step Decodable (LiveDelivery.init stream) ls := by
  have hboth : Always LiveDelivery.step (fun s l => s.NoResync l ∧ s.KeepsReferences l)
      (LiveDelivery.init stream) ls :=
    always_iff.mpr fun pre l hpre s hs =>
      ⟨always_iff.mp hn pre l hpre s hs, always_iff.mp hk pre l hpre s hs⟩
  refine always_of_inv (I := InvInStep)
    (fun s l hi hg batch r hrec => (hi.received hg.1 hg.2 hrec).1)
    (fun s l s' hi hg h => hi.step hg.1 hg.2 h) ⟨Inv.init stream, nofun⟩ hboth

/-- A key frame and a video frame, each read before the next one comes: nothing is lost. -/
theorem decodable_in_step :
    Always LiveDelivery.step Decodable (LiveDelivery.init (StreamHub.new "live").stream)
      [.join (DispatchReader.new (StreamHub.new "live") .liveCoalesce),
        .publish Delivery.audioFrame, .publish (testFrame true), .recv,
        .publish (testFrame false), .recv] :=
  decodable_of_keepsReferences _ _ (by decide) (by decide)

/-- The video frames behind a key frame are lost, two at a time, and the one after them is
handed over. -/
theorem not_decodable_after_drop :
    Always LiveDelivery.step NoResync (LiveDelivery.init (StreamHub.new "live").stream)
        [.join (DispatchReader.new (StreamHub.new "live") .liveCoalesce),
          .publish Delivery.audioFrame, .publish (testFrame true), .recv,
          .publish (testFrame false), .publish (testFrame false), .recv,
          .publish (testFrame false), .recv] ∧
      ¬ Always LiveDelivery.step Decodable (LiveDelivery.init (StreamHub.new "live").stream)
        [.join (DispatchReader.new (StreamHub.new "live") .liveCoalesce),
          .publish Delivery.audioFrame, .publish (testFrame true), .recv,
          .publish (testFrame false), .publish (testFrame false), .recv,
          .publish (testFrame false), .recv] := by
  refine ⟨by decide, fun h => ?_⟩
  obtain ⟨s, hs⟩ : ∃ s, exec LiveDelivery.step (LiveDelivery.init (StreamHub.new "live").stream)
      [.join (DispatchReader.new (StreamHub.new "live") .liveCoalesce),
        .publish Delivery.audioFrame, .publish (testFrame true), .recv,
        .publish (testFrame false), .publish (testFrame false), .recv,
        .publish (testFrame false)] = some s := ⟨_, rfl⟩
  have hdec := always_iff.mp h _ .recv ⟨[], rfl⟩ s hs
  obtain rfl := Option.some.inj hs
  exact absurd (hdec _ _ rfl [] _ [] rfl) (by decide)

end LiveDelivery

end VcpMediaServer
