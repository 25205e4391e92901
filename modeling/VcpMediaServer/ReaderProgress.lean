import VcpMediaServer.SequentialDelivery

/-!
# Progress of readers

A consumer calls `recv_batch` again as soon as it gets an empty batch. While
`ensure_data` returns at once it never waits in between, so that a call which changes
nothing is repeated **for ever**. A catch-up whose range is gone, or was empty from
the start, is such a call: it neither moves the cursor nor ends the catch-up.

* `DispatchReader.Progress` — one call hands over frames, moves the cursor or ends the
  catch-up.
* `DispatchReader.retry` — the loop of a consumer on an empty batch.
* `DispatchReader.CanRead` — what the reader needs to find in the ring.
* `progress_iff_canRead` — in every state that a hub and its readers get to, that is
  exactly when the call makes progress, and exactly when the loop is left.
-/

namespace VcpMediaServer

open FuelLoop Lts

namespace RingInv

open FrameRing

variable {fs : List MediaFrame} {r : FrameRing}

/-- There is at most one frame under a number. -/
theorem framesFrom_self_length (h : RingInv fs r) (n : ℕ) : (r.framesFrom n n).length ≤ 1 := by
  have hsorted : (r.framesFrom n n).Pairwise fun a b => a.seq < b.seq :=
    h.slots_pairwise.sublist List.filter_sublist
  rcases hf : r.framesFrom n n with _ | ⟨f, _ | ⟨g, l⟩⟩
  · exact Nat.zero_le _
  · exact le_rfl
  · rw [hf] at hsorted
    have hlt := (List.pairwise_cons.mp hsorted).1 g List.mem_cons_self
    have hf' := mem_framesFrom.mp (show f ∈ r.framesFrom n n by rw [hf]; exact List.mem_cons_self)
    have hg' := mem_framesFrom.mp (show g ∈ r.framesFrom n n by rw [hf]; simp)
    omega

/-- Where anything is stored, the frame **pushed last** is. -/
theorem latest_stored (h : RingInv fs r) (hne : r.slots ≠ []) :
    ∃ f ∈ r.slots, f.seq = r.latestSeq := by
  obtain ⟨pre, t, hslots, hkt, htl, hpre, hnil, -⟩ := h.tail
  have hlt : t < fs.length := by
    by_contra hge
    have heq : t = fs.length := le_antisymm htl (not_lt.mp hge)
    -- then nothing is stored from `t` on, and so nothing at all
    have hdrop : (stamped fs).drop t = [] := List.drop_eq_nil_of_le (by rw [stamped_length, heq])
    rw [hdrop, List.append_nil] at hslots
    obtain ⟨f, hf⟩ := List.exists_mem_of_ne_nil _ hne
    have hseq := seq_lt_of_mem_stamped (h.mem_stamped hf)
    have hnew := hpre f (hslots ▸ hf)
    refine hne (hslots.trans (hnil ?_))
    rcases hk : (keySeqs fs).getLast? with _ | k
    · rw [newestKey, hk] at hnew
      cases hnew
    · have hklt := lt_of_mem_keySeqs (List.mem_of_getLast? hk)
      rw [newestKey, hk, Option.getD_some, heq]
      exact hklt
  have hlast : fs.length - 1 < (stamped fs).length := by
    rw [stamped_length]
    omega
  have hseq : (stamped fs)[fs.length - 1].seq = fs.length - 1 :=
    seq_of_stamped_getElem? (List.getElem?_eq_getElem hlast)
  refine ⟨(stamped fs)[fs.length - 1], ?_, ?_⟩
  · rw [hslots]
    refine List.mem_append_right _ (mem_stamped_drop.mpr ⟨List.getElem_mem hlast, ?_⟩)
    omega
  · rw [hseq, latestSeq, h.writeSeq_eq]

end RingInv

namespace DispatchReader

variable {fs : List MediaFrame} {h : StreamHub} {r : DispatchReader}

/-- One call hands over frames, moves the cursor on, or ends the catch-up. -/
def Progress (h : StreamHub) (r : DispatchReader) : Prop :=
  (r.recvBatch h).1 ≠ [] ∨ r.cursor < (r.recvBatch h).2.cursor ∨
    (r.videoCatchupUntil ≠ none ∧ (r.recvBatch h).2.videoCatchupUntil = none)

/-- The loop of a consumer while the hub stays as it is: an empty batch that was not
waited for is followed by the next call. -/
def retry (h : StreamHub) (r : DispatchReader) : Option DispatchReader :=
  if r.ensureReady h = true ∧ (r.recvBatch h).1 = [] then some (r.recvBatch h).2 else none

/-- What the reader needs to find in the ring. In a catch-up, a frame from the cursor
to its end; with a sequential policy, one among as many as a batch takes, and for WebRTC
that under the cursor, unless all that is stored is behind the cursor, or the lag is big
enough for a snap. -/
def CanRead (h : StreamHub) (r : DispatchReader) : Prop :=
  match r.policy, r.videoCatchupUntil with
  | .liveCoalesce, some until' => ∃ f ∈ h.ring.slots, r.cursor ≤ f.seq ∧ f.seq ≤ until'
  | .liveCoalesce, none => True
  | .webRtcPlay, _ =>
    WEBRTC_LAG_SNAP_THRESHOLD < h.latestSeq - r.cursor ∨
      (∃ f ∈ h.ring.slots, f.seq = r.cursor) ∨ ∀ f ∈ h.ring.slots, r.cursor < f.seq
  | _, _ =>
    (∃ f ∈ h.ring.slots, r.cursor ≤ f.seq ∧ f.seq < r.cursor + MAX_SEQUENTIAL_BATCH) ∨
      ∀ f ∈ h.ring.slots, r.cursor < f.seq

instance (h : StreamHub) (r : DispatchReader) : Decidable (r.CanRead h) := by
  unfold CanRead
  split <;> infer_instance

/-! ## The gap branch -/

theorem ensureReady_iff : r.ensureReady h = true ↔ h.ring.slots ≠ [] ∧ r.cursor ≤ h.latestSeq := by
  simp [ensureReady, StreamHub.isEmpty, FrameRing.isEmpty]

/-- A frame that is stored at the cursor or before keeps the gap branch from jumping. -/
theorem jumpToIdr_of_le (hinv : RingInv fs h.ring) {f : StoredFrame} (hf : f ∈ h.ring.slots)
    (hle : f.seq ≤ r.cursor) : r.jumpToIdr h = ([], r) := by
  have hsorted := hinv.slots_pairwise
  rcases hs : h.ring.slots with _ | ⟨g, l⟩
  · rw [hs] at hf
    cases hf
  · have hold : h.oldestSeq = some g.seq := by
      rw [StreamHub.oldestSeq, FrameRing.oldestSeq, hs]
      rfl
    have hg : g.seq ≤ f.seq := by
      rw [hs] at hf hsorted
      rcases List.mem_cons.mp hf with rfl | hmem
      · exact le_rfl
      · exact Nat.le_of_lt ((List.pairwise_cons.mp hsorted).1 f hmem)
    rw [jumpToIdr, hold]
    exact if_neg (Nat.not_lt.mpr (hg.trans hle))

/-- Where all that is stored is behind the cursor, the gap branch hands over frames. -/
theorem jumpToIdr_of_lt (hinv : RingInv fs h.ring) (hne : h.ring.slots ≠ [])
    (hlt : ∀ f ∈ h.ring.slots, r.cursor < f.seq) : (r.jumpToIdr h).1 ≠ [] := by
  rcases jumpToIdr_cases (r := r) hinv with heq | ⟨lo, hi, hle, -, hseqs, -⟩
  · -- it jumps, since the oldest frame is behind the cursor
    exfalso
    rcases hs : h.ring.slots with _ | ⟨g, l⟩
    · exact hne hs
    · have hold : h.oldestSeq = some g.seq := by
        rw [StreamHub.oldestSeq, FrameRing.oldestSeq, hs]
        rfl
      have hg := hlt g (by rw [hs]; exact List.mem_cons_self)
      have hcursor : (r.jumpToIdr h).2.cursor ≠ r.cursor := by
        rw [jumpToIdr, hold]
        dsimp only
        rw [if_pos hg]
        split
        · split
          · simp only [ne_eq]
            omega
          · simp only [ne_eq]
            omega
        · simp only [ne_eq]
          omega
      exact hcursor (by rw [heq])
  · intro hnil
    rw [hnil, span_cons hle] at hseqs
    cases hseqs

/-! ## Coalescing -/

/-- A batch with at most one video frame loses nothing. -/
theorem coalesceStored_ne_nil {frames : List StoredFrame} (hne : frames ≠ [])
    (hlen : (frames.filter StoredFrame.isPlayableVideo).length ≤ 1) :
    coalesceStored frames ≠ [] := by
  rw [coalesceStored, coalesceBy_of_few hlen]
  intro hnil
  obtain ⟨hother, hvideo⟩ := List.append_eq_nil_iff.mp hnil
  -- a frame is either video or not
  obtain ⟨f, hf⟩ := List.exists_mem_of_ne_nil _ hne
  have hfo := List.filter_eq_nil_iff.mp hother f hf
  rw [eq_false_of_ne_true (List.filter_eq_nil_iff.mp hvideo f hf)] at hfo
  exact hfo rfl

/-- A batch with a key frame passes one on. -/
theorem coalesceStored_ne_nil_of_idr {frames : List StoredFrame} {f : StoredFrame}
    (hf : f ∈ frames) (hidr : f.isPlayableIdr = true) : coalesceStored frames ≠ [] := by
  have hvideo : f.isPlayableVideo = true := (Bool.and_eq_true_iff.mp hidr).1
  have hmem : f ∈ frames.filter StoredFrame.isPlayableVideo := List.mem_filter.mpr ⟨hf, hvideo⟩
  by_cases hlen : (frames.filter StoredFrame.isPlayableVideo).length ≤ 1
  · rw [coalesceStored, coalesceBy_of_few hlen]
    exact List.ne_nil_of_mem (List.mem_append_right _ hmem)
  · rw [coalesceStored, coalesceBy_of_many (Nat.lt_of_not_le hlen)]
    rcases hfind :
      (frames.filter StoredFrame.isPlayableVideo).reverse.find? StoredFrame.isPlayableIdr with _ | k
    · exact absurd hidr (List.find?_eq_none.mp hfind f (List.mem_reverse.mpr hmem))
    · exact List.append_ne_nil_of_right_ne_nil _ (List.cons_ne_nil k [])

/-- A frame that `last_playable_idr_seq` finds is in the range. -/
theorem exists_of_lastPlayableIdrSeq {a b n : ℕ} (hidr : lastPlayableIdrSeq h a b = some n) :
    ∃ f ∈ h.framesFrom a b, f.seq = n ∧ f.isPlayableIdr = true := by
  have hmem := List.mem_of_find?_eq_some hidr
  have hany := List.find?_some hidr
  rw [List.mem_reverse, List.mem_range'_1] at hmem
  obtain ⟨f, hget, hf⟩ := (Option.any_eq_true _ _).mp hany
  obtain ⟨hslot, rfl⟩ := FrameRing.mem_of_get hget
  exact ⟨f, FrameRing.mem_framesFrom.mpr ⟨hslot, hmem.1, by omega⟩, rfl, hf⟩

/-- A coalesced batch that ends at the live edge is not empty, or puts the reader
**behind** it. -/
theorem deliver_coalesced (hpolicy : r.policy = .liveCoalesce) {stop : ℕ}
    (hne : h.framesFrom r.cursor stop ≠ []) :
    (r.deliver h (h.framesFrom r.cursor stop) stop).1 ≠ [] ∨
      (r.deliver h (h.framesFrom r.cursor stop) stop).2.cursor = stop + 1 := by
  simp only [deliver, hpolicy]
  split
  · split
    · next n hidr =>
      obtain ⟨f, hf, -, hfi⟩ := exists_of_lastPlayableIdrSeq hidr
      exact .inl (coalesceStored_ne_nil_of_idr hf hfi)
    · exact .inr rfl
  · next hlen => exact .inl (coalesceStored_ne_nil hne (Nat.le_of_not_lt hlen))

/-! ## One call -/

theorem recvBatch_of_catchup (hp : r.policy = .liveCoalesce) {until' : ℕ}
    (hu : r.videoCatchupUntil = some until') : r.recvBatch h = r.recvCatchup h until' := by
  simp only [recvBatch, hp, hu]

theorem recvBatch_of_free (hu : r.videoCatchupUntil = none) : r.recvBatch h = r.recvRange h := by
  unfold recvBatch
  split
  · next until' _ hu' =>
    rw [hu] at hu'
    cases hu'
  · rfl

theorem recvBatch_of_ne (hp : r.policy ≠ .liveCoalesce) : r.recvBatch h = r.recvRange h := by
  unfold recvBatch
  split
  · next hp' _ => exact absurd hp' hp
  · rfl

/-- A call outside a catch-up, for a reader that does not snap. -/
theorem recvRange_of_snapOnLag (hsnap : r.snapOnLag h = r) (hle : r.cursor ≤ h.latestSeq) :
    r.recvRange h =
      if h.framesFrom r.cursor (r.batchEnd h) = [] then r.jumpToIdr h
      else r.deliver h (h.framesFrom r.cursor (r.batchEnd h)) (r.batchEnd h) := by
  rw [recvRange, hsnap]
  dsimp only
  rw [if_neg (Nat.not_lt.mpr hle)]

/-- A snap puts the reader **behind** the live edge. -/
theorem recvRange_of_lag (hp : r.policy = .webRtcPlay)
    (hlag : WEBRTC_LAG_SNAP_THRESHOLD < h.latestSeq - r.cursor) :
    (r.recvRange h).2.cursor = h.latestSeq + 1 := by
  have hsnapped : (r.snapOnLag h).cursor = h.latestSeq + 1 := by
    rw [snapOnLag, if_pos ⟨hp, hlag⟩]
    rfl
  rw [recvRange]
  dsimp only
  rw [if_pos (by rw [hsnapped]; exact Nat.lt_succ_self _), hsnapped]

/-- Where nothing of the range is stored, but something before it is, nothing happens. -/
theorem recvRange_of_nil (hinv : RingInv fs h.ring) (hsnap : r.snapOnLag h = r)
    (hle : r.cursor ≤ h.latestSeq) (hnil : h.framesFrom r.cursor (r.batchEnd h) = [])
    (hbefore : ¬ ∀ f ∈ h.ring.slots, r.cursor < f.seq) : r.recvRange h = ([], r) := by
  simp only [not_forall, not_lt] at hbefore
  obtain ⟨f, hf, hfle⟩ := hbefore
  rw [recvRange_of_snapOnLag hsnap hle, if_pos hnil]
  exact jumpToIdr_of_le hinv hf hfle

/-- The range of a sequential policy is that of `MAX_SEQUENTIAL_BATCH` numbers. -/
theorem framesFrom_batchEnd_ne_nil_iff (hinv : RingInv fs h.ring)
    (hp : r.policy.isSequential = true) :
    h.framesFrom r.cursor (r.batchEnd h) ≠ [] ↔
      ∃ f ∈ h.ring.slots, r.cursor ≤ f.seq ∧ f.seq < r.cursor + MAX_SEQUENTIAL_BATCH := by
  have hend : r.batchEnd h = min h.latestSeq (r.cursor + (MAX_SEQUENTIAL_BATCH - 1)) := by
    rw [batchEnd]
    revert hp
    rcases r.policy with _ | _ | _ | _ <;> simp [DispatchPolicy.isSequential]
  rw [hend]
  constructor
  · intro hne
    obtain ⟨f, hf, hlo, hhi⟩ := FrameRing.exists_of_framesFrom_ne_nil hne
    refine ⟨f, hf, hlo, ?_⟩
    simp only [MAX_SEQUENTIAL_BATCH] at hhi ⊢
    omega
  · rintro ⟨f, hf, hlo, hhi⟩
    have hlatest := hinv.latestSeq_succ hf
    have hflt := hinv.seq_lt_writeSeq hf
    refine List.ne_nil_of_mem (FrameRing.mem_framesFrom.mpr ⟨hf, hlo, ?_⟩)
    rw [StreamHub.latestSeq]
    simp only [MAX_SEQUENTIAL_BATCH] at hhi ⊢
    omega

/-- The range of a WebRTC reader is the number under its cursor. -/
theorem framesFrom_self_ne_nil_iff :
    h.framesFrom r.cursor r.cursor ≠ [] ↔ ∃ f ∈ h.ring.slots, f.seq = r.cursor := by
  constructor
  · intro hne
    obtain ⟨f, hf, hlo, hhi⟩ := FrameRing.exists_of_framesFrom_ne_nil hne
    exact ⟨f, hf, le_antisymm hhi hlo⟩
  · rintro ⟨f, hf, hseq⟩
    exact List.ne_nil_of_mem (FrameRing.mem_framesFrom.mpr ⟨hf, hseq.ge, hseq.le⟩)

/-- The range of a catch-up goes to its end. -/
theorem framesFrom_catchup_ne_nil_iff (hinv : RingInv fs h.ring) (until' : ℕ) :
    h.framesFrom r.cursor (min h.latestSeq until') ≠ [] ↔
      ∃ f ∈ h.ring.slots, r.cursor ≤ f.seq ∧ f.seq ≤ until' := by
  constructor
  · intro hne
    obtain ⟨f, hf, hlo, hhi⟩ := FrameRing.exists_of_framesFrom_ne_nil hne
    exact ⟨f, hf, hlo, hhi.trans (Nat.min_le_right _ _)⟩
  · rintro ⟨f, hf, hlo, hhi⟩
    have hlatest := hinv.latestSeq_succ hf
    have hflt := hinv.seq_lt_writeSeq hf
    refine List.ne_nil_of_mem (FrameRing.mem_framesFrom.mpr ⟨hf, hlo, ?_⟩)
    rw [StreamHub.latestSeq]
    omega

/-- What a reader that does not coalesce the backlog needs, in terms of its own range. -/
theorem canRead_iff_of_ne (hinv : RingInv fs h.ring) (hp : r.policy ≠ .liveCoalesce) :
    r.CanRead h ↔
      (r.policy = .webRtcPlay ∧ WEBRTC_LAG_SNAP_THRESHOLD < h.latestSeq - r.cursor) ∨
        h.framesFrom r.cursor (r.batchEnd h) ≠ [] ∨ ∀ f ∈ h.ring.slots, r.cursor < f.seq := by
  rcases hpol : r.policy with _ | _ | _ | _
  · exact absurd hpol hp
  · rw [framesFrom_batchEnd_ne_nil_iff hinv (by rw [hpol]; rfl)]
    simp [CanRead, hpol]
  · have hend : r.batchEnd h = r.cursor := by rw [batchEnd, hpol]
    rw [hend, framesFrom_self_ne_nil_iff]
    simp only [CanRead, hpol, true_and]
  · rw [framesFrom_batchEnd_ne_nil_iff hinv (by rw [hpol]; rfl)]
    simp [CanRead, hpol]

/-- Without what it needs, a call gives nothing and **changes nothing**. -/
theorem recvBatch_of_not_canRead (hinv : RingInv fs h.ring) (hr : r.ensureReady h = true)
    (hn : ¬ r.CanRead h) : r.recvBatch h = ([], r) := by
  obtain ⟨-, hle⟩ := ensureReady_iff.mp hr
  by_cases hp : r.policy = .liveCoalesce
  · -- only in a catch-up does a live reader need anything
    rcases hu : r.videoCatchupUntil with _ | until'
    · simp [CanRead, hp, hu] at hn
    · simp only [CanRead, hp, hu] at hn
      rw [← framesFrom_catchup_ne_nil_iff hinv, not_ne_iff] at hn
      rw [recvBatch_of_catchup hp hu, recvCatchup]
      dsimp only
      rw [if_neg (Nat.not_lt.mpr hle), if_pos hn]
  · rw [canRead_iff_of_ne hinv hp, not_or, not_or, not_ne_iff] at hn
    obtain ⟨hlag, hnil, hbefore⟩ := hn
    rw [recvBatch_of_ne hp]
    exact recvRange_of_nil hinv (by rw [snapOnLag, if_neg hlag]) hle hnil hbefore

/-- A reader that does not coalesce the backlog hands over what it finds. -/
theorem deliver_ne_nil (hinv : RingInv fs h.ring) (hp : r.policy ≠ .liveCoalesce)
    (hne : h.framesFrom r.cursor (r.batchEnd h) ≠ []) :
    (r.deliver h (h.framesFrom r.cursor (r.batchEnd h)) (r.batchEnd h)).1 ≠ [] := by
  unfold deliver
  split
  · next hpol => exact absurd hpol hp
  · next hpol =>
    -- there is one frame under a number
    have hend : r.batchEnd h = r.cursor := by rw [batchEnd, hpol]
    rw [hend] at hne ⊢
    exact coalesceStored_ne_nil hne
      ((List.length_filter_le _ _).trans (hinv.framesFrom_self_length r.cursor))
  · exact hne
  · exact hne

/-- A live reader outside a catch-up reads to the live edge, where the frame pushed last
is. -/
theorem recvBatch_live (hinv : RingInv fs h.ring) (hr : r.ensureReady h = true)
    (hp : r.policy = .liveCoalesce) (hu : r.videoCatchupUntil = none) :
    (r.recvBatch h).1 ≠ [] ∨ (r.recvBatch h).2.cursor = h.latestSeq + 1 := by
  obtain ⟨hne, hle⟩ := ensureReady_iff.mp hr
  have hend : r.batchEnd h = h.latestSeq := by rw [batchEnd, hp]
  have hframes : h.framesFrom r.cursor h.latestSeq ≠ [] := by
    obtain ⟨f, hf, hseq⟩ := hinv.latest_stored hne
    refine List.ne_nil_of_mem (FrameRing.mem_framesFrom.mpr ⟨hf, ?_, hseq.le⟩)
    rw [hseq]
    exact hle
  have hsnap : r.snapOnLag h = r := by
    rw [snapOnLag, if_neg]
    rintro ⟨hp', -⟩
    rw [hp] at hp'
    cases hp'
  rw [recvBatch_of_free hu, recvRange_of_snapOnLag hsnap hle, hend, if_neg hframes]
  exact deliver_coalesced hp hframes

/-- With what it needs, a call hands over frames or puts the reader **behind the live
edge**, where it waits. -/
theorem recvBatch_of_canRead (hinv : RingInv fs h.ring) (hr : r.ensureReady h = true)
    (hc : r.CanRead h) :
    (r.recvBatch h).1 ≠ [] ∨ h.latestSeq < (r.recvBatch h).2.cursor := by
  obtain ⟨hne, hle⟩ := ensureReady_iff.mp hr
  by_cases hp : r.policy = .liveCoalesce
  · rcases hu : r.videoCatchupUntil with _ | until'
    · exact (recvBatch_live hinv hr hp hu).imp_right fun hcursor => by
        rw [hcursor]
        exact Nat.lt_succ_self _
    · left
      simp only [CanRead, hp, hu] at hc
      have hframes := (framesFrom_catchup_ne_nil_iff hinv until').mpr hc
      rw [recvBatch_of_catchup hp hu, recvCatchup]
      dsimp only
      rw [if_neg (Nat.not_lt.mpr hle), if_neg hframes]
      exact hframes
  · rw [recvBatch_of_ne hp]
    by_cases hlag : r.policy = .webRtcPlay ∧ WEBRTC_LAG_SNAP_THRESHOLD < h.latestSeq - r.cursor
    · right
      rw [recvRange_of_lag hlag.1 hlag.2]
      exact Nat.lt_succ_self _
    · left
      have hc := ((canRead_iff_of_ne hinv hp).mp hc).resolve_left hlag
      rw [recvRange_of_snapOnLag (by rw [snapOnLag, if_neg hlag]) hle]
      split
      · next hnil => exact jumpToIdr_of_lt hinv hne (hc.resolve_left (not_ne_iff.mpr hnil))
      · next hframes => exact deliver_ne_nil hinv hp hframes

/-! ## Calls in a row -/

/-- A call that has what it needs **makes progress**, and no other does. -/
theorem progress_iff (hinv : RingInv fs h.ring) (hr : r.ensureReady h = true) :
    r.Progress h ↔ r.CanRead h := by
  constructor
  · intro hp
    by_contra hn
    rw [Progress, recvBatch_of_not_canRead hinv hr hn] at hp
    rcases hp with hp | hp | ⟨hp, hp'⟩
    · exact hp rfl
    · exact lt_irrefl _ hp
    · exact hp hp'
  · intro hc
    rcases recvBatch_of_canRead hinv hr hc with hout | hcursor
    · exact .inl hout
    · exact .inr (.inl (lt_of_le_of_lt (ensureReady_iff.mp hr).2 hcursor))

/-- The loop of the consumer is left **exactly if** its first call has what it needs. -/
theorem halts_retry_iff (hinv : RingInv fs h.ring) (hr : r.ensureReady h = true) :
    Halts (retry h) r ↔ r.CanRead h := by
  constructor
  · intro hh
    by_contra hn
    have heq := recvBatch_of_not_canRead hinv hr hn
    refine not_halts_of_fixed ?_ hh
    rw [retry, heq, if_pos ⟨hr, rfl⟩]
  · intro hc
    rcases hnext : retry h r with _ | r'
    · exact ⟨1, r, run_succ_none hnext⟩
    · -- the batch was empty, so that the reader is behind the live edge and waits
      have hnext' := hnext
      rw [retry, Option.ite_none_right_eq_some] at hnext'
      obtain ⟨⟨-, hnil⟩, heq⟩ := hnext'
      obtain rfl := Option.some.inj heq
      have hcursor := (recvBatch_of_canRead hinv hr hc).resolve_left (not_not_intro hnil)
      have hwait : retry h (r.recvBatch h).2 = none := by
        rw [retry, if_neg]
        rintro ⟨hready, -⟩
        exact Nat.not_lt.mpr (ensureReady_iff.mp hready).2 hcursor
      exact (halts_iff_of_step hnext).mpr ⟨1, _, run_succ_none hwait⟩

end DispatchReader

/-! ## Runs -/

namespace HubReaders

/-- Along every run of calls the ring stays one that pushes lead to. -/
theorem ringInv_of_exec {stream : Stream} {cs : List HubCall} {s : HubReaders}
    (h : exec HubReaders.step (HubReaders.init stream) cs = some s) :
    ∃ fs, RingInv fs s.hub.ring :=
  exec_inv' (I := fun s => ∃ fs, RingInv fs s.hub.ring) (fun _ _ _ hi hs => ring_step hi hs)
    ⟨[], RingInv.withCapacity _ _⟩ h

/-- In every state that a hub and its readers get to, and for every reader, a call for
which `ensure_data` returns at once makes progress, and the loop of its consumer is left,
**exactly if** the reader finds what it needs. -/
theorem progress_iff_canRead (stream : Stream) (cs : List HubCall) {s : HubReaders}
    (hs : exec HubReaders.step (HubReaders.init stream) cs = some s) {r : DispatchReader}
    (hr : r.ensureReady s.hub = true) :
    (r.Progress s.hub ∧ Halts (DispatchReader.retry s.hub) r) ↔ r.CanRead s.hub := by
  obtain ⟨fs, hfs⟩ := ringInv_of_exec hs
  rw [DispatchReader.progress_iff hfs hr, DispatchReader.halts_retry_iff hfs hr, and_self]

/-- A viewer whose first burst of video **ends** with a key frame. -/
def burstRun : List HubCall :=
  [.publish (testFrame true), .subscribe .liveCoalesce, .publish (testFrame false),
    .publish (testFrame true), .reader 0 .recv, .publish (testFrame false)]

/-- The catch-up after the key frame is empty, and never ended: the next frame is there
to be read, and the call for it is repeated **for ever**. -/
theorem not_progress_after_burst :
    ∃ s u, exec HubReaders.step (HubReaders.init (StreamHub.new "live").stream) burstRun = some s ∧
      s.readers[0]? = some u ∧ u.reader.ensureReady s.hub = true ∧
      ¬ u.reader.Progress s.hub ∧ ¬ Halts (DispatchReader.retry s.hub) u.reader := by
  refine ⟨_, _, rfl, rfl, by decide, ?_, not_halts_of_fixed (by decide)⟩
  rintro (h | h | h) <;> revert h <;> decide

/-- A reader that finds what it needs: the frame under its cursor. -/
theorem progress_of_viewer :
    ∃ s u, exec HubReaders.step (HubReaders.init (StreamHub.new "live").stream)
        [.publish (testFrame true), .subscribe .liveCoalesce, .publish (testFrame false),
          .publish (testFrame true), .publish (testFrame false), .reader 0 .recv] = some s ∧
      s.readers[0]? = some u ∧
      u.reader.Progress s.hub ∧ Halts (DispatchReader.retry s.hub) u.reader := by
  refine ⟨_, _, rfl, rfl, ?_⟩
  exact (progress_iff_canRead (StreamHub.new "live").stream
    [.publish (testFrame true), .subscribe .liveCoalesce, .publish (testFrame false),
      .publish (testFrame true), .publish (testFrame false), .reader 0 .recv] rfl (by decide)).mpr
    (by decide)

end HubReaders

end VcpMediaServer
