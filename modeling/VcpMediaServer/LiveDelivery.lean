import VcpMediaServer.ReaderProgress
import VcpMediaServer.RingIndex

/-!
# Live delivery

One live reader, and the publishes on its hub. A batch that holds several video frames is
**collapsed** to its last IDR frame, everything but video is passed on, and the cursor is
put back behind the IDR frame; the next call reads the rest of the range again, now with
everything in it.

* `LiveBatch` — what one call of a live reader does: it does nothing, jumps, replays, or
  reads a range, which it passes on, collapses, or drops the video of.
* `recvBatch_liveBatch` — there is no other case.
* `LiveDelivery.OnceInOrder` — no frame is handed over twice, and audio in order.
* `onceInOrder_iff` — along every run, **exactly if** what is replayed is video alone.
-/

namespace VcpMediaServer

open FrameRing Lts

/-- The codec of the frame is one for audio. -/
def StoredFrame.isAudio (f : StoredFrame) : Bool :=
  match f.codec with
  | .aac => true
  | .opus => true
  | .g711 => true
  | _ => false

/-- A video frame is not an audio frame. -/
theorem StoredFrame.isAudio_of_isPlayableVideo {f : StoredFrame} (h : f.isPlayableVideo = true) :
    f.isAudio = false := by
  have hv : f.codec.isVideo = true := (Bool.and_eq_true_iff.mp h).1
  rw [isAudio]
  revert hv
  rcases f.codec with _ | _ | _ | _ | _ | _ <;> simp [CodecType.isVideo]

theorem StoredFrame.isPlayableVideo_of_isPlayableIdr {f : StoredFrame}
    (h : f.isPlayableIdr = true) : f.isPlayableVideo = true :=
  (Bool.and_eq_true_iff.mp h).1

/-- The frames that `coalesce_flv_batch` passes on in any case. -/
def nonVideo (frames : List StoredFrame) : List StoredFrame :=
  frames.filter fun f => !f.isPlayableVideo

/-- The video frames of a batch. -/
def videoOf (frames : List StoredFrame) : List StoredFrame :=
  frames.filter StoredFrame.isPlayableVideo

/-- Eviction takes frames **away** and brings none back: after a push the ring holds frames
it held before, and the one pushed. -/
theorem FrameRing.mem_slots_of_push {r r' : FrameRing} {f : MediaFrame} (hp : r.push f = some r')
    {g : StoredFrame} (hg : g ∈ r'.slots) :
    g ∈ r.slots ∨ g = StoredFrame.ofMediaFrame r.writeSeq f := by
  have hsub : r'.slots.Sublist (r.append f).slots := by
    refine (FuelLoop.run_inv (I := fun s => s.slots.Sublist (r.append f).slots)
      (fun s s' hs hstep => ?_) (List.Sublist.refl _) hp).1
    obtain ⟨-, ⟨hgop, rfl⟩ | ⟨-, -, rfl⟩⟩ := evictStep_cases hstep
    · refine List.Sublist.trans ?_ hs
      rcases hgs : s.gopStarts with _ | ⟨start, gs⟩
      · rw [evictOldestGop, hgs]
      · rw [evictOldestGop, hgs]
        exact List.filter_sublist
    · exact (List.dropWhile_sublist _).trans hs
  rcases List.mem_append.mp (hsub.subset hg) with hg | hg
  · exact .inl hg
  · exact .inr (List.mem_singleton.mp hg)

/-! ## One call -/

/-- What one call of a live reader hands over, and the reader afterwards. -/
inductive LiveBatch (h : StreamHub) (r : DispatchReader) :
    List StoredFrame → DispatchReader → Prop
  /-- Nothing is to be read: the reader stays as it is. -/
  | idle (rest : ∀ until', r.videoCatchupUntil = some until' →
      h.framesFrom r.cursor (min h.latestSeq until') = []) : LiveBatch h r [] r
  /-- All of the range is gone: the reader jumps ahead, and **flags** it. -/
  | jump {batch : List StoredFrame} {lo hi : ℕ} (free : r.videoCatchupUntil = none)
      (lt : r.cursor < lo) (le : lo ≤ hi) (seqs : seqsOf batch = span lo hi)
      (stored : ∀ f ∈ batch, f ∈ h.ring.slots) :
      LiveBatch h r batch { r with pendingMuxerResync := true, cursor := hi + 1 }
  /-- A catch-up hands over all of its range. -/
  | replay {until' : ℕ} (running : r.videoCatchupUntil = some until')
      (ne : h.framesFrom r.cursor (min h.latestSeq until') ≠ []) :
      LiveBatch h r (h.framesFrom r.cursor (min h.latestSeq until'))
        { r with
          cursor := min h.latestSeq until' + 1
          videoCatchupUntil := if until' < min h.latestSeq until' + 1 then none else some until' }
  /-- A range with at most one video frame is passed on, video last. -/
  | pass (free : r.videoCatchupUntil = none) (ne : h.framesFrom r.cursor h.latestSeq ≠ [])
      (few : (videoOf (h.framesFrom r.cursor h.latestSeq)).length ≤ 1) :
      LiveBatch h r (nonVideo (h.framesFrom r.cursor h.latestSeq) ++
        videoOf (h.framesFrom r.cursor h.latestSeq)) { r with cursor := h.latestSeq + 1 }
  /-- A range with several video frames is collapsed to the last IDR frame, and a catch-up
  begins behind that. -/
  | collapse {idr : StoredFrame} (free : r.videoCatchupUntil = none)
      (many : 1 < (videoOf (h.framesFrom r.cursor h.latestSeq)).length)
      (mem : idr ∈ h.framesFrom r.cursor h.latestSeq) (key : idr.isPlayableIdr = true) :
      LiveBatch h r (nonVideo (h.framesFrom r.cursor h.latestSeq) ++ [idr])
        (r.beginVideoCatchupAfterIdr idr.seq h.latestSeq)
  /-- A range with several video frames and no IDR frame loses **all of them**. -/
  | dropVideo (free : r.videoCatchupUntil = none)
      (many : 1 < (videoOf (h.framesFrom r.cursor h.latestSeq)).length)
      (blind : ∀ f ∈ h.framesFrom r.cursor h.latestSeq, f.isPlayableIdr = false) :
      LiveBatch h r (nonVideo (h.framesFrom r.cursor h.latestSeq))
        { r with cursor := h.latestSeq + 1 }

namespace DispatchReader

variable {fs : List MediaFrame} {h : StreamHub} {r : DispatchReader}

/-- The gap branch hands over stored frames. -/
theorem jumpToIdr_stored : ∀ f ∈ (r.jumpToIdr h).1, f ∈ h.ring.slots := by
  unfold jumpToIdr
  split
  · exact nofun
  · split
    · dsimp only
      split
      · split
        · exact nofun
        · exact fun f hf => (mem_framesFrom.mp hf).1
      · exact nofun
    · exact nofun

/-- A range without several video frames is passed on. -/
theorem coalesceStored_of_few {frames : List StoredFrame} (hlen : (videoOf frames).length ≤ 1) :
    coalesceStored frames = nonVideo frames ++ videoOf frames :=
  coalesceBy_of_few hlen

/-- A range with several video frames is collapsed. -/
theorem coalesceStored_of_many {frames : List StoredFrame} (hlen : 1 < (videoOf frames).length) :
    coalesceStored frames =
      nonVideo frames ++ ((videoOf frames).reverse.find? StoredFrame.isPlayableIdr).toList :=
  coalesceBy_of_many hlen

/-- A range is read by getting its numbers, one after the other. -/
theorem filterMap_get (hinv : RingInv fs h.ring) (a b : ℕ) :
    (List.range' a (b + 1 - a)).filterMap h.ring.get = h.framesFrom a b := by
  have : Std.Irrefl fun f g : StoredFrame => f.seq < g.seq := ⟨fun _ => lt_irrefl _⟩
  have : Std.Antisymm fun f g : StoredFrame => f.seq < g.seq :=
    ⟨fun _ _ hlt hgt => absurd (hlt.trans hgt) (lt_irrefl _)⟩
  refine List.Pairwise.eq_of_mem_iff (r := fun f g : StoredFrame => f.seq < g.seq)
    (List.pairwise_filterMap.mpr ?_) (hinv.slots_pairwise.sublist List.filter_sublist) fun f => ?_
  · refine List.Pairwise.imp (fun hlt f hf g hg => ?_) (span_pairwise a b)
    rw [(mem_of_get hf).2, (mem_of_get hg).2]
    exact hlt
  · rw [List.mem_filterMap, StreamHub.framesFrom, mem_framesFrom]
    constructor
    · rintro ⟨s, hs, hf⟩
      obtain ⟨hslot, rfl⟩ := mem_of_get hf
      rw [List.mem_range'_1] at hs
      exact ⟨hslot, hs.1, by omega⟩
    · rintro ⟨hslot, hlo, hhi⟩
      exact ⟨f.seq, List.mem_range'_1.mpr ⟨hlo, by omega⟩, get_eq_some_of_mem hinv hslot⟩

/-- In a range, `last_playable_idr_seq` finds the IDR frame that `coalesce_flv_batch` does. -/
theorem lastPlayableIdrSeq_eq (hinv : RingInv fs h.ring) (a b : ℕ) :
    lastPlayableIdrSeq h a b =
      ((videoOf (h.framesFrom a b)).reverse.find? StoredFrame.isPlayableIdr).map
        StoredFrame.seq := by
  have hvideo : (fun f : StoredFrame => decide (f.isPlayableVideo = true ∧ f.isPlayableIdr = true))
      = StoredFrame.isPlayableIdr := by
    funext f
    rw [Bool.eq_iff_iff, decide_eq_true_iff, and_iff_right_iff_imp]
    exact StoredFrame.isPlayableVideo_of_isPlayableIdr
  rw [videoOf, ← List.filter_reverse, List.find?_filter, hvideo, ← filterMap_get hinv,
    ← List.filterMap_reverse, List.find?_filterMap, lastPlayableIdrSeq]
  rcases hfind : (List.range' a (b + 1 - a)).reverse.find? fun seq =>
    (h.ring.get seq).any StoredFrame.isPlayableIdr with _ | s
  · rfl
  · have hany := List.find?_some hfind
    obtain ⟨f, hf, -⟩ := (Option.any_eq_true _ _).mp hany
    rw [Option.bind_some, hf, Option.map_some, (mem_of_get hf).2]

/-- The end of `recv_batch` for a live reader. -/
theorem deliver_live (hp : r.policy = .liveCoalesce) (frames : List StoredFrame) (stop : ℕ) :
    r.deliver h frames stop =
      if 1 < (videoOf frames).length then
        match lastPlayableIdrSeq h r.cursor stop with
        | some idrSeq => (coalesceStored frames, r.beginVideoCatchupAfterIdr idrSeq stop)
        | none => (coalesceStored frames, { r with cursor := stop + 1 })
      else (coalesceStored frames, { r with cursor := stop + 1 }) := by
  unfold deliver
  split
  · rfl
  · next heq =>
    rw [hp] at heq
    cases heq
  · next heq =>
    rw [hp] at heq
    cases heq
  · next heq =>
    rw [hp] at heq
    cases heq

/-- A range that is not empty is passed on, collapsed, or loses its video. -/
theorem deliver_liveBatch (hinv : RingInv fs h.ring) (hp : r.policy = .liveCoalesce)
    (hu : r.videoCatchupUntil = none) (hne : h.framesFrom r.cursor h.latestSeq ≠ []) :
    LiveBatch h r (r.deliver h (h.framesFrom r.cursor h.latestSeq) h.latestSeq).1
      (r.deliver h (h.framesFrom r.cursor h.latestSeq) h.latestSeq).2 := by
  rw [deliver_live hp]
  split
  · next hmany =>
    rw [coalesceStored_of_many hmany, lastPlayableIdrSeq_eq hinv]
    rcases hidr : (videoOf (h.framesFrom r.cursor h.latestSeq)).reverse.find?
      StoredFrame.isPlayableIdr with _ | idr
    · have hnone := List.find?_eq_none.mp hidr
      rw [Option.toList_none, List.append_nil]
      refine .dropVideo hu hmany fun f hf => ?_
      by_contra hkey
      have hkey : f.isPlayableIdr = true := by simpa using hkey
      refine hnone f (List.mem_reverse.mpr (List.mem_filter.mpr ⟨hf, ?_⟩)) hkey
      exact StoredFrame.isPlayableVideo_of_isPlayableIdr hkey
    · have hmem := List.mem_of_find?_eq_some hidr
      exact .collapse hu hmany (List.mem_filter.mp (List.mem_reverse.mp hmem)).1
        (List.find?_some hidr)
  · next hfew =>
    have hfew := Nat.le_of_not_lt hfew
    rw [coalesceStored_of_few hfew]
    exact .pass hu hne hfew

/-- A catch-up replays its range, or finds nothing to replay. -/
theorem recvCatchup_liveBatch {until' : ℕ} (hu : r.videoCatchupUntil = some until') :
    LiveBatch h r (r.recvCatchup h until').1 (r.recvCatchup h until').2 := by
  have hidle : h.framesFrom r.cursor (min h.latestSeq until') = [] → LiveBatch h r [] r := by
    refine fun hnil => .idle fun u hu' => ?_
    obtain rfl := Option.some.inj (hu.symm.trans hu')
    exact hnil
  dsimp only [recvCatchup]
  split
  · next hlt =>
    apply hidle
    by_contra hne
    obtain ⟨f, -, hlo, hhi⟩ := exists_of_framesFrom_ne_nil hne
    have hle := hhi.trans (Nat.min_le_left _ _)
    omega
  · split
    · next hnil => exact hidle hnil
    · next hne => exact .replay hu hne

/-- There is **no other case**. -/
theorem recvBatch_liveBatch (hinv : RingInv fs h.ring) (hp : r.policy = .liveCoalesce) :
    LiveBatch h r (r.recvBatch h).1 (r.recvBatch h).2 := by
  rcases hu : r.videoCatchupUntil with _ | until'
  · have hidle : LiveBatch h r [] r := by
      refine .idle fun until' hu' => ?_
      rw [hu] at hu'
      cases hu'
    have hrange : r.recvBatch h =
        if h.latestSeq < r.cursor then ([], r)
        else if h.framesFrom r.cursor h.latestSeq = [] then r.jumpToIdr h
        else r.deliver h (h.framesFrom r.cursor h.latestSeq) h.latestSeq := by
      simp [recvBatch, recvRange, snapOnLag, batchEnd, hp, hu]
    rw [hrange]
    split
    · exact hidle
    · split
      · obtain heq | ⟨lo, hi, hle, hlt, hseqs, hreader⟩ := jumpToIdr_cases (r := r) hinv
        · rw [heq]
          exact hidle
        · rw [hreader]
          exact .jump hu hlt hle hseqs jumpToIdr_stored
      · next hne => exact deliver_liveBatch hinv hp hu hne
  · rw [recvBatch_of_catchup hp hu]
    exact recvCatchup_liveBatch hu

end DispatchReader

/-! ## Nothing twice -/

/-- No frame is among `l` twice, and its audio frames are in ring order. -/
def Once (l : List StoredFrame) : Prop :=
  (seqsOf l).Nodup ∧ (seqsOf (l.filter StoredFrame.isAudio)).Pairwise (· < ·)

instance (l : List StoredFrame) : Decidable (Once l) := inferInstanceAs (Decidable (_ ∧ _))

theorem once_nil : Once [] := ⟨List.nodup_nil, List.Pairwise.nil⟩

/-- Frames in ring order. -/
theorem once_of_pairwise {l : List StoredFrame} (h : l.Pairwise fun f g => f.seq < g.seq) :
    Once l := by
  constructor
  · exact List.pairwise_map.mpr (h.imp fun hlt => hlt.ne)
  · exact List.pairwise_map.mpr (h.sublist List.filter_sublist)

/-- Frames that all come **after** those before. -/
theorem Once.append {l batch : List StoredFrame} (h : Once l) (hb : Once batch)
    (hlt : ∀ f ∈ l, ∀ g ∈ batch, f.seq < g.seq) : Once (l ++ batch) := by
  constructor
  · rw [seqsOf, List.map_append, List.nodup_append]
    refine ⟨h.1, hb.1, fun a ha b hb => ?_⟩
    obtain ⟨f, hf, rfl⟩ := List.mem_map.mp ha
    obtain ⟨g, hg, rfl⟩ := List.mem_map.mp hb
    exact (hlt f hf g hg).ne
  · rw [seqsOf, List.filter_append, List.map_append, List.pairwise_append]
    refine ⟨h.2, hb.2, fun a ha b hb => ?_⟩
    obtain ⟨f, hf, rfl⟩ := List.mem_map.mp ha
    obtain ⟨g, hg, rfl⟩ := List.mem_map.mp hb
    exact hlt f (List.mem_filter.mp hf).1 g (List.mem_filter.mp hg).1

/-- Video frames are no audio frames. -/
theorem filter_isAudio_eq_nil {vs : List StoredFrame}
    (h : ∀ f ∈ vs, f.isPlayableVideo = true) : vs.filter StoredFrame.isAudio = [] :=
  List.filter_eq_nil_iff.mpr fun f hf => by
    rw [StoredFrame.isAudio_of_isPlayableVideo (h f hf)]
    exact Bool.false_ne_true

/-- What is passed on of a range, with some of its video behind it. -/
theorem once_nonVideo_append {frames vs : List StoredFrame}
    (hf : frames.Pairwise fun f g => f.seq < g.seq) (hvs : vs.Sublist (videoOf frames)) :
    Once (nonVideo frames ++ vs) := by
  constructor
  · have hperm : (nonVideo frames ++ videoOf frames).Perm frames :=
      List.perm_append_comm.trans (List.filter_append_perm _ _)
    have hnodup : (seqsOf (nonVideo frames ++ videoOf frames)).Nodup :=
      (hperm.map _).nodup_iff.mpr (once_of_pairwise hf).1
    exact hnodup.sublist (((List.Sublist.refl _).append hvs).map _)
  · have hvideo : ∀ f ∈ vs, f.isPlayableVideo = true := fun f hfv =>
      (List.mem_filter.mp (hvs.subset hfv)).2
    rw [List.filter_append, filter_isAudio_eq_nil hvideo, List.append_nil]
    exact List.pairwise_map.mpr
      (hf.sublist (List.filter_sublist.trans List.filter_sublist))

namespace DispatchReader

/-- The condition on a call: a catch-up finds **nothing but video** in its range. -/
def ReplaysVideo (h : StreamHub) (r : DispatchReader) : Prop :=
  ∀ until', r.videoCatchupUntil = some until' →
    ∀ f ∈ h.framesFrom r.cursor (min h.latestSeq until'), f.isPlayableVideo = true

/-- Where a live reader stands that has been handed `delivered`. -/
structure Follows (h : StreamHub) (delivered : List StoredFrame) (r : DispatchReader) : Prop where
  live : r.policy = .liveCoalesce
  /-- Outside a catch-up, everything handed over is before the cursor. -/
  free : r.videoCatchupUntil = none → ∀ f ∈ delivered, f.seq < r.cursor
  /-- In a catch-up, the video handed over is, and of its range **everything else** that is
  stored has been handed over. -/
  running : ∀ until', r.videoCatchupUntil = some until' →
    until' < h.ring.writeSeq ∧ (∀ f ∈ delivered, f.seq ≤ until') ∧
      (∀ f ∈ delivered, f.isPlayableVideo = true → f.seq < r.cursor) ∧
      ∀ f ∈ h.ring.slots, r.cursor ≤ f.seq → f.seq ≤ until' → f.isPlayableVideo = false →
        f ∈ delivered

variable {fs : List MediaFrame} {h : StreamHub} {r r' : DispatchReader}
  {delivered batch : List StoredFrame}

/-- A range is in the order of its numbers. -/
theorem framesFrom_pairwise (hinv : RingInv fs h.ring) (a b : ℕ) :
    (h.framesFrom a b).Pairwise fun f g => f.seq < g.seq :=
  hinv.slots_pairwise.sublist List.filter_sublist

/-- What a batch has of a range, in terms of the range. -/
theorem mem_nonVideo_append {a b : ℕ} {vs : List StoredFrame}
    (hvs : vs.Sublist (videoOf (h.framesFrom a b))) {f : StoredFrame}
    (hf : f ∈ nonVideo (h.framesFrom a b) ++ vs) : f ∈ h.framesFrom a b := by
  rcases List.mem_append.mp hf with hf | hf
  · exact (List.mem_filter.mp hf).1
  · exact (List.mem_filter.mp (hvs.subset hf)).1

/-- A range read outside a catch-up brings nothing twice. -/
theorem Follows.once_read (hf : Follows h delivered r) (hinv : RingInv fs h.ring)
    (ho : Once delivered) (hfree : r.videoCatchupUntil = none) {stop : ℕ} {vs : List StoredFrame}
    (hvs : vs.Sublist (videoOf (h.framesFrom r.cursor stop))) :
    Once (delivered ++ (nonVideo (h.framesFrom r.cursor stop) ++ vs)) := by
  refine ho.append (once_nonVideo_append (framesFrom_pairwise hinv _ _) hvs) fun f hfd g hg => ?_
  exact (hf.free hfree f hfd).trans_le (mem_framesFrom.mp (mem_nonVideo_append hvs hg)).2.1

/-- What a catch-up hands over comes for the first time **exactly if** it is all video. -/
theorem Follows.once_replay_iff (hf : Follows h delivered r) (hinv : RingInv fs h.ring)
    (hd : ∀ f ∈ delivered, f ∈ stamped fs) (ho : Once delivered) {until' : ℕ}
    (running : r.videoCatchupUntil = some until') :
    Once (delivered ++ h.framesFrom r.cursor (min h.latestSeq until')) ↔ r.ReplaysVideo h := by
  obtain ⟨-, -, hvideo, hgot⟩ := hf.running until' running
  constructor
  · intro hod u hu f hmem
    obtain rfl := Option.some.inj (running.symm.trans hu)
    -- a frame other than video has been handed over already
    by_contra hnot
    obtain ⟨hslot, hlo, hhi⟩ := mem_framesFrom.mp hmem
    have hdel := hgot f hslot hlo (hhi.trans (Nat.min_le_right _ _)) (by simpa using hnot)
    have hnodup := hod.1
    rw [seqsOf, List.map_append, List.nodup_append] at hnodup
    exact hnodup.2.2 f.seq (List.mem_map_of_mem hdel) f.seq (List.mem_map_of_mem hmem) rfl
  · intro hall
    have hall := hall until' running
    have hone := once_of_pairwise (framesFrom_pairwise (h := h) hinv r.cursor
      (min h.latestSeq until'))
    constructor
    · rw [seqsOf, List.map_append, List.nodup_append]
      refine ⟨ho.1, hone.1, fun a ha b hb heq => ?_⟩
      obtain ⟨f, hfd, rfl⟩ := List.mem_map.mp ha
      obtain ⟨g, hg, rfl⟩ := List.mem_map.mp hb
      obtain ⟨hslot, hlo, -⟩ := mem_framesFrom.mp hg
      -- frames with one number are one frame
      have hfg := stamped_getElem?_seq (hd f hfd)
      rw [heq, stamped_getElem?_seq (hinv.mem_stamped hslot)] at hfg
      obtain rfl := Option.some.inj hfg
      exact absurd (hvideo _ hfd (hall _ hg)) (Nat.not_lt.mpr hlo)
    · rw [List.filter_append, filter_isAudio_eq_nil hall, List.append_nil]
      exact ho.2

/-- One call brings nothing twice **exactly if** it meets the condition. -/
theorem once_iff_replaysVideo (hinv : RingInv fs h.ring) (hf : Follows h delivered r)
    (hd : ∀ f ∈ delivered, f ∈ stamped fs) (ho : Once delivered) (hb : LiveBatch h r batch r') :
    Once (delivered ++ batch) ↔ r.ReplaysVideo h := by
  have hread : r.videoCatchupUntil = none → r.ReplaysVideo h := by
    intro hfree until' hu
    rw [hfree] at hu
    cases hu
  cases hb with
  | idle rest =>
    rw [List.append_nil]
    refine iff_of_true ho fun until' hu f hmem => ?_
    rw [rest until' hu] at hmem
    cases hmem
  | jump free lt le seqs stored =>
    refine iff_of_true (ho.append (once_of_pairwise ?_) fun f hfd g hg => ?_) (hread free)
    · refine List.pairwise_map.mp (?_ : (seqsOf batch).Pairwise _)
      rw [seqs]
      exact span_pairwise _ _
    · have hg' : g.seq ∈ seqsOf batch := List.mem_map_of_mem hg
      rw [seqs] at hg'
      exact ((hf.free free f hfd).trans lt).trans_le (mem_span.mp hg').1
  | replay running ne => exact hf.once_replay_iff hinv hd ho running
  | pass free ne few =>
    exact iff_of_true (hf.once_read hinv ho free (List.Sublist.refl _)) (hread free)
  | collapse free many mem key =>
    refine iff_of_true (hf.once_read hinv ho free (List.singleton_sublist.mpr ?_)) (hread free)
    exact List.mem_filter.mpr ⟨mem, StoredFrame.isPlayableVideo_of_isPlayableIdr key⟩
  | dropVideo free many blind =>
    have hone := hf.once_read hinv ho free
      (List.nil_sublist (videoOf (h.framesFrom r.cursor h.latestSeq)))
    rw [List.append_nil] at hone
    exact iff_of_true hone (hread free)

/-- A live reader outside a catch-up, with everything handed over before its cursor. -/
theorem Follows.of_free (hlive : r.policy = .liveCoalesce) (hfree : r.videoCatchupUntil = none)
    (hlt : ∀ f ∈ delivered, f.seq < r.cursor) : Follows h delivered r := by
  refine ⟨hlive, fun _ => hlt, fun until' hu => ?_⟩
  rw [hfree] at hu
  cases hu

/-- A range that has been read to the live edge is before the cursor. -/
theorem Follows.free_read (hf : Follows h delivered r) (hfree : r.videoCatchupUntil = none)
    {vs : List StoredFrame} (hvs : vs.Sublist (videoOf (h.framesFrom r.cursor h.latestSeq)))
    (hne : h.framesFrom r.cursor h.latestSeq ≠ []) :
    ∀ f ∈ delivered ++ (nonVideo (h.framesFrom r.cursor h.latestSeq) ++ vs),
      f.seq ≤ h.latestSeq := by
  obtain ⟨g, -, hlo, hhi⟩ := exists_of_framesFrom_ne_nil hne
  intro f hmem
  rcases List.mem_append.mp hmem with hmem | hmem
  · exact (hf.free hfree f hmem).le.trans (hlo.trans hhi)
  · exact (mem_framesFrom.mp (mem_nonVideo_append hvs hmem)).2.2

/-- A catch-up ends with its **first** batch. -/
theorem Follows.next_replay (hf : Follows h delivered r) {until' : ℕ}
    (running : r.videoCatchupUntil = some until') :
    Follows h (delivered ++ h.framesFrom r.cursor (min h.latestSeq until'))
      { r with
        cursor := min h.latestSeq until' + 1
        videoCatchupUntil :=
          if until' < min h.latestSeq until' + 1 then none else some until' } := by
  obtain ⟨huntil, hbefore, -, -⟩ := hf.running until' running
  have hstop : min h.latestSeq until' = until' := by
    rw [StreamHub.latestSeq, FrameRing.latestSeq]
    omega
  rw [hstop, if_pos (Nat.lt_succ_self _)]
  refine Follows.of_free hf.live rfl fun f hmem => Nat.lt_succ_of_le ?_
  rcases List.mem_append.mp hmem with hmem | hmem
  · exact hbefore f hmem
  · exact (mem_framesFrom.mp hmem).2.2

/-- A catch-up begins behind an IDR frame of the range that has been collapsed to it: what it
will read again has been handed over, but for video. -/
theorem Follows.next_collapse (hf : Follows h delivered r) (hinv : RingInv fs h.ring)
    (free : r.videoCatchupUntil = none) {idr : StoredFrame}
    (mem : idr ∈ h.framesFrom r.cursor h.latestSeq) (key : idr.isPlayableIdr = true) :
    Follows h (delivered ++ (nonVideo (h.framesFrom r.cursor h.latestSeq) ++ [idr]))
      (r.beginVideoCatchupAfterIdr idr.seq h.latestSeq) := by
  have hvideo := StoredFrame.isPlayableVideo_of_isPlayableIdr key
  obtain ⟨hslot, hlo, hhi⟩ := mem_framesFrom.mp mem
  refine ⟨hf.live, fun hu => ?_, fun until' hu => ?_⟩
  · cases hu
  obtain rfl := Option.some.inj hu
  refine ⟨?_, ?_, fun f hmem hfv => ?_, fun f hfs hcur hend hother => ?_⟩
  · have hlatest := hinv.latestSeq_succ hslot
    rw [StreamHub.latestSeq]
    omega
  · exact hf.free_read free (List.singleton_sublist.mpr (List.mem_filter.mpr ⟨mem, hvideo⟩))
      (List.ne_nil_of_mem mem)
  · change f.seq < idr.seq + 1
    rcases List.mem_append.mp hmem with hmem | hmem
    · have hlt := hf.free free f hmem
      omega
    · rcases List.mem_append.mp hmem with hmem | hmem
      · have hnot := (List.mem_filter.mp hmem).2
        rw [hfv] at hnot
        cases hnot
      · rw [List.mem_singleton.mp hmem]
        exact Nat.lt_succ_self _
  · change idr.seq + 1 ≤ f.seq at hcur
    refine List.mem_append_right _ (List.mem_append_left _ (List.mem_filter.mpr ⟨?_, ?_⟩))
    · exact mem_framesFrom.mpr ⟨hfs, by omega, hend⟩
    · rw [hother]
      rfl

/-- One call leaves the reader where it should be. -/
theorem Follows.next (hf : Follows h delivered r) (hinv : RingInv fs h.ring)
    (hb : LiveBatch h r batch r') : Follows h (delivered ++ batch) r' := by
  cases hb with
  | idle rest =>
    rw [List.append_nil]
    exact hf
  | jump free lt le seqs stored =>
    refine Follows.of_free hf.live free fun f hmem => Nat.lt_succ_of_le ?_
    rcases List.mem_append.mp hmem with hmem | hmem
    · have hlt := hf.free free f hmem
      omega
    · have hspan : f.seq ∈ seqsOf batch := List.mem_map_of_mem hmem
      rw [seqs] at hspan
      exact (mem_span.mp hspan).2
  | replay running ne => exact hf.next_replay running
  | pass free ne few =>
    exact Follows.of_free hf.live free fun f hmem =>
      Nat.lt_succ_of_le (hf.free_read free (List.Sublist.refl _) ne f hmem)
  | collapse free many mem key => exact hf.next_collapse hinv free mem key
  | dropVideo free many blind =>
    have hne : h.framesFrom r.cursor h.latestSeq ≠ [] := by
      intro hnil
      rw [hnil] at many
      cases many
    have hle := hf.free_read free (List.nil_sublist _) hne
    rw [List.append_nil] at hle
    exact Follows.of_free hf.live free fun f hmem => Nat.lt_succ_of_le (hle f hmem)

end DispatchReader

/-! ## Runs -/

/-- A hub, one live reader of it, and what that has been handed. -/
structure LiveDelivery where
  /-- The hub. -/
  hub : StreamHub
  /-- The frames published so far, oldest first. -/
  published : List MediaFrame
  /-- The reader, once it has joined. -/
  reader : Option Subscriber
  /-- The frames handed over so far. -/
  delivered : List StoredFrame
  deriving DecidableEq, Repr

/-- A publish, the coming of the reader, or a step of its receiving. -/
inductive LiveStep where
  | publish (frame : MediaFrame)
  /-- A live reader comes, wherever its cursor has been put. -/
  | join (reader : DispatchReader)
  /-- `recv_batch` is called. -/
  | recv
  /-- A waiting `recv_batch` finds the watch channel changed. -/
  | wake
  deriving DecidableEq, Repr

namespace LiveDelivery

/-- A new hub, without a reader. -/
def init (stream : Stream) : LiveDelivery := ⟨StreamHub.withStream stream, [], none, []⟩

/-- The reader that makes a batch in the step: its `ensure_data` has returned. -/
def receiving (s : LiveDelivery) : LiveStep → Option DispatchReader
  | .recv => s.reader.bind fun u => if u.reader.ensureReady s.hub then some u.reader else none
  | .wake => s.reader.bind fun u =>
    if u.waiting && u.reader.wake != s.hub.seqTx then some (u.reader.seen s.hub.seqTx) else none
  | _ => none

/-- The batch of the step, and the reader as the consumer then finds it. -/
def received (s : LiveDelivery) (l : LiveStep) : Option (List StoredFrame × DispatchReader) :=
  (s.receiving l).map fun r => r.recvBatch s.hub

/-- The consumer takes a batch, and the resync flag with it. -/
def take (s : LiveDelivery) (batch : List StoredFrame) (r : DispatchReader) : LiveDelivery :=
  { s with
    reader := some (Subscriber.at' r.takeMuxerResync.2)
    delivered := s.delivered ++ batch }

/-- One step. -/
def step (s : LiveDelivery) : LiveStep → Option LiveDelivery
  | .publish f => (s.hub.publish f).map fun hub => { s with hub, published := s.published ++ [f] }
  | .join r =>
    if s.reader = none ∧ r.policy = .liveCoalesce ∧ r.videoCatchupUntil = none then
      some { s with reader := some (Subscriber.at' r.takeMuxerResync.2) }
    else none
  | .recv => s.reader.map fun u =>
    match s.received .recv with
    | some (batch, r) => s.take batch r
    | none => { s with reader := some ⟨u.reader, true⟩ }
  | .wake => (s.received .wake).map fun p => s.take p.1 p.2

/-- With the batch of the step no frame is handed over twice, and the audio frames are in
ring order. -/
def OnceInOrder (s : LiveDelivery) (l : LiveStep) : Prop :=
  ∀ batch r, s.received l = some (batch, r) → Once (s.delivered ++ batch)

/-- The condition on a step: a batch that a catch-up makes holds nothing but video. -/
def ReplaysVideo (s : LiveDelivery) (l : LiveStep) : Prop :=
  ∀ r, s.receiving l = some r → r.ReplaysVideo s.hub

/-- What holds of the hub and the reader between two steps, whatever has been handed over
twice. -/
structure Inv (s : LiveDelivery) : Prop where
  /-- The ring is the one that the published frames lead to. -/
  ring : RingInv s.published s.hub.ring
  /-- Nothing is handed over that has not been published. -/
  stored : ∀ f ∈ s.delivered, f ∈ stamped s.published
  /-- The reader stands where it should. -/
  reader : ∀ u, s.reader = some u → u.reader.Follows s.hub s.delivered
  /-- Nothing is handed to nobody. -/
  none : s.reader = none → s.delivered = []

theorem Inv.init (stream : Stream) : (LiveDelivery.init stream).Inv where
  ring := RingInv.withCapacity _ _
  stored := nofun
  reader := nofun
  none := fun _ => rfl

variable {s s' : LiveDelivery} {l : LiveStep} {r r' : DispatchReader} {batch : List StoredFrame}

/-- The reader of a receiving step stands where the reader of the state does. -/
theorem Inv.follows (hi : s.Inv) (h : s.receiving l = some r) : r.Follows s.hub s.delivered := by
  cases l with
  | publish f => cases h
  | join r => cases h
  | recv =>
    obtain ⟨u, hu, h⟩ := Option.bind_eq_some_iff.mp h
    rw [Option.ite_none_right_eq_some] at h
    obtain rfl := Option.some.inj h.2
    exact hi.reader u hu
  | wake =>
    obtain ⟨u, hu, h⟩ := Option.bind_eq_some_iff.mp h
    rw [Option.ite_none_right_eq_some] at h
    obtain rfl := Option.some.inj h.2
    obtain ⟨hlive, hfree, hrunning⟩ := hi.reader u hu
    exact ⟨hlive, hfree, hrunning⟩

/-- A receiving step, as one of the cases of a live reader. -/
theorem Inv.liveBatch (hi : s.Inv) (h : s.received l = some (batch, r')) :
    ∃ r, s.receiving l = some r ∧ LiveBatch s.hub r batch r' := by
  obtain ⟨r, hr, heq⟩ := Option.map_eq_some_iff.mp h
  have hb := DispatchReader.recvBatch_liveBatch hi.ring (hi.follows hr).live
  rw [heq] at hb
  exact ⟨r, hr, hb⟩

/-- A batch is of stored frames. -/
theorem mem_slots_of_liveBatch {h : StreamHub} (hb : LiveBatch h r batch r') {f : StoredFrame}
    (hf : f ∈ batch) : f ∈ h.ring.slots := by
  cases hb with
  | idle rest => cases hf
  | jump free lt le seqs stored => exact stored f hf
  | replay running ne => exact (mem_framesFrom.mp hf).1
  | pass free ne few =>
    exact (mem_framesFrom.mp (DispatchReader.mem_nonVideo_append (List.Sublist.refl _) hf)).1
  | collapse free many mem key =>
    refine (mem_framesFrom.mp (DispatchReader.mem_nonVideo_append
      (List.singleton_sublist.mpr ?_) hf)).1
    exact List.mem_filter.mpr ⟨mem, StoredFrame.isPlayableVideo_of_isPlayableIdr key⟩
  | dropVideo free many blind =>
    exact (mem_framesFrom.mp (List.mem_filter.mp hf).1).1

/-- Taking a batch keeps the invariant. -/
theorem Inv.take (hi : s.Inv) (h : s.received l = some (batch, r')) : (s.take batch r').Inv := by
  obtain ⟨r, hr, hb⟩ := hi.liveBatch h
  refine ⟨hi.ring, fun f hf => ?_, fun u hu => ?_, fun hn => by cases hn⟩
  · rcases List.mem_append.mp hf with hf | hf
    · exact hi.stored f hf
    · exact hi.ring.mem_stamped (mem_slots_of_liveBatch hb hf)
  · obtain rfl := Option.some.inj hu
    obtain ⟨hlive, hfree, hrunning⟩ := (hi.follows hr).next hi.ring hb
    exact ⟨hlive, hfree, hrunning⟩

/-- A publish leaves the reader where it should be: what it brings is **behind** the end of
a catch-up. -/
theorem Inv.publish (hi : s.Inv) {f : MediaFrame} {ring : FrameRing}
    (hp : s.hub.ring.push f = some ring) :
    ({ s with
        hub := { s.hub with ring, seqTx := s.hub.seqTx + 1 }
        published := s.published ++ [f] } : LiveDelivery).Inv := by
  have hring := hi.ring.push hp
  have hnext := hring.writeSeq_eq
  rw [List.length_append, List.length_singleton, ← hi.ring.writeSeq_eq] at hnext
  refine ⟨hring, fun g hg => ?_, fun u hu => ?_, hi.none⟩
  · rw [stamped_concat]
    exact List.mem_append_left _ (hi.stored g hg)
  · obtain ⟨hlive, hfree, hrunning⟩ := hi.reader u hu
    refine ⟨hlive, hfree, fun until' hu' => ?_⟩
    obtain ⟨huntil, hbefore, hvideo, hgot⟩ := hrunning until' hu'
    refine ⟨?_, hbefore, hvideo, fun g hg hlo hhi hother => ?_⟩
    · change until' < ring.writeSeq
      omega
    · rcases mem_slots_of_push hp hg with hg | rfl
      · exact hgot g hg hlo hhi hother
      · rw [StoredFrame.ofMediaFrame_seq] at hhi
        omega

/-- **Every step** keeps the invariant. -/
theorem Inv.step (hi : s.Inv) (h : s.step l = some s') : s'.Inv := by
  cases l with
  | publish f =>
    obtain ⟨hub, hpub, rfl⟩ := Option.map_eq_some_iff.mp h
    obtain ⟨ring, hring, rfl⟩ := StreamHub.publish_eq_some.mp hpub
    exact hi.publish hring
  | join r =>
    rw [LiveDelivery.step, Option.ite_none_right_eq_some] at h
    obtain ⟨⟨hnone, hlive, hfree⟩, h⟩ := h
    obtain rfl := Option.some.inj h
    refine ⟨hi.ring, hi.stored, fun u hu => ?_, fun hn => by cases hn⟩
    obtain rfl := Option.some.inj hu
    refine DispatchReader.Follows.of_free hlive hfree fun f hf => ?_
    change f ∈ s.delivered at hf
    rw [hi.none hnone] at hf
    cases hf
  | recv =>
    obtain ⟨u, hu, rfl⟩ := Option.map_eq_some_iff.mp h
    rcases hrec : s.received .recv with _ | ⟨batch, r⟩
    · -- the reader is left waiting
      refine ⟨hi.ring, hi.stored, fun v hv => ?_, fun hn => by cases hn⟩
      obtain rfl := Option.some.inj hv
      exact hi.reader u hu
    · exact hi.take hrec
  | wake =>
    obtain ⟨⟨batch, r⟩, hrec, rfl⟩ := Option.map_eq_some_iff.mp h
    exact hi.take hrec

/-- What has been handed over after a step. -/
theorem delivered_step (h : s.step l = some s') :
    s'.delivered = s.delivered ∨
      ∃ batch r, s.received l = some (batch, r) ∧ s'.delivered = s.delivered ++ batch := by
  cases l with
  | publish f =>
    obtain ⟨hub, -, rfl⟩ := Option.map_eq_some_iff.mp h
    exact .inl rfl
  | join r =>
    rw [LiveDelivery.step, Option.ite_none_right_eq_some] at h
    obtain rfl := Option.some.inj h.2
    exact .inl rfl
  | recv =>
    obtain ⟨u, -, rfl⟩ := Option.map_eq_some_iff.mp h
    rcases hrec : s.received .recv with _ | ⟨batch, r⟩
    · exact .inl rfl
    · exact .inr ⟨batch, r, rfl, rfl⟩
  | wake =>
    obtain ⟨⟨batch, r⟩, hrec, rfl⟩ := Option.map_eq_some_iff.mp h
    exact .inr ⟨batch, r, hrec, rfl⟩

/-- Along every run of publishes and receives, no frame is handed over twice and audio
comes in ring order **exactly if** every catch-up finds nothing but video in its range. -/
theorem onceInOrder_iff (stream : Stream) (ls : List LiveStep) :
    Always LiveDelivery.step OnceInOrder (LiveDelivery.init stream) ls ↔
      Always LiveDelivery.step ReplaysVideo (LiveDelivery.init stream) ls := by
  have hstep : ∀ (s : LiveDelivery) l, s.Inv ∧ Once s.delivered →
      (s.OnceInOrder l ↔ s.ReplaysVideo l) := by
    intro s l ⟨hi, ho⟩
    constructor
    · intro h r hr
      have hrec : s.received l = some ((r.recvBatch s.hub).1, (r.recvBatch s.hub).2) := by
        rw [received, hr]
        rfl
      have hb := DispatchReader.recvBatch_liveBatch hi.ring (hi.follows hr).live
      exact (DispatchReader.once_iff_replaysVideo hi.ring (hi.follows hr) hi.stored ho hb).mp
        (h _ _ hrec)
    · intro h batch r' hrec
      obtain ⟨r, hr, hb⟩ := hi.liveBatch hrec
      exact (DispatchReader.once_iff_replaysVideo hi.ring (hi.follows hr) hi.stored ho hb).mpr
        (h r hr)
  refine always_iff_of_inv (I := fun s => s.Inv ∧ Once s.delivered) hstep ?_
    ⟨Inv.init stream, once_nil⟩
  intro s l s' ⟨hi, ho⟩ hg h
  refine ⟨hi.step h, ?_⟩
  rcases delivered_step h with heq | ⟨batch, r, hrec, heq⟩
  · rw [heq]
    exact ho
  · rw [heq]
    exact (hstep s l ⟨hi, ho⟩).mpr hg batch r hrec

/-- A key frame, an audio frame and another video frame wait for a reader: it is handed the
audio frame with the key frame, and **again** with the rest. -/
theorem not_onceInOrder_after_collapse :
    ¬ Always LiveDelivery.step OnceInOrder (LiveDelivery.init (StreamHub.new "live").stream)
      [.join (DispatchReader.new (StreamHub.new "live") .liveCoalesce),
        .publish Delivery.audioFrame, .publish (testFrame true), .publish Delivery.audioFrame,
        .publish (testFrame false), .recv, .recv] := by
  intro h
  obtain ⟨s, hs⟩ : ∃ s, exec LiveDelivery.step (LiveDelivery.init (StreamHub.new "live").stream)
      [.join (DispatchReader.new (StreamHub.new "live") .liveCoalesce),
        .publish Delivery.audioFrame, .publish (testFrame true), .publish Delivery.audioFrame,
        .publish (testFrame false), .recv] = some s := ⟨_, rfl⟩
  have honce := always_iff.mp h _ .recv ⟨[], rfl⟩ s hs
  obtain rfl := Option.some.inj hs
  exact absurd (honce _ _ rfl) (by decide)

end LiveDelivery

end VcpMediaServer
