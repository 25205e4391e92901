import VcpMediaServer.RecvCoalesced

/-!
# What single frames leave out

A consumer of `recv_coalesced` and the publishes on its hub. Each batch is a list of frames, of
which one is returned; a frame beside it is lost, unless it comes in a catch-up **again**.

* `PlayLog` — the batches obtained, the frames returned and the catch-ups begun.
* `PlayLog.Keeps` — every audio frame of a batch is returned, and so is the video of a catch-up;
  what the running catch-up has yet to read counts as kept.
* `DispatchReader.Spares` — the condition on a call, in terms of the range that it reads.
* `CoalescedPlay.keeps_iff_spares` — along every run the one holds **exactly if** the other does.
-/

namespace VcpMediaServer

open FrameRing Lts

/-! ## What is kept -/

/-- What has happened between a reader and its consumer. -/
structure PlayLog where
  /-- The frames of the batches that `recv_batch` gave. -/
  obtained : List StoredFrame
  /-- The frames that `recv_coalesced` returned. -/
  returned : List StoredFrame
  /-- The catch-ups behind a returned IDR frame: the numbers they go from and to. -/
  catchups : List (ℕ × ℕ)
  deriving DecidableEq, Repr

/-- The running catch-up has yet to read the number. -/
def DispatchReader.WillReplay (r : DispatchReader) (n : ℕ) : Prop :=
  ∃ until' ∈ r.videoCatchupUntil, r.cursor ≤ n ∧ n ≤ until'

/-- The catch-up that a call has begun. -/
def begun (r r' : DispatchReader) : List (ℕ × ℕ) :=
  match r.videoCatchupUntil, r'.videoCatchupUntil with
  | none, some until' => [(r'.cursor, until')]
  | _, _ => []

namespace PlayLog

/-- A call adds its batch, and the frame that is returned of it. -/
def after (log : PlayLog) (h : StreamHub) (r : DispatchReader) : PlayLog where
  obtained := log.obtained ++ (r.recvBatch h).1
  returned := log.returned ++ (pickFrame r.policy (r.recvBatch h).1).toList
  catchups := log.catchups ++ begun r (r.recvBatch h).2

/-- Every audio frame of a batch has been returned, or will come again. -/
def KeepsAudio (log : PlayLog) (r : DispatchReader) : Prop :=
  ∀ g ∈ log.obtained, g.isAudio = true → g ∈ log.returned ∨ r.WillReplay g.seq

/-- Every video frame of a catch-up has been returned, or will be read, or a later IDR frame has
been returned. -/
def KeepsVideo (published : List MediaFrame) (log : PlayLog) (r : DispatchReader) : Prop :=
  ∀ p ∈ log.catchups, ∀ k ∈ stamped published, k.isPlayableVideo = true → p.1 ≤ k.seq →
    k.seq ≤ p.2 →
    k ∈ log.returned ∨ r.WillReplay k.seq ∨
      ∃ i ∈ log.returned, i.isPlayableIdr = true ∧ k.seq < i.seq

/-- Nothing is lost that should be kept. -/
def Keeps (published : List MediaFrame) (log : PlayLog) (r : DispatchReader) : Prop :=
  log.KeepsAudio r ∧ log.KeepsVideo published r

/-- Where a reader stands between two calls. -/
structure Stands (log : PlayLog) (h : StreamHub) (r : DispatchReader) : Prop where
  coalesces : r.Coalesces
  /-- What has been returned is before the cursor. -/
  before : ∀ f ∈ log.returned, f.seq < r.cursor
  /-- A catch-up is one of the log, of which nothing has been read. -/
  running : ∀ until', r.videoCatchupUntil = some until' →
    until' < h.ring.writeSeq ∧ (r.cursor, until') ∈ log.catchups

end PlayLog

/-! ## The condition -/

/-- An audio frame that is passed on alone: it ends a range without video. -/
def EndsWithout (range : List StoredFrame) (g : StoredFrame) : Prop :=
  videoOf range = [] ∧ range.getLast? = some g

/-- An audio frame of a range that is read anew. Beside a single video frame it is lost; where the
video is collapsed, it is read again if it comes **behind the IDR frame**; and where the video is
dropped, it has to be the last frame that is not. -/
def SparesRead (range : List StoredFrame) (g : StoredFrame) : Prop :=
  match videoOf range with
  | [] => range.getLast? = some g
  | [_] => False
  | videos =>
    match videos.reverse.find? StoredFrame.isPlayableIdr with
    | some idr => idr.seq < g.seq
    | none => (nonVideo range).getLast? = some g

namespace DispatchReader

/-- The condition on a catch-up: no more than **one frame** counts in what it reads, but for video
before an IDR frame. -/
def SparesReplay (published : List MediaFrame) (obtained : List StoredFrame) (h : StreamHub)
    (r : DispatchReader) (until' : ℕ) : Prop :=
  (∀ g ∈ obtained ++ h.framesFrom r.cursor until', g.isAudio = true → r.cursor ≤ g.seq →
      g.seq ≤ until' → EndsWithout (h.framesFrom r.cursor until') g) ∧
    ∀ k ∈ stamped published, k.isPlayableVideo = true → r.cursor ≤ k.seq → k.seq ≤ until' →
      ∃ v, (videoOf (h.framesFrom r.cursor until')).getLast? = some v ∧
        (k = v ∨ (v.isPlayableIdr = true ∧ k.seq < v.seq))

/-- The condition on a call, after the frames `published` and the batches `obtained`. -/
def Spares (published : List MediaFrame) (obtained : List StoredFrame) (h : StreamHub)
    (r : DispatchReader) : Prop :=
  match r.videoCatchupUntil with
  | some until' =>
    h.framesFrom r.cursor until' ≠ [] → r.SparesReplay published obtained h until'
  | none =>
    if r.policy = .liveCoalesce then
      ∀ g ∈ h.framesFrom r.cursor h.latestSeq, g.isAudio = true →
        SparesRead (h.framesFrom r.cursor h.latestSeq) g
    else r.MeetsGap h → ∀ g ∈ jumpRange h, g.isAudio = true → EndsWithout (jumpRange h) g

end DispatchReader

/-! ## The frame that is returned -/

section

variable {fs : List MediaFrame} {h : StreamHub} {r r' : DispatchReader} {log : PlayLog}

/-- Audio is none of the video. -/
theorem StoredFrame.ne_of_isAudio {g v : StoredFrame} (hg : g.isAudio = true)
    (hv : v.isPlayableVideo = true) : g ≠ v := by
  rintro rfl
  rw [StoredFrame.isAudio_of_isPlayableVideo hv] at hg
  cases hg

/-- An audio frame of a range is among what is passed on of it. -/
theorem mem_nonVideo_of_isAudio {range : List StoredFrame} {g : StoredFrame} (hmem : g ∈ range)
    (hg : g.isAudio = true) : g ∈ nonVideo range := by
  refine List.mem_filter.mpr ⟨hmem, ?_⟩
  by_contra hnot
  exact StoredFrame.ne_of_isAudio hg (by simpa using hnot) rfl

/-- A range that is returned as it is passes on an audio frame **exactly if** that ends it and it
has no video. -/
theorem pickFrame_eq_some_iff (hr : r.Coalesces) {range : List StoredFrame} {g : StoredFrame}
    (hg : g.isAudio = true) : pickFrame r.policy range = some g ↔ EndsWithout range g := by
  rw [EndsWithout]
  rcases hv : videoOf range with _ | ⟨v, vs⟩
  · rw [pickFrame_of_noVideo hr hv]
    simp
  · have hlast : (videoOf range).getLast? = some ((v :: vs).getLast (List.cons_ne_nil v vs)) := by
      rw [hv, List.getLast?_eq_some_getLast]
    have hvideo := (List.mem_filter.mp (List.mem_of_getLast? hlast)).2
    rw [pickFrame_of_video hr hlast]
    refine iff_of_false (fun heq => ?_) (fun hand => ?_)
    · exact StoredFrame.ne_of_isAudio hg hvideo (Option.some.inj heq).symm
    · cases hand.1

/-- A batch whose video is one frame passes that on. -/
theorem pickFrame_concat (hr : r.Coalesces) {range : List StoredFrame} {v : StoredFrame}
    (hv : v.isPlayableVideo = true) : pickFrame r.policy (nonVideo range ++ [v]) = some v := by
  refine pickFrame_of_video hr ?_
  have hconcat : videoOf (nonVideo range ++ [v]) = videoOf (nonVideo range) ++ [v] := by
    simp [videoOf, hv]
  rw [hconcat, List.getLast?_concat]

/-- A video frame is returned of a range **exactly if** it is the last one of it. -/
theorem pickFrame_eq_some_video_iff (hr : r.Coalesces) {range : List StoredFrame} {v : StoredFrame}
    (hv : v.isPlayableVideo = true) :
    pickFrame r.policy range = some v ↔ (videoOf range).getLast? = some v := by
  refine ⟨fun h => ?_, pickFrame_of_video hr⟩
  rcases hlast : (videoOf range).getLast? with _ | w
  · have hmem := List.mem_filter.mpr ⟨mem_of_pickFrame hr h, hv⟩
    change v ∈ videoOf range at hmem
    rw [List.getLast?_eq_none_iff.mp hlast] at hmem
    cases hmem
  · rw [pickFrame_of_video hr hlast] at h
    exact h

theorem not_willReplay (hu : r.videoCatchupUntil = none) (n : ℕ) : ¬ r.WillReplay n := by
  rintro ⟨until', hmem, -⟩
  rw [hu] at hmem
  cases hmem

/-- Only a live reader is in a catch-up. -/
theorem DispatchReader.Coalesces.policy_of_catchup (hr : r.Coalesces) {until' : ℕ}
    (hu : r.videoCatchupUntil = some until') : r.policy = .liveCoalesce := by
  refine hr.resolve_right fun hweb => ?_
  rw [hu] at hweb
  cases hweb.2

/-! ## What a call leaves of the log -/

namespace PlayLog

/-- What is behind the cursor has not been returned. -/
theorem Stands.not_returned (hs : log.Stands h r) {g : StoredFrame} (hle : r.cursor ≤ g.seq) :
    g ∉ log.returned := fun hg => Nat.not_lt.mpr hle (hs.before g hg)

/-- Without a catch-up, the audio behind the cursor has not been obtained. -/
theorem KeepsAudio.not_obtained (hk : log.KeepsAudio r) (hs : log.Stands h r)
    (hu : r.videoCatchupUntil = none) {g : StoredFrame} (hg : g.isAudio = true)
    (hle : r.cursor ≤ g.seq) : g ∉ log.obtained := by
  intro hmem
  rcases hk g hmem hg with hret | hrep
  · exact hs.not_returned hle hret
  · exact not_willReplay hu _ hrep

/-- A call keeps the audio **exactly if** it returns, or leaves to the catch-up, all that has been
obtained behind the cursor. -/
theorem keepsAudio_after_iff (hs : log.Stands h r) (hk : log.KeepsAudio r)
    (hlo : ∀ g ∈ (r.recvBatch h).1, r.cursor ≤ g.seq) :
    (log.after h r).KeepsAudio (r.recvBatch h).2 ↔
      ∀ g ∈ log.obtained ++ (r.recvBatch h).1, g.isAudio = true → r.cursor ≤ g.seq →
        pickFrame r.policy (r.recvBatch h).1 = some g ∨ (r.recvBatch h).2.WillReplay g.seq := by
  constructor
  · intro hafter g hg haudio hle
    refine (hafter g hg haudio).imp_left fun hret => ?_
    rcases List.mem_append.mp hret with hret | hret
    · exact absurd hret (hs.not_returned hle)
    · exact Option.mem_toList.mp hret
  · intro hall g hg haudio
    by_cases hle : r.cursor ≤ g.seq
    · exact (hall g hg haudio hle).imp_left fun hpick =>
        List.mem_append_right _ (Option.mem_toList.mpr hpick)
    · rcases List.mem_append.mp hg with hg | hg
      · rcases hk g hg haudio with hret | ⟨until', -, hcur, -⟩
        · exact .inl (List.mem_append_left _ hret)
        · exact absurd hcur hle
      · exact absurd (hlo g hg) hle

/-- Outside a catch-up only the batch counts. -/
theorem keepsAudio_after_free_iff (hs : log.Stands h r) (hk : log.KeepsAudio r)
    (hu : r.videoCatchupUntil = none) (hlo : ∀ g ∈ (r.recvBatch h).1, r.cursor ≤ g.seq) :
    (log.after h r).KeepsAudio (r.recvBatch h).2 ↔
      ∀ g ∈ (r.recvBatch h).1, g.isAudio = true →
        pickFrame r.policy (r.recvBatch h).1 = some g ∨ (r.recvBatch h).2.WillReplay g.seq := by
  rw [keepsAudio_after_iff hs hk hlo]
  constructor
  · exact fun hall g hg haudio => hall g (List.mem_append_right _ hg) haudio (hlo g hg)
  · intro hall g hg haudio hle
    rcases List.mem_append.mp hg with hg | hg
    · exact absurd hg (hk.not_obtained hs hu haudio hle)
    · exact hall g hg haudio

/-- Outside a catch-up a call keeps all the video: the catch-up that it begins has **everything**
before it. -/
theorem keepsVideo_after_free (hk : log.KeepsVideo fs r) (hu : r.videoCatchupUntil = none) :
    (log.after h r).KeepsVideo fs (r.recvBatch h).2 := by
  intro p hp k hkp hvideo hlo hhi
  rcases List.mem_append.mp hp with hp | hp
  · rcases hk p hp k hkp hvideo hlo hhi with hret | hrep | ⟨i, hi, hidr, hlt⟩
    · exact .inl (List.mem_append_left _ hret)
    · exact absurd hrep (not_willReplay hu _)
    · exact .inr (.inr ⟨i, List.mem_append_left _ hi, hidr, hlt⟩)
  · rw [begun, hu] at hp
    rcases hu' : (r.recvBatch h).2.videoCatchupUntil with _ | until'
    · rw [hu'] at hp
      cases hp
    · rw [hu'] at hp
      obtain rfl := List.mem_singleton.mp hp
      exact .inr (.inl ⟨until', hu', hlo, hhi⟩)

/-- A catch-up that ends keeps the video **exactly if** all that was left of it is the frame
returned, or before an IDR frame that is. -/
theorem keepsVideo_after_replay_iff (hs : log.Stands h r) (hk : log.KeepsVideo fs r) {until' : ℕ}
    (hu : r.videoCatchupUntil = some until') (hend : (r.recvBatch h).2.videoCatchupUntil = none) :
    (log.after h r).KeepsVideo fs (r.recvBatch h).2 ↔
      ∀ k ∈ stamped fs, k.isPlayableVideo = true → r.cursor ≤ k.seq → k.seq ≤ until' →
        ∃ v, pickFrame r.policy (r.recvBatch h).1 = some v ∧
          (k = v ∨ (v.isPlayableIdr = true ∧ k.seq < v.seq)) := by
  constructor
  · intro hafter k hkp hvideo hlo hhi
    have hmem := List.mem_append_left (begun r (r.recvBatch h).2) (hs.running until' hu).2
    rcases hafter _ hmem k hkp hvideo hlo hhi with hret | hrep | ⟨i, hi, hidr, hlt⟩
    · rcases List.mem_append.mp hret with hret | hret
      · exact absurd hret (hs.not_returned hlo)
      · exact ⟨k, Option.mem_toList.mp hret, .inl rfl⟩
    · exact absurd hrep (not_willReplay hend _)
    · rcases List.mem_append.mp hi with hi | hi
      · exact absurd hi (hs.not_returned (hlo.trans hlt.le))
      · exact ⟨i, Option.mem_toList.mp hi, .inr ⟨hidr, hlt⟩⟩
  · intro hall p hp k hkp hvideo hlo hhi
    have hnone : begun r (r.recvBatch h).2 = [] := by rw [begun, hu, hend]
    change p ∈ log.catchups ++ begun r (r.recvBatch h).2 at hp
    rw [hnone, List.append_nil] at hp
    rcases hk p hp k hkp hvideo hlo hhi with hret | ⟨u, hmem, hcur, hle⟩ | ⟨i, hi, hidr, hlt⟩
    · exact .inl (List.mem_append_left _ hret)
    · -- it was left to this call
      obtain rfl := Option.some.inj (hu.symm.trans hmem)
      obtain ⟨v, hpick, rfl | hlater⟩ := hall k hkp hvideo hcur hle
      · exact .inl (List.mem_append_right _ (Option.mem_toList.mpr hpick))
      · exact .inr (.inr ⟨v, List.mem_append_right _ (Option.mem_toList.mpr hpick), hlater⟩)
    · exact .inr (.inr ⟨i, List.mem_append_left _ hi, hidr, hlt⟩)

/-- A call that gives nothing and goes on with the same catch-up loses nothing. -/
theorem keeps_after_nil (hk : log.Keeps fs r) (hnil : (r.recvBatch h).1 = [])
    (hsame : (r.recvBatch h).2 = r ∨
      (r.videoCatchupUntil = none ∧ (r.recvBatch h).2.videoCatchupUntil = none)) :
    (log.after h r).Keeps fs (r.recvBatch h).2 := by
  have hlog : log.after h r = log := by
    have hpick : pickFrame r.policy [] = none := by
      rcases r.policy with _ | _ | _ | _ <;> rfl
    have hbegun : begun r (r.recvBatch h).2 = [] := by
      rw [begun]
      rcases hsame with heq | ⟨hu, hu'⟩
      · rw [heq]
        rcases r.videoCatchupUntil with _ | _ <;> rfl
      · rw [hu, hu']
    rw [after, hnil, hpick, hbegun]
    simp
  rw [hlog]
  rcases hsame with heq | ⟨hu, -⟩
  · rw [heq]
    exact hk
  · refine ⟨fun g hg haudio => ?_, fun p hp k hkp hvideo hlo hhi => ?_⟩
    · exact .inl ((hk.1 g hg haudio).resolve_right (not_willReplay hu _))
    · refine (hk.2 p hp k hkp hvideo hlo hhi).imp_right fun hrest => ?_
      exact .inr (hrest.resolve_left (not_willReplay hu _))

/-! ## One call -/

/-- A catch-up reads its range to the end, and ends. -/
theorem recvBatch_replay (hp : r.policy = .liveCoalesce) {until' : ℕ}
    (hu : r.videoCatchupUntil = some until') (hlt : until' < h.ring.writeSeq) :
    r.recvBatch h =
      if h.framesFrom r.cursor until' = [] then ([], r)
      else (h.framesFrom r.cursor until',
        { r with cursor := until' + 1, videoCatchupUntil := none }) := by
  have hmin : min h.latestSeq until' = until' := by
    rw [StreamHub.latestSeq, FrameRing.latestSeq]
    omega
  rw [DispatchReader.recvBatch_of_catchup hp hu, DispatchReader.recvCatchup]
  dsimp only
  rw [hmin, if_pos (Nat.lt_succ_self until')]
  split
  · next hbeyond =>
    rw [if_pos]
    by_contra hne
    obtain ⟨f, -, hlo, hhi⟩ := exists_of_framesFrom_ne_nil hne
    rw [StreamHub.latestSeq, FrameRing.latestSeq] at hbeyond
    omega
  · rfl

/-- In a catch-up. -/
theorem keeps_after_replay_iff (hs : log.Stands h r) (hk : log.Keeps fs r) {until' : ℕ}
    (hu : r.videoCatchupUntil = some until') :
    (log.after h r).Keeps fs (r.recvBatch h).2 ↔ r.Spares fs log.obtained h := by
  have hp : r.policy = .liveCoalesce := hs.coalesces.policy_of_catchup hu
  have hspares : r.Spares fs log.obtained h ↔
      (h.framesFrom r.cursor until' ≠ [] → r.SparesReplay fs log.obtained h until') := by
    rw [DispatchReader.Spares, hu]
  have hrecv := recvBatch_replay hp hu (hs.running until' hu).1
  rw [hspares]
  by_cases hne : h.framesFrom r.cursor until' = []
  · rw [if_pos hne] at hrecv
    refine iff_of_true (keeps_after_nil hk (by rw [hrecv]) (.inl (by rw [hrecv]))) ?_
    exact fun hnot => absurd hne hnot
  · rw [if_neg hne] at hrecv
    have hbatch : (r.recvBatch h).1 = h.framesFrom r.cursor until' := by rw [hrecv]
    have hend : (r.recvBatch h).2.videoCatchupUntil = none := by rw [hrecv]
    have haudio := keepsAudio_after_iff hs hk.1 (h := h) fun g hg => by
      rw [hbatch] at hg
      exact (mem_framesFrom.mp hg).2.1
    have hvideo := keepsVideo_after_replay_iff hs hk.2 hu hend
    rw [hbatch] at haudio hvideo
    rw [Keeps, haudio, hvideo]
    refine Iff.trans ?_ (forall_prop_of_true (q := fun _ => _) hne).symm
    refine and_congr ?_ ?_
    · refine forall_congr' fun g => imp_congr_right fun hg => imp_congr_right fun hga =>
        imp_congr_right fun hlo => ?_
      rw [or_iff_left (not_willReplay hend _), pickFrame_eq_some_iff hs.coalesces hga]
      refine ⟨fun hthis _ => hthis, fun hthis => hthis ?_⟩
      -- what was obtained behind the cursor is within the catch-up
      rcases List.mem_append.mp hg with hg | hg
      · rcases hk.1 g hg hga with hret | ⟨u, hmem, -, hle⟩
        · exact absurd hret (hs.not_returned hlo)
        · obtain rfl := Option.some.inj (hu.symm.trans hmem)
          exact hle
      · exact (mem_framesFrom.mp hg).2.2
    · refine forall_congr' fun k => imp_congr_right fun _ => imp_congr_right fun hkv =>
        imp_congr_right fun _ => imp_congr_right fun _ => exists_congr fun v => ?_
      refine and_congr_left fun hor => ?_
      apply pickFrame_eq_some_video_iff hs.coalesces
      rcases hor with rfl | ⟨hidr, -⟩
      · exact hkv
      · exact StoredFrame.isPlayableVideo_of_isPlayableIdr hidr

/-- A live batch outside a catch-up is of the range. -/
theorem mem_range_of_readBatch {range batch : List StoredFrame}
    (hb : DispatchReader.ReadBatch h r range batch r') {g : StoredFrame} (hg : g ∈ batch) :
    g ∈ range := by
  have hvideo : ∀ w ∈ videoOf range, g ∈ nonVideo range ++ [w] → g ∈ range := by
    intro w hw hmem
    rcases List.mem_append.mp hmem with hmem | hmem
    · exact (List.mem_filter.mp hmem).1
    · rw [List.mem_singleton.mp hmem]
      exact (List.mem_filter.mp hw).1
  cases hb with
  | idle nil => cases hg
  | plain ne videos => exact hg
  | single videos =>
    apply hvideo _ _ hg
    rw [videos]
    exact List.mem_singleton_self _
  | collapse videos last =>
    apply hvideo _ _ hg
    rw [videos]
    exact List.mem_reverse.mp (List.mem_of_find?_eq_some last)
  | drop videos blind => exact (List.mem_filter.mp hg).1

/-- The batch has all the audio of the range. -/
theorem mem_readBatch_of_isAudio {range batch : List StoredFrame}
    (hb : DispatchReader.ReadBatch h r range batch r') {g : StoredFrame} (hg : g ∈ range)
    (haudio : g.isAudio = true) : g ∈ batch := by
  have hnon := mem_nonVideo_of_isAudio hg haudio
  cases hb with
  | idle nil =>
    rw [nil] at hg
    cases hg
  | plain ne videos => exact hg
  | single videos => exact List.mem_append_left _ hnon
  | collapse videos last => exact List.mem_append_left _ hnon
  | drop videos blind => exact hnon

/-- A live reader outside a catch-up: an audio frame of the range is returned, or will be read
again, **exactly if** the condition holds of it. -/
theorem kept_read_iff {range batch : List StoredFrame} (hr : r.Coalesces)
    (hb : DispatchReader.ReadBatch h r range batch r') (hu : r.videoCatchupUntil = none)
    {g : StoredFrame} (hg : g ∈ range) (hlast : g.seq ≤ h.latestSeq) (haudio : g.isAudio = true) :
    (pickFrame r.policy batch = some g ∨ r'.WillReplay g.seq) ↔ SparesRead range g := by
  have hbeside : ∀ v : StoredFrame, v.isPlayableVideo = true → some v ≠ some g := fun v hv heq =>
    StoredFrame.ne_of_isAudio haudio hv (Option.some.inj heq).symm
  have hnone : ¬ ({ r with cursor := h.latestSeq + 1 } : DispatchReader).WillReplay g.seq :=
    not_willReplay (r := { r with cursor := h.latestSeq + 1 }) hu _
  unfold SparesRead
  cases hb with
  | idle nil =>
    rw [nil] at hg
    cases hg
  | plain ne videos =>
    rw [videos, pickFrame_of_noVideo hr videos]
    exact or_iff_left hnone
  | single videos =>
    next v =>
    have hv : v ∈ videoOf range := by
      rw [videos]
      exact List.mem_singleton_self v
    have hv := (List.mem_filter.mp hv).2
    rw [videos, pickFrame_concat hr hv]
    refine iff_of_false (fun hor => ?_) not_false
    rcases hor with heq | hrep
    · exact hbeside v hv heq
    · exact hnone hrep
  | collapse videos last =>
    have hv := StoredFrame.isPlayableVideo_of_isPlayableIdr (List.find?_some last)
    rw [videos, pickFrame_concat hr hv]
    dsimp only
    rw [last]
    constructor
    · rintro (heq | ⟨until', -, hlo, -⟩)
      · exact absurd heq (hbeside _ hv)
      · exact hlo
    · exact fun hlt => .inr ⟨h.latestSeq, rfl, hlt, hlast⟩
  | drop videos blind =>
    rw [videos, pickFrame_of_noVideo hr (videoOf_nonVideo range)]
    dsimp only
    rw [blind]
    exact or_iff_left hnone

/-- Outside a catch-up, with the live policy. -/
theorem keeps_after_read_iff (hinv : RingInv fs h.ring) (hs : log.Stands h r) (hk : log.Keeps fs r)
    (hp : r.policy = .liveCoalesce) (hu : r.videoCatchupUntil = none) :
    (log.after h r).Keeps fs (r.recvBatch h).2 ↔ r.Spares fs log.obtained h := by
  have hb := DispatchReader.recvBatch_readBatch hinv hp hu
  have hlo : ∀ g ∈ (r.recvBatch h).1, r.cursor ≤ g.seq := fun g hg =>
    (mem_framesFrom.mp (mem_range_of_readBatch hb hg)).2.1
  have hspares : r.Spares fs log.obtained h ↔ ∀ g ∈ h.framesFrom r.cursor h.latestSeq,
      g.isAudio = true → SparesRead (h.framesFrom r.cursor h.latestSeq) g := by
    rw [DispatchReader.Spares, hu]
    exact iff_of_eq (if_pos hp)
  rw [hspares, Keeps, and_iff_left (keepsVideo_after_free hk.2 hu),
    keepsAudio_after_free_iff hs hk.1 hu hlo]
  constructor
  · intro hall g hg haudio
    have hlast := (mem_framesFrom.mp hg).2.2
    exact (kept_read_iff hs.coalesces hb hu hg hlast haudio).mp
      (hall g (mem_readBatch_of_isAudio hb hg haudio) haudio)
  · intro hall g hg haudio
    have hg := mem_range_of_readBatch hb hg
    have hlast := (mem_framesFrom.mp hg).2.2
    exact (kept_read_iff hs.coalesces hb hu hg hlast haudio).mpr (hall g hg haudio)

/-- A WebRTC batch begins at the cursor or behind it. -/
theorem le_seq_of_webRtcBatch {batch : List StoredFrame}
    (hb : DispatchReader.WebRtcBatch h r batch r') {g : StoredFrame} (hg : g ∈ batch) :
    r.cursor ≤ g.seq := by
  cases hb with
  | idle whole => cases hg
  | snap lag => cases hg
  | one near stored seq =>
    rw [List.mem_singleton.mp hg]
    exact seq.ge
  | jump gap ne mem => exact (mem g hg).1.le

/-- A WebRTC reader returns the audio of its batches **exactly if** it does so where it jumps. -/
theorem kept_webRtc_iff {batch : List StoredFrame} (hr : r.Coalesces)
    (hb : DispatchReader.WebRtcBatch h r batch r') (hu : r.videoCatchupUntil = none) :
    (∀ g ∈ batch, g.isAudio = true → pickFrame r.policy batch = some g ∨ r'.WillReplay g.seq) ↔
      (r.MeetsGap h → ∀ g ∈ jumpRange h, g.isAudio = true → EndsWithout (jumpRange h) g) := by
  cases hb with
  | idle whole =>
    refine iff_of_true (fun g hg => ?_) fun hgap => absurd hgap whole
    cases hg
  | snap lag =>
    refine iff_of_true (fun g hg => ?_) fun hgap => absurd lag (Nat.not_lt.mpr hgap.1)
    cases hg
  | one near stored seq =>
    next f =>
    refine iff_of_true (fun g hg hga => .inl ?_) fun hgap => ?_
    · -- the batch is one frame
      obtain rfl := List.mem_singleton.mp hg
      rw [pickFrame_eq_some_iff hr hga]
      refine ⟨?_, rfl⟩
      rw [videoOf, List.filter_singleton]
      by_contra hne
      by_cases hv : g.isPlayableVideo = true
      · exact StoredFrame.ne_of_isAudio hga hv rfl
      · simp [hv] at hne
    · have hmem : f ∈ h.framesFrom r.cursor r.cursor :=
        mem_framesFrom.mpr ⟨stored, seq.ge, seq.le⟩
      rw [hgap.2.1] at hmem
      cases hmem
  | jump gap ne mem =>
    next hi =>
    have hnone (n : ℕ) :
        ¬ ({ r with pendingMuxerResync := true, cursor := hi + 1 } : DispatchReader).WillReplay n :=
      not_willReplay (r := { r with pendingMuxerResync := true, cursor := hi + 1 }) hu n
    rw [forall_prop_of_true gap]
    refine forall_congr' fun g => imp_congr_right fun _ => imp_congr_right fun hga => ?_
    rw [or_iff_left (hnone _), pickFrame_eq_some_iff hr hga]

/-- With the WebRTC policy a batch is one frame, but where a gap is jumped over. -/
theorem keeps_after_webRtc_iff (hinv : RingInv fs h.ring) (hs : log.Stands h r)
    (hk : log.Keeps fs r) (hp : r.policy = .webRtcPlay) (hu : r.videoCatchupUntil = none) :
    (log.after h r).Keeps fs (r.recvBatch h).2 ↔ r.Spares fs log.obtained h := by
  have hb := DispatchReader.recvBatch_webRtcBatch hinv hp
  have hspares : r.Spares fs log.obtained h ↔
      (r.MeetsGap h → ∀ g ∈ jumpRange h, g.isAudio = true → EndsWithout (jumpRange h) g) := by
    rw [DispatchReader.Spares, hu]
    exact iff_of_eq (if_neg (by rw [hp]; exact DispatchPolicy.noConfusion))
  rw [hspares, Keeps, and_iff_left (keepsVideo_after_free hk.2 hu),
    keepsAudio_after_free_iff hs hk.1 hu fun g hg => le_seq_of_webRtcBatch hb hg]
  exact kept_webRtc_iff hs.coalesces hb hu

/-- A call keeps what it should **exactly if** the condition holds of it. -/
theorem keeps_after_iff (hinv : RingInv fs h.ring) (hs : log.Stands h r) (hk : log.Keeps fs r) :
    (log.after h r).Keeps fs (r.recvBatch h).2 ↔ r.Spares fs log.obtained h := by
  rcases hu : r.videoCatchupUntil with _ | until'
  · rcases hs.coalesces with hp | ⟨hp, -⟩
    · exact keeps_after_read_iff hinv hs hk hp hu
    · exact keeps_after_webRtc_iff hinv hs hk hp hu
  · exact keeps_after_replay_iff hs hk hu

/-- A call takes the reader on: behind the frame returned, with the catch-up it has, or one that
ends at the live edge. -/
structure MovesOn (h : StreamHub) (r : DispatchReader) (batch : List StoredFrame)
    (r' : DispatchReader) :
    Prop where
  coalesces : r'.Coalesces
  le : r.cursor ≤ r'.cursor
  lt : ∀ f, pickFrame r.policy batch = some f → f.seq < r'.cursor
  running : ∀ until', r'.videoCatchupUntil = some until' →
    until' < h.ring.writeSeq ∧ (r.videoCatchupUntil = none ∨ r' = r)

/-- A catch-up that has been begun is the one that the reader has. -/
theorem mem_begun {p : ℕ × ℕ} (hp : p ∈ begun r r') :
    p.1 = r'.cursor ∧ r'.videoCatchupUntil = some p.2 := by
  unfold begun at hp
  split at hp
  · next hu' =>
    obtain rfl := List.mem_singleton.mp hp
    exact ⟨rfl, hu'⟩
  · cases hp

/-- Where nothing is returned, a reader may stay as it is. -/
theorem MovesOn.refl (hs : log.Stands h r) : MovesOn h r [] r where
  coalesces := hs.coalesces
  le := le_rfl
  lt := by
    intro f hf
    cases mem_of_pickFrame hs.coalesces hf
  running := fun until' hu => ⟨(hs.running until' hu).1, .inr rfl⟩

theorem movesOn_of_readBatch (hinv : RingInv fs h.ring) (hs : log.Stands h r)
    (hp : r.policy = .liveCoalesce) (hu : r.videoCatchupUntil = none) {batch : List StoredFrame}
    (hb : DispatchReader.ReadBatch h r (h.framesFrom r.cursor h.latestSeq) batch r') :
    MovesOn h r batch r' := by
  have hr := hs.coalesces
  have hrange : ∀ f ∈ h.framesFrom r.cursor h.latestSeq,
      r.cursor ≤ f.seq ∧ f.seq ≤ h.latestSeq ∧ h.latestSeq < h.ring.writeSeq := by
    intro f hf
    obtain ⟨hslot, hlo, hhi⟩ := mem_framesFrom.mp hf
    exact ⟨hlo, hhi, (hinv.latestSeq_succ hslot).le⟩
  have hsub := fun g hg => mem_range_of_readBatch (g := g) hb hg
  -- all cases but one put the cursor behind the live edge
  have hedge : h.framesFrom r.cursor h.latestSeq ≠ [] →
      (∀ g ∈ batch, g ∈ h.framesFrom r.cursor h.latestSeq) →
        MovesOn h r batch { r with cursor := h.latestSeq + 1 } := by
    intro hne hbatch
    obtain ⟨f, hf⟩ := List.exists_mem_of_ne_nil _ hne
    refine ⟨.inl hp, ?_, fun g hg => ?_, fun until' hu' => ?_⟩
    · exact ((hrange f hf).1.trans (hrange f hf).2.1).trans (Nat.le_succ _)
    · exact Nat.lt_succ_of_le (hrange g (hbatch g (mem_of_pickFrame hr hg))).2.1
    · rw [hu] at hu'
      cases hu'
  have hne : ∀ v vs, videoOf (h.framesFrom r.cursor h.latestSeq) = v :: vs →
      h.framesFrom r.cursor h.latestSeq ≠ [] := by
    intro v vs hv hnil
    rw [hnil] at hv
    cases hv
  cases hb with
  | idle nil => exact .refl hs
  | plain ne videos => exact hedge ne hsub
  | single videos => exact hedge (hne _ _ videos) hsub
  | drop videos blind => exact hedge (hne _ _ videos) hsub
  | collapse videos last =>
    next idr _ =>
    have hidr := List.mem_of_find?_eq_some last
    rw [List.mem_reverse, ← videos] at hidr
    obtain ⟨hmem, hv⟩ := List.mem_filter.mp hidr
    obtain ⟨hlo, -, hlatest⟩ := hrange idr hmem
    refine ⟨.inl hp, hlo.trans (Nat.le_succ _), fun g hg => ?_, fun until' hu' => ?_⟩
    · rw [pickFrame_concat hr hv] at hg
      rw [← Option.some.inj hg]
      exact Nat.lt_succ_self _
    · obtain rfl := Option.some.inj hu'
      exact ⟨hlatest, .inl hu⟩

theorem movesOn_of_webRtcBatch (hs : log.Stands h r) (hp : r.policy = .webRtcPlay)
    (hu : r.videoCatchupUntil = none) {batch : List StoredFrame}
    (hb : DispatchReader.WebRtcBatch h r batch r') : MovesOn h r batch r' := by
  have hr := hs.coalesces
  have hnone : ∀ until', r.videoCatchupUntil = some until' →
      until' < h.ring.writeSeq ∧ (r.videoCatchupUntil = none ∨ r' = r) := by
    intro until' hu'
    rw [hu] at hu'
    cases hu'
  cases hb with
  | idle whole => exact .refl hs
  | snap lag =>
    refine ⟨.inr ⟨hp, rfl⟩, ?_, fun f hf => ?_, fun until' hu' => ?_⟩
    · change r.cursor ≤ h.latestSeq + 1
      omega
    · cases mem_of_pickFrame hr hf
    · cases hu'
  | one near stored seq =>
    refine ⟨.inr ⟨hp, hu⟩, Nat.le_succ _, fun f hf => ?_, hnone⟩
    rw [List.mem_singleton.mp (mem_of_pickFrame hr hf), seq]
    exact Nat.lt_succ_self _
  | jump gap ne mem =>
    next hi =>
    obtain ⟨g, hg⟩ := List.exists_mem_of_ne_nil _ ne
    refine ⟨.inr ⟨hp, hu⟩, ?_, fun f hf => ?_, hnone⟩
    · change r.cursor ≤ hi + 1
      have hmem := mem g hg
      omega
    · exact Nat.lt_succ_of_le (mem f (mem_of_pickFrame hr hf)).2

theorem movesOn_replay (hs : log.Stands h r) {until' : ℕ} (hu : r.videoCatchupUntil = some until') :
    MovesOn h r (r.recvBatch h).1 (r.recvBatch h).2 := by
  have hr := hs.coalesces
  have hp : r.policy = .liveCoalesce := hr.policy_of_catchup hu
  rw [recvBatch_replay hp hu (hs.running until' hu).1]
  split
  · exact .refl hs
  · next hne =>
    obtain ⟨g, -, hlo, hhi⟩ := exists_of_framesFrom_ne_nil hne
    refine ⟨.inl hp, ?_, fun f hf => ?_, fun u hu' => ?_⟩
    · change r.cursor ≤ until' + 1
      omega
    · exact Nat.lt_succ_of_le (mem_framesFrom.mp (mem_of_pickFrame hr hf)).2.2
    · cases hu'

/-- Every call takes the reader on. -/
theorem movesOn (hinv : RingInv fs h.ring) (hs : log.Stands h r) :
    MovesOn h r (r.recvBatch h).1 (r.recvBatch h).2 := by
  rcases hu : r.videoCatchupUntil with _ | until'
  · rcases hs.coalesces with hp | ⟨hp, -⟩
    · exact movesOn_of_readBatch hinv hs hp hu (DispatchReader.recvBatch_readBatch hinv hp hu)
    · exact movesOn_of_webRtcBatch hs hp hu (DispatchReader.recvBatch_webRtcBatch hinv hp)
  · exact movesOn_replay hs hu

/-- A call leaves the reader where it should be. -/
theorem Stands.after (hs : log.Stands h r) (hinv : RingInv fs h.ring) :
    (log.after h r).Stands h (r.recvBatch h).2 := by
  have hm := movesOn hinv hs
  refine ⟨hm.coalesces, fun f hf => ?_, fun until' hu' => ?_⟩
  · rcases List.mem_append.mp hf with hf | hf
    · exact (hs.before f hf).trans_le hm.le
    · exact hm.lt f (Option.mem_toList.mp hf)
  · obtain ⟨hend, hor⟩ := hm.running until' hu'
    refine ⟨hend, ?_⟩
    rcases hor with hu | heq
    · refine List.mem_append_right _ ?_
      rw [begun, hu, hu']
      exact List.mem_singleton_self _
    · rw [heq] at hu' ⊢
      exact List.mem_append_left _ (hs.running until' hu').2

end PlayLog

end

/-! ## Runs -/

/-- A hub, and one consumer of single frames. -/
structure CoalescedPlay where
  /-- The hub. -/
  hub : StreamHub
  /-- The frames published so far, oldest first. -/
  published : List MediaFrame
  /-- The reader and where its consumer awaits, once it has joined. -/
  reader : Option CoalescedReader
  /-- What has happened between them. -/
  log : PlayLog
  deriving DecidableEq, Repr

/-- A publish, the coming of the reader, or a step of `recv_coalesced`. -/
inductive CoalescedStep where
  | publish (frame : MediaFrame)
  /-- A reader comes, wherever its cursor has been put. -/
  | join (reader : DispatchReader)
  /-- A live reader comes that has been **primed**: an IDR frame of the ring has been returned, and
  a catch-up begins behind it. -/
  | joinPrimed (reader : DispatchReader) (idrSeq : ℕ)
  | loop (l : LoopStep)
  deriving DecidableEq, Repr

namespace CoalescedPlay

/-- A new hub, without a reader. -/
def init (stream : Stream) : CoalescedPlay := ⟨StreamHub.withStream stream, [], none, ⟨[], [], []⟩⟩

/-- The reader that makes a batch in the step. -/
def receiving (s : CoalescedPlay) : CoalescedStep → Option DispatchReader
  | .loop l => s.reader.bind fun u => u.receiving s.hub l
  | _ => none

/-- One step. -/
def step (s : CoalescedPlay) : CoalescedStep → Option CoalescedPlay
  | .publish f => (s.hub.publish f).map fun hub => { s with hub, published := s.published ++ [f] }
  | .join r =>
    if s.reader = none ∧ (r.policy = .liveCoalesce ∨ r.policy = .webRtcPlay) ∧
        r.videoCatchupUntil = none then
      some { s with reader := some ⟨r, .no⟩ }
    else none
  | .joinPrimed r idrSeq =>
    if s.reader = none ∧ r.policy = .liveCoalesce ∧ r.videoCatchupUntil = none then
      ((s.hub.ring.get idrSeq).filter StoredFrame.isPlayableIdr).map fun idr =>
        { s with
          reader := some ⟨r.beginVideoCatchupAfterIdr idrSeq s.hub.latestSeq, .no⟩
          log := ⟨[], [idr], [(idrSeq + 1, s.hub.latestSeq)]⟩ }
    else none
  | .loop l => s.reader.bind fun u => (u.step s.hub l).map fun u' =>
    { s with
      reader := some u'
      log :=
        match u.receiving s.hub l with
        | none => s.log
        | some r => s.log.after s.hub r }

/-- Nothing is lost that should be kept. -/
def Keeps (s : CoalescedPlay) : Prop :=
  ∀ u, s.reader = some u → s.log.Keeps s.published u.reader

/-- After the step nothing is lost that should be kept. -/
def StaysKept (s : CoalescedPlay) (l : CoalescedStep) : Prop := ∀ s', s.step l = some s' → s'.Keeps

/-- The condition on a step: what it reads **spares** what should be kept. -/
def Spares (s : CoalescedPlay) (l : CoalescedStep) : Prop :=
  ∀ r, s.receiving l = some r → r.Spares s.published s.log.obtained s.hub

/-- What holds of the hub and the reader between two steps. -/
structure Inv (s : CoalescedPlay) : Prop where
  /-- The ring is the one that the published frames lead to. -/
  ring : RingInv s.published s.hub.ring
  /-- The reader stands where it should. -/
  stands : ∀ u, s.reader = some u → s.log.Stands s.hub u.reader
  /-- A catch-up ends in the ring. -/
  ended : ∀ p ∈ s.log.catchups, p.2 < s.hub.ring.writeSeq
  /-- Nothing is handed to nobody. -/
  none : s.reader = none → s.log = ⟨[], [], []⟩

theorem Inv.init (stream : Stream) : (CoalescedPlay.init stream).Inv where
  ring := RingInv.withCapacity _ _
  stands := by
    intro u hu
    cases hu
  ended := fun p hp => absurd hp List.not_mem_nil
  none := fun _ => rfl

/-- A version of the watch channel plays no part in where a reader stands. -/
theorem stands_seen {log : PlayLog} {h : StreamHub} {r : DispatchReader} (hs : log.Stands h r)
    (v : ℕ) :
    log.Stands h (r.seen v) :=
  ⟨hs.coalesces, hs.before, hs.running⟩

variable {s s' : CoalescedPlay}

/-- The reader that makes a batch stands where the reader of the state does. -/
theorem Inv.receiving (hi : s.Inv) {u : CoalescedReader} (hu : s.reader = some u) {l : LoopStep}
    {r : DispatchReader} (hr : u.receiving s.hub l = some r) : s.log.Stands s.hub r := by
  obtain ⟨v, rfl⟩ := CoalescedReader.receiving_eq_some hr
  exact stands_seen (hi.stands u hu) v

/-- What was kept is kept by the reader that makes a batch. -/
theorem Keeps.receiving (hk : s.Keeps) {u : CoalescedReader} (hu : s.reader = some u) {l : LoopStep}
    {r : DispatchReader} (hr : u.receiving s.hub l = some r) : s.log.Keeps s.published r := by
  obtain ⟨v, rfl⟩ := CoalescedReader.receiving_eq_some hr
  exact hk u hu

/-- A publish keeps the invariant, and all that was kept: what it brings is behind every catch-up.
-/
theorem Inv.publish (hi : s.Inv) (hk : s.Keeps) {f : MediaFrame} {ring : FrameRing}
    (hp : s.hub.ring.push f = some ring) :
    ({ s with
        hub := { s.hub with ring, seqTx := s.hub.seqTx + 1 }
        published := s.published ++ [f] } : CoalescedPlay).Inv ∧
      ({ s with
        hub := { s.hub with ring, seqTx := s.hub.seqTx + 1 }
        published := s.published ++ [f] } : CoalescedPlay).Keeps := by
  have hring := hi.ring.push hp
  have hnext := hring.writeSeq_eq
  rw [List.length_append, List.length_singleton, ← hi.ring.writeSeq_eq] at hnext
  have hle : s.hub.ring.writeSeq ≤ ring.writeSeq := by omega
  constructor
  · refine ⟨hring, fun u hu => ?_, fun p hp => (hi.ended p hp).trans_le hle, hi.none⟩
    have hs := hi.stands u hu
    refine ⟨hs.coalesces, hs.before, fun until' hu' => ?_⟩
    exact ⟨(hs.running until' hu').1.trans_le hle, (hs.running until' hu').2⟩
  · intro u hu
    obtain ⟨haudio, hvideo⟩ := hk u hu
    refine ⟨haudio, fun p hp k hkp => ?_⟩
    rw [stamped_concat] at hkp
    rcases List.mem_append.mp hkp with hkp | hkp
    · exact hvideo p hp k hkp
    · intro _ _ hhi
      have hlt := hi.ended p hp
      rw [List.mem_singleton.mp hkp, StoredFrame.ofMediaFrame_seq, ← hi.ring.writeSeq_eq] at hhi
      omega

/-- A reader that has been primed has its whole catch-up before it. -/
theorem Inv.joinPrimed (hi : s.Inv) {r : DispatchReader} (hp : r.policy = .liveCoalesce)
    {idr : StoredFrame} {n : ℕ} (hget : s.hub.ring.get n = some idr) :
    ({ s with
        reader := some ⟨r.beginVideoCatchupAfterIdr n s.hub.latestSeq, .no⟩
        log := ⟨[], [idr], [(n + 1, s.hub.latestSeq)]⟩ } : CoalescedPlay).Inv ∧
      ({ s with
        reader := some ⟨r.beginVideoCatchupAfterIdr n s.hub.latestSeq, .no⟩
        log := ⟨[], [idr], [(n + 1, s.hub.latestSeq)]⟩ } : CoalescedPlay).Keeps := by
  obtain ⟨hmem, hseq⟩ := mem_of_get hget
  have hlatest : s.hub.latestSeq < s.hub.ring.writeSeq := (hi.ring.latestSeq_succ hmem).le
  have hrange : ∀ p ∈ [(n + 1, s.hub.latestSeq)], p = (n + 1, s.hub.latestSeq) :=
    fun p hp => List.mem_singleton.mp hp
  constructor
  · refine ⟨hi.ring, fun u hu => ?_, fun p hp => ?_, fun hn => by cases hn⟩
    · obtain rfl := Option.some.inj hu
      refine ⟨.inl hp, fun f hf => ?_, fun until' hu' => ?_⟩
      · rw [List.mem_singleton.mp hf, hseq]
        exact Nat.lt_succ_self n
      · obtain rfl := Option.some.inj hu'
        exact ⟨hlatest, List.mem_singleton_self _⟩
    · rw [hrange p hp]
      exact hlatest
  · intro u hu
    obtain rfl := Option.some.inj hu
    refine ⟨fun g hg => absurd hg List.not_mem_nil, fun p hp k _ _ hlo hhi => ?_⟩
    rw [hrange p hp] at hlo hhi
    exact .inr (.inl ⟨s.hub.latestSeq, rfl, hlo, hhi⟩)

/-- A step of the loop makes a batch, which the log takes in, or leaves all but the version seen. -/
theorem step_loop {l : LoopStep} (h : s.step (.loop l) = some s') :
    ∃ u u', s.reader = some u ∧
      ((∃ r, u.receiving s.hub l = some r ∧ u'.reader = (r.recvBatch s.hub).2 ∧
          s' = { s with reader := some u', log := s.log.after s.hub r }) ∨
        (u.receiving s.hub l = none ∧ (∃ v, u'.reader = u.reader.seen v) ∧
          s' = { s with reader := some u' })) := by
  obtain ⟨u, hu, h⟩ := Option.bind_eq_some_iff.mp h
  obtain ⟨u', hstep, rfl⟩ := Option.map_eq_some_iff.mp h
  refine ⟨u, u', hu, ?_⟩
  obtain ⟨r, hr, rfl⟩ | ⟨hr, hv⟩ := CoalescedReader.step_cases hstep
  · left
    refine ⟨r, hr, CoalescedReader.turn_reader s.hub r, ?_⟩
    rw [hr]
  · right
    refine ⟨hr, hv, ?_⟩
    rw [hr]

/-- A step of the loop keeps the invariant, and what was kept **exactly if** it meets the condition.
-/
theorem Inv.loop (hi : s.Inv) (hk : s.Keeps) {l : LoopStep} (h : s.step (.loop l) = some s') :
    s'.Inv ∧ (s'.Keeps ↔ s.Spares (.loop l)) := by
  obtain ⟨u, u', hu, ⟨r, hr, hu', rfl⟩ | ⟨hr, ⟨v, hv⟩, rfl⟩⟩ := step_loop h
  · have hs := hi.receiving hu hr
    have hreceiving : s.receiving (.loop l) = some r := by
      rw [CoalescedPlay.receiving, hu]
      exact hr
    have hiff := PlayLog.keeps_after_iff hi.ring hs (hk.receiving hu hr)
    constructor
    · refine ⟨hi.ring, fun w hw => ?_, fun p hp => ?_, fun hn => by cases hn⟩
      · obtain rfl := Option.some.inj hw
        change (s.log.after s.hub r).Stands s.hub u'.reader
        rw [hu']
        exact hs.after hi.ring
      · rcases List.mem_append.mp hp with hp | hp
        · exact hi.ended p hp
        · obtain ⟨hcursor, hend⟩ := PlayLog.mem_begun hp
          exact ((PlayLog.movesOn hi.ring hs).running _ hend).1
    · constructor
      · intro hkept r₁ hr₁
        obtain rfl := Option.some.inj (hreceiving.symm.trans hr₁)
        refine hiff.mp ?_
        rw [← hu']
        exact hkept u' rfl
      · intro hsp w hw
        obtain rfl := Option.some.inj hw
        rw [hu']
        exact hiff.mpr (hsp r hreceiving)
  · constructor
    · refine ⟨hi.ring, fun w hw => ?_, hi.ended, fun hn => by cases hn⟩
      obtain rfl := Option.some.inj hw
      rw [hv]
      exact stands_seen (hi.stands u hu) v
    · refine iff_of_true (fun w hw => ?_) fun r₁ hr₁ => ?_
      · obtain rfl := Option.some.inj hw
        rw [hv]
        exact hk u hu
      · rw [CoalescedPlay.receiving, hu, Option.bind_some, hr] at hr₁
        cases hr₁

/-- A step from a state in which all is kept: it leads to one **exactly if** it meets the condition,
and keeps the invariant. -/
theorem Inv.step (hi : s.Inv) (hk : s.Keeps) {l : CoalescedStep} (h : s.step l = some s') :
    s'.Inv ∧ (s'.Keeps ↔ s.Spares l) := by
  cases l with
  | publish f =>
    obtain ⟨hub, hpub, rfl⟩ := Option.map_eq_some_iff.mp h
    obtain ⟨ring, hring, rfl⟩ := StreamHub.publish_eq_some.mp hpub
    obtain ⟨hinv, hkept⟩ := hi.publish hk hring
    refine ⟨hinv, iff_of_true hkept fun r hr => ?_⟩
    cases hr
  | join r =>
    rw [CoalescedPlay.step, Option.ite_none_right_eq_some] at h
    obtain ⟨⟨hnone, hp, hu⟩, h⟩ := h
    obtain rfl := Option.some.inj h
    have hlog := hi.none hnone
    refine ⟨⟨hi.ring, fun w hw => ?_, hi.ended, fun hn => by cases hn⟩,
      iff_of_true (fun w hw => ?_) fun r hr => ?_⟩
    · obtain rfl := Option.some.inj hw
      change s.log.Stands s.hub r
      rw [hlog]
      refine ⟨hp.imp_right fun hw => ⟨hw, hu⟩, fun f hf => absurd hf List.not_mem_nil, ?_⟩
      intro until' hu'
      rw [hu] at hu'
      cases hu'
    · obtain rfl := Option.some.inj hw
      change s.log.Keeps s.published r
      rw [hlog]
      exact ⟨fun g hg => absurd hg List.not_mem_nil, fun p hp => absurd hp List.not_mem_nil⟩
    · cases hr
  | joinPrimed r idrSeq =>
    rw [CoalescedPlay.step, Option.ite_none_right_eq_some] at h
    obtain ⟨⟨-, hp, -⟩, h⟩ := h
    obtain ⟨idr, hidr, rfl⟩ := Option.map_eq_some_iff.mp h
    obtain ⟨hget, -⟩ := Option.filter_eq_some_iff.mp hidr
    obtain ⟨hinv, hkept⟩ := hi.joinPrimed hp hget
    refine ⟨hinv, iff_of_true hkept fun r hr => ?_⟩
    cases hr
  | loop l => exact hi.loop hk h

/-- A step that makes a batch can be taken. -/
theorem exists_step {l : CoalescedStep} {r : DispatchReader} (hr : s.receiving l = some r) :
    ∃ s', s.step l = some s' := by
  cases l with
  | loop l =>
    obtain ⟨u, hu, hr⟩ := Option.bind_eq_some_iff.mp hr
    have hstep : u.step s.hub l = some (CoalescedReader.turn s.hub r) := by
      simp only [CoalescedReader.step, hr]
    simp [CoalescedPlay.step, hu, hstep]
  | _ => cases hr

/-- Along every run of publishes and calls, all audio of the batches and all video of the catch-ups
is kept **exactly if** every call meets the condition. -/
theorem keeps_iff_spares (stream : Stream) (ls : List CoalescedStep) :
    Always CoalescedPlay.step StaysKept (CoalescedPlay.init stream) ls ↔
      Always CoalescedPlay.step Spares (CoalescedPlay.init stream) ls := by
  refine always_iff_of_inv (I := fun s => s.Inv ∧ s.Keeps) (fun s l hi => ?_)
    (fun s l s' hi hm h => ?_)
    ⟨Inv.init stream, fun u hu => by cases hu⟩
  · constructor
    · intro hkept r hr
      obtain ⟨s', h⟩ := exists_step hr
      exact (hi.1.step hi.2 h).2.mp (hkept s' h) r hr
    · exact fun hsp s' h => (hi.1.step hi.2 h).2.mpr hsp
  · obtain ⟨hinv, hiff⟩ := hi.1.step hi.2 h
    exact ⟨hinv, hiff.mpr hm⟩

/-- An audio frame and a video frame come together: the video frame is returned, and the audio frame
**lost**. -/
theorem not_staysKept_beside_video :
    ¬ Always CoalescedPlay.step StaysKept (CoalescedPlay.init (StreamHub.new "live").stream)
      [.publish (testFrame true), .join (DispatchReader.new (StreamHub.new "live") .liveCoalesce),
        .publish Delivery.audioFrame, .publish (testFrame false), .loop .recv] := by
  intro h
  obtain ⟨s, hs⟩ : ∃ s, exec CoalescedPlay.step (CoalescedPlay.init (StreamHub.new "live").stream)
      [.publish (testFrame true), .join (DispatchReader.new (StreamHub.new "live") .liveCoalesce),
        .publish Delivery.audioFrame, .publish (testFrame false)] = some s := ⟨_, rfl⟩
  have hkept := always_iff.mp h _ (.loop .recv) ⟨[], rfl⟩ s hs
  obtain rfl := Option.some.inj hs
  obtain ⟨haudio, -⟩ := hkept _ rfl _ rfl
  rcases haudio (StoredFrame.ofMediaFrame 1 Delivery.audioFrame) (by decide) rfl with hret | hrep
  · exact absurd hret (by decide)
  · obtain ⟨until', hu, -⟩ := hrep
    cases hu

end CoalescedPlay

end VcpMediaServer
