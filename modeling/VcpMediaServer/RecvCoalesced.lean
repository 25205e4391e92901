import VcpMediaServer.LiveDelivery

/-!
# One frame of a batch

`recv_coalesced` is for consumers that want **single frames**: it takes a batch and passes on its
last video frame, or its last frame where it has no video. The reader has moved behind the batch, so
that the rest of it is gone, but for what a catch-up will read again.

* `pickFrame` — the frame that is passed on.
* `ReadBatch` — what one call of a live reader does outside a catch-up, by the video in its range.
* `WebRtcBatch` — what one call of a WebRTC reader does: there is a frame under the cursor, or a gap
  that it jumps over, or a lag that puts it to the live edge.
* `CoalescedReader` — a reader in the loop of `recv_coalesced`, which waits in two places.
-/

namespace VcpMediaServer

open FrameRing Lts

/-- The frame of a batch that `recv_coalesced` returns. -/
def pickFrame (policy : DispatchPolicy) (batch : List StoredFrame) : Option StoredFrame :=
  match policy with
  | .liveCoalesce => (batch.reverse.find? StoredFrame.isPlayableVideo).or batch.getLast?
  | .webRtcPlay => (batch.reverse.find? StoredFrame.isPlayableVideo).or batch.getLast?
  | _ => batch.getLast?

/-- The last frame of a list that a test accepts. -/
theorem find?_reverse_eq_getLast? {α : Type*} (p : α → Bool) (l : List α) :
    l.reverse.find? p = (l.filter p).getLast? := by
  rw [← List.head?_filter, List.filter_reverse, List.head?_reverse]

/-- A consumer of single frames has one of the two coalescing policies. -/
def DispatchReader.Coalesces (r : DispatchReader) : Prop :=
  r.policy = .liveCoalesce ∨ (r.policy = .webRtcPlay ∧ r.videoCatchupUntil = none)

theorem pickFrame_eq {r : DispatchReader} (hr : r.Coalesces) (batch : List StoredFrame) :
    pickFrame r.policy batch = (videoOf batch).getLast?.or batch.getLast? := by
  rw [videoOf, ← find?_reverse_eq_getLast?]
  rcases hr with hp | ⟨hp, -⟩
  · rw [hp]
    rfl
  · rw [hp]
    rfl

theorem mem_of_pickFrame {r : DispatchReader} (hr : r.Coalesces) {batch : List StoredFrame}
    {f : StoredFrame} (h : pickFrame r.policy batch = some f) : f ∈ batch := by
  rw [pickFrame_eq hr, Option.or_eq_some_iff] at h
  rcases h with h | ⟨-, h⟩
  · exact (List.mem_filter.mp (List.mem_of_getLast? h)).1
  · exact List.mem_of_getLast? h

theorem pickFrame_eq_none {r : DispatchReader} (hr : r.Coalesces) {batch : List StoredFrame} :
    pickFrame r.policy batch = none ↔ batch = [] := by
  rw [pickFrame_eq hr, Option.or_eq_none_iff, List.getLast?_eq_none_iff, List.getLast?_eq_none_iff]
  constructor
  · exact And.right
  · rintro rfl
    exact ⟨rfl, rfl⟩

/-- A batch without video passes on its last frame. -/
theorem pickFrame_of_noVideo {r : DispatchReader} (hr : r.Coalesces) {batch : List StoredFrame}
    (h : videoOf batch = []) : pickFrame r.policy batch = batch.getLast? := by
  rw [pickFrame_eq hr, h]
  rfl

/-- A batch with video passes on the last of it. -/
theorem pickFrame_of_video {r : DispatchReader} (hr : r.Coalesces) {batch : List StoredFrame}
    {v : StoredFrame} (h : (videoOf batch).getLast? = some v) :
    pickFrame r.policy batch = some v := by
  rw [pickFrame_eq hr, h]
  rfl

theorem videoOf_nonVideo (frames : List StoredFrame) : videoOf (nonVideo frames) = [] := by
  refine List.filter_eq_nil_iff.mpr fun f hf => ?_
  have hnot := (List.mem_filter.mp hf).2
  simpa using hnot

/-- A list without video is what is left of it without the video. -/
theorem nonVideo_of_noVideo {frames : List StoredFrame} (h : videoOf frames = []) :
    nonVideo frames = frames := by
  refine List.filter_eq_self.mpr fun f hf => ?_
  have hnot := List.filter_eq_nil_iff.mp h f hf
  simpa using hnot

/-! ## One call -/

/-- The range that the gap branch reads: from the latest key frame on, if that is stored. -/
def jumpRange (h : StreamHub) : List StoredFrame :=
  match h.oldestSeq with
  | none => []
  | some oldest =>
    let lo := max (h.snap .latestIdr) oldest
    h.framesFrom lo (min h.latestSeq (lo + (MAX_SEQUENTIAL_BATCH - 1)))

namespace DispatchReader

/-- All of a WebRTC reader's range is gone, and what is stored begins behind it. -/
def MeetsGap (h : StreamHub) (r : DispatchReader) : Prop :=
  h.latestSeq - r.cursor ≤ WEBRTC_LAG_SNAP_THRESHOLD ∧ h.framesFrom r.cursor r.cursor = [] ∧
    ∃ oldest ∈ h.oldestSeq, r.cursor < oldest

variable {fs : List MediaFrame} {h : StreamHub} {r : DispatchReader}

/-- What one call of a live reader hands over outside a catch-up, and the reader afterwards, by the
video in the range up to the live edge. -/
inductive ReadBatch (h : StreamHub) (r : DispatchReader) (range : List StoredFrame) :
    List StoredFrame → DispatchReader → Prop
  /-- Nothing is to be read. -/
  | idle (nil : range = []) : ReadBatch h r range [] r
  /-- Without video, the range is passed on. -/
  | plain (ne : range ≠ []) (videos : videoOf range = []) :
      ReadBatch h r range range { r with cursor := h.latestSeq + 1 }
  /-- A single video frame is put behind the rest. -/
  | single {v : StoredFrame} (videos : videoOf range = [v]) :
      ReadBatch h r range (nonVideo range ++ [v]) { r with cursor := h.latestSeq + 1 }
  /-- Several are collapsed to the last IDR frame, and a catch-up begins behind that. -/
  | collapse {v v' idr : StoredFrame} {vs : List StoredFrame}
    (videos : videoOf range = v :: v' :: vs)
      (last : (v :: v' :: vs).reverse.find? StoredFrame.isPlayableIdr = some idr) :
      ReadBatch h r range (nonVideo range ++ [idr])
        (r.beginVideoCatchupAfterIdr idr.seq h.latestSeq)
  /-- Several without an IDR frame are dropped. -/
  | drop {v v' : StoredFrame} {vs : List StoredFrame} (videos : videoOf range = v :: v' :: vs)
      (blind : (v :: v' :: vs).reverse.find? StoredFrame.isPlayableIdr = none) :
      ReadBatch h r range (nonVideo range) { r with cursor := h.latestSeq + 1 }

/-- Where nothing is to be read, a live reader stays as it is. -/
theorem recvBatch_read_nil (hinv : RingInv fs h.ring) (hp : r.policy = .liveCoalesce)
    (hu : r.videoCatchupUntil = none) (hnil : h.framesFrom r.cursor h.latestSeq = []) :
    r.recvBatch h = ([], r) := by
  have hsnap : r.snapOnLag h = r := by simp [snapOnLag, hp]
  have hend : r.batchEnd h = h.latestSeq := by rw [batchEnd, hp]
  rw [recvBatch_of_free hu]
  by_cases hle : r.cursor ≤ h.latestSeq
  · rw [recvRange_of_snapOnLag hsnap hle, hend, if_pos hnil]
    -- the frame pushed last would be in the range, so nothing is stored
    have hempty : h.ring.slots = [] := by
      by_contra hne
      obtain ⟨f, hf, hseq⟩ := hinv.latest_stored hne
      have hmem : f ∈ h.framesFrom r.cursor h.latestSeq :=
        mem_framesFrom.mpr ⟨hf, hle.trans_eq hseq.symm, hseq.le⟩
      rw [hnil] at hmem
      cases hmem
    have hold : h.oldestSeq = none := by
      rw [StreamHub.oldestSeq, FrameRing.oldestSeq, hempty]
      rfl
    rw [jumpToIdr, hold]
  · rw [recvRange, hsnap]
    exact if_pos (Nat.lt_of_not_le hle)

/-- There is **no other case**. -/
theorem recvBatch_readBatch (hinv : RingInv fs h.ring) (hp : r.policy = .liveCoalesce)
    (hu : r.videoCatchupUntil = none) :
    ReadBatch h r (h.framesFrom r.cursor h.latestSeq) (r.recvBatch h).1 (r.recvBatch h).2 := by
  by_cases hne : h.framesFrom r.cursor h.latestSeq = []
  · rw [recvBatch_read_nil hinv hp hu hne]
    exact .idle hne
  obtain ⟨f, -, hlo, hhi⟩ := exists_of_framesFrom_ne_nil hne
  have hle : r.cursor ≤ h.latestSeq := hlo.trans hhi
  have hsnap : r.snapOnLag h = r := by simp [snapOnLag, hp]
  have hend : r.batchEnd h = h.latestSeq := by rw [batchEnd, hp]
  rw [recvBatch_of_free hu, recvRange_of_snapOnLag hsnap hle, hend, if_neg hne, deliver_live hp,
    lastPlayableIdrSeq_eq hinv]
  rcases hv : videoOf (h.framesFrom r.cursor h.latestSeq) with _ | ⟨v, _ | ⟨v', vs⟩⟩
  · rw [if_neg (by simp), coalesceStored_of_few (by rw [hv]; simp), hv, List.append_nil,
      nonVideo_of_noVideo hv]
    exact .plain hne hv
  · rw [if_neg (by simp), coalesceStored_of_few (by rw [hv]; simp), hv]
    exact .single hv
  · rw [if_pos (by simp), coalesceStored_of_many (by rw [hv]; simp), hv]
    rcases hidr : (v :: v' :: vs).reverse.find? StoredFrame.isPlayableIdr with _ | idr
    · rw [Option.toList_none, List.append_nil]
      exact .drop hv hidr
    · exact .collapse hv hidr

/-- The gap branch jumps **into** the ring where that begins behind the cursor. -/
theorem jumpToIdr_of_oldest (hinv : RingInv fs h.ring) {oldest : ℕ}
    (hold : h.oldestSeq = some oldest) (hlt : r.cursor < oldest) :
    ∃ hi, (∀ f ∈ jumpRange h, r.cursor < f.seq ∧ f.seq ≤ hi) ∧ jumpRange h ≠ [] ∧
      r.jumpToIdr h = (jumpRange h, { r with pendingMuxerResync := true, cursor := hi + 1 }) := by
  have hle : max (h.snap .latestIdr) oldest ≤ h.latestSeq := hinv.jump_le_latestSeq hold
  have hrange : jumpRange h = h.framesFrom (max (h.snap .latestIdr) oldest)
      (min h.latestSeq (max (h.snap .latestIdr) oldest + (MAX_SEQUENTIAL_BATCH - 1))) := by
    rw [jumpRange, hold]
  have hne : jumpRange h ≠ [] := by
    obtain ⟨f, hf, hseq⟩ := hinv.stored_after_jump hold le_rfl hle
    rw [hrange]
    refine List.ne_nil_of_mem (mem_framesFrom.mpr ⟨hf, hseq.ge, ?_⟩)
    rw [hseq]
    exact le_min hle (Nat.le_add_right _ _)
  refine ⟨min h.latestSeq (max (h.snap .latestIdr) oldest + (MAX_SEQUENTIAL_BATCH - 1)),
    fun f hf => ?_, hne, ?_⟩
  · rw [hrange] at hf
    obtain ⟨-, hlo, hhi⟩ := mem_framesFrom.mp hf
    exact ⟨(hlt.trans_le (Nat.le_max_right _ _)).trans_le hlo, hhi⟩
  · rw [jumpToIdr, hold]
    dsimp only
    rw [if_pos hlt, if_pos hle, ← hrange, if_neg hne]

/-- Where the ring does not begin behind the cursor there is nothing to jump over. -/
theorem jumpToIdr_of_no_gap (hgap : ¬ ∃ oldest ∈ h.oldestSeq, r.cursor < oldest) :
    r.jumpToIdr h = ([], r) := by
  rw [jumpToIdr]
  rcases hold : h.oldestSeq with _ | oldest
  · rfl
  · exact if_neg fun hlt => hgap ⟨oldest, hold, hlt⟩

/-- One frame at most is stored under a number. -/
theorem exists_framesFrom_self (hinv : RingInv fs h.ring) {n : ℕ} (hne : h.framesFrom n n ≠ []) :
    ∃ f, h.framesFrom n n = [f] ∧ f ∈ h.ring.slots ∧ f.seq = n := by
  have hlen := hinv.framesFrom_self_length n
  change (h.framesFrom n n).length ≤ 1 at hlen
  obtain ⟨f, rest, hframes⟩ := List.exists_cons_of_ne_nil hne
  rw [hframes, List.length_cons] at hlen
  obtain rfl : rest = [] := List.eq_nil_of_length_eq_zero (by omega)
  obtain ⟨hstored, hlo, hhi⟩ := mem_framesFrom.mp
    (show f ∈ h.framesFrom n n by rw [hframes]; exact List.mem_singleton_self f)
  exact ⟨f, hframes, hstored, le_antisymm hhi hlo⟩

/-- What one call of a WebRTC reader hands over, and the reader afterwards. -/
inductive WebRtcBatch (h : StreamHub) (r : DispatchReader) : List StoredFrame → DispatchReader →
    Prop
  /-- Nothing is to be read. -/
  | idle (whole : ¬ r.MeetsGap h) (gone : ∀ f ∈ h.ring.slots, f.seq ≠ r.cursor) :
    WebRtcBatch h r [] r
  /-- The reader is put behind the live edge. -/
  | snap (lag : WEBRTC_LAG_SNAP_THRESHOLD < h.latestSeq - r.cursor) :
      WebRtcBatch h r [] ({ r with pendingLiveSnap := true }.snapToLiveEdge h)
  /-- The frame under the cursor. -/
  | one {f : StoredFrame} (near : h.latestSeq - r.cursor ≤ WEBRTC_LAG_SNAP_THRESHOLD)
      (stored : f ∈ h.ring.slots) (seq : f.seq = r.cursor) :
      WebRtcBatch h r [f] { r with cursor := r.cursor + 1 }
  /-- That is gone, and the reader jumps ahead. -/
  | jump {hi : ℕ} (gap : r.MeetsGap h) (ne : jumpRange h ≠ [])
      (mem : ∀ f ∈ jumpRange h, r.cursor < f.seq ∧ f.seq ≤ hi) :
      WebRtcBatch h r (jumpRange h) { r with pendingMuxerResync := true, cursor := hi + 1 }

/-- A single frame is passed on as it is. -/
theorem coalesceStored_singleton (f : StoredFrame) : coalesceStored [f] = [f] := by
  rw [coalesceStored, coalesceBy]
  by_cases hf : f.isPlayableVideo = true
  · simp [hf]
  · simp [hf]

/-- There is **no other case**. -/
theorem recvBatch_webRtcBatch (hinv : RingInv fs h.ring) (hp : r.policy = .webRtcPlay) :
    WebRtcBatch h r (r.recvBatch h).1 (r.recvBatch h).2 := by
  rw [recvBatch_of_ne (by rw [hp]; exact DispatchPolicy.noConfusion)]
  by_cases hlag : WEBRTC_LAG_SNAP_THRESHOLD < h.latestSeq - r.cursor
  · have hrange : r.recvRange h = ([], { r with pendingLiveSnap := true }.snapToLiveEdge h) := by
      have hsnap : r.snapOnLag h = { r with pendingLiveSnap := true }.snapToLiveEdge h :=
        if_pos ⟨hp, hlag⟩
      rw [recvRange, hsnap]
      exact if_pos (Nat.lt_succ_self _)
    rw [hrange]
    exact .snap hlag
  have hnear := Nat.le_of_not_lt hlag
  have hsnap : r.snapOnLag h = r := if_neg fun hand => hlag hand.2
  have hend : r.batchEnd h = r.cursor := by rw [batchEnd, hp]
  by_cases hle : r.cursor ≤ h.latestSeq
  · rw [recvRange_of_snapOnLag hsnap hle, hend]
    split
    · next hnil =>
      by_cases hgap : ∃ oldest ∈ h.oldestSeq, r.cursor < oldest
      · obtain ⟨oldest, hold, hlt⟩ := hgap
        obtain ⟨hi, hmem, hne, heq⟩ := jumpToIdr_of_oldest (r := r) hinv hold hlt
        rw [heq]
        exact .jump ⟨hnear, hnil, oldest, hold, hlt⟩ hne hmem
      · rw [jumpToIdr_of_no_gap hgap]
        refine .idle (fun hmeets => hgap hmeets.2.2) fun f hf hseq => ?_
        refine List.ne_nil_of_mem (mem_framesFrom.mpr ⟨hf, hseq.ge, hseq.le⟩) hnil
    · next hne =>
      obtain ⟨f, hf, hstored, hseq⟩ := exists_framesFrom_self hinv hne
      have hdeliver : r.deliver h [f] r.cursor = ([f], { r with cursor := r.cursor + 1 }) := by
        simp only [deliver, hp, coalesceStored_singleton]
      rw [hf, hdeliver]
      exact .one hnear hstored hseq
  · have hidle : r.recvRange h = ([], r) := by
      rw [recvRange, hsnap]
      exact if_pos (Nat.lt_of_not_le hle)
    rw [hidle]
    refine .idle (fun hmeets => hle ?_) fun f hf hseq => hle ?_
    · obtain ⟨-, -, oldest, hold, hlt⟩ := hmeets
      exact hlt.le.trans ((Nat.le_max_right _ _).trans (hinv.jump_le_latestSeq hold))
    · have hlt := hinv.seq_lt_writeSeq hf
      rw [← hinv.latestSeq_succ hf, hseq] at hlt
      exact Nat.le_of_lt_succ hlt

end DispatchReader

/-! ## The loop -/

/-- Where a call of `recv_coalesced` awaits the watch channel: not at all, in `recv_batch`, or
behind an empty batch. -/
inductive CoalescedWait where
  | no
  | batch
  | loop
  deriving DecidableEq, Repr

/-- A reader, and where its consumer awaits. -/
structure CoalescedReader where
  /-- The reader. -/
  reader : DispatchReader
  /-- Where the call awaits. -/
  wait : CoalescedWait
  deriving DecidableEq, Repr

/-- A step of the loop. -/
inductive LoopStep where
  /-- `recv_batch` is called, by the consumer's call or on the next turn of the loop. -/
  | recv
  /-- What the loop awaits finds the watch channel changed. -/
  | wake
  deriving DecidableEq, Repr

namespace CoalescedReader

/-- The reader that makes a batch in the step: its `ensure_data` has returned. -/
def receiving (u : CoalescedReader) (h : StreamHub) : LoopStep → Option DispatchReader
  | .recv => if u.reader.ensureReady h then some u.reader else none
  | .wake =>
    if u.wait = .batch ∧ u.reader.wake ≠ h.seqTx then some (u.reader.seen h.seqTx) else none

/-- The rest of a turn, after `recv_batch`: an empty batch leads to the `ensure_data` of the loop,
another one out of it. -/
def turn (h : StreamHub) (r : DispatchReader) : CoalescedReader :=
  let r' := (r.recvBatch h).2
  if (r.recvBatch h).1 = [] then ⟨r', if r'.ensureReady h then .no else .loop⟩ else ⟨r', .no⟩

/-- The step; `none` if there is nothing to wake. -/
def step (u : CoalescedReader) (h : StreamHub) (l : LoopStep) : Option CoalescedReader :=
  match u.receiving h l, l with
  | some r, _ => some (turn h r)
  | none, .recv => some { u with wait := .batch }
  | none, .wake =>
    if u.wait = .loop ∧ u.reader.wake ≠ h.seqTx then some ⟨u.reader.seen h.seqTx, .no⟩ else none

@[simp] theorem turn_reader (h : StreamHub) (r : DispatchReader) :
    (turn h r).reader = (r.recvBatch h).2 := by
  unfold turn
  split
  · rfl
  · rfl

/-- The reader that makes a batch is the one of the state, with a version of the watch channel seen.
-/
theorem receiving_eq_some {u : CoalescedReader} {h : StreamHub} {l : LoopStep} {r : DispatchReader}
    (hr : u.receiving h l = some r) : ∃ v, r = u.reader.seen v := by
  cases l with
  | recv =>
    rw [receiving, Option.ite_none_right_eq_some] at hr
    exact ⟨u.reader.wake, (Option.some.inj hr.2).symm⟩
  | wake =>
    rw [receiving, Option.ite_none_right_eq_some] at hr
    exact ⟨h.seqTx, (Option.some.inj hr.2).symm⟩

/-- A step makes a batch, or leaves the reader but for the version seen. -/
theorem step_cases {u u' : CoalescedReader} {h : StreamHub} {l : LoopStep}
    (hs : u.step h l = some u') :
    (∃ r, u.receiving h l = some r ∧ u' = turn h r) ∨
      (u.receiving h l = none ∧ ∃ v, u'.reader = u.reader.seen v) := by
  unfold step at hs
  split at hs
  · next r hr => exact .inl ⟨r, hr, (Option.some.inj hs).symm⟩
  · next hr =>
    obtain rfl := Option.some.inj hs
    exact .inr ⟨hr, u.reader.wake, rfl⟩
  · next hr =>
    rw [Option.ite_none_right_eq_some] at hs
    obtain rfl := Option.some.inj hs.2
    exact .inr ⟨hr, h.seqTx, rfl⟩

end CoalescedReader

end VcpMediaServer
