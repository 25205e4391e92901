import VcpMediaServer.KeyGate
import VcpMediaServer.LiveDelivery

/-!
# The start of live playback

`live_play.rs`, and what the play loops of HTTP-FLV and RTMP have in common. A viewer starts from an
IDR frame: the reader is put to the live edge and read from until a batch has one; after that, the
newest one stored will do.

* `letThrough` — what a play loop makes of a frame: it is passed over while no IDR frame has come
  since the last gap.
* `Priming` — `prime_live_play`, with publishes and resets of the hub in between.
* `Priming.startsWell_run` — along every run, **no video is lost** between the IDR frame and what is
  read next, unless a gap has been flagged.
-/

namespace VcpMediaServer

open FrameRing Lts

/-! ## Frames -/

/-- `is_playable_video_frame`. -/
def isPlayableVideoFrame (frame : MediaFrame) : Bool :=
  if !frame.codec.isVideo then false
  else
    let data := ensureAnnexB frame.data
    !data.isEmpty && !isParameterSetOnly data

/-- `prepare_h264_play_frame`. -/
def prepareH264PlayFrame (m : StreamManager) (s : StreamId) (frame : MediaFrame) : MediaFrame :=
  (MediaFrame.new s frame.trackId frame.timestamp (prependH264Config m s frame)
    true frame.codec).withOptionalClockRate
    frame.clockRate

theorem isPlayableVideo_of_frame {frame : MediaFrame} (h : isPlayableVideoFrame frame = true) :
    isPlayableVideo frame = true := by
  unfold isPlayableVideoFrame at h
  split at h
  · cases h
  · next hvideo =>
    have hdata : frame.data ≠ [] := by
      intro hnil
      rw [hnil, ensureAnnexB, if_pos rfl] at h
      cases h
    have hcodec : frame.codec.isVideo = true := by
      cases hc : frame.codec.isVideo with
      | true => rfl
      | false => exact absurd (by rw [hc]; rfl) hvideo
    rw [isPlayableVideo, hcodec, List.isEmpty_eq_false_iff.mpr hdata]
    rfl

/-! ## The gate of a play loop -/

/-- What the play loops of HTTP-FLV and RTMP do with a frame first: `none` if it is passed over,
else whether video is being sent from now on. -/
def letThrough (videoStreaming : Bool) (frame : MediaFrame) : Option Bool :=
  if frame.codec = .opus ∨ frame.codec = .g711 then none
  else if frame.codec.isVideo && !videoStreaming && !isIdrFrame frame then none
  else if frame.codec = .aac ∧ frame.data.length < 8 then none
  else some (videoStreaming || frame.codec.isVideo)

/-- The frames that a play loop sends at all: not those of Opus and G711, nor the short ones of AAC.
-/
def Relayable (frame : MediaFrame) : Prop :=
  frame.codec ≠ .opus ∧ frame.codec ≠ .g711 ∧ (frame.codec = .aac → 8 ≤ frame.data.length)

instance : DecidablePred Relayable := fun _ => inferInstanceAs (Decidable (_ ∧ _ ∧ _))

theorem isSome_letThrough {videoStreaming : Bool} {frame : MediaFrame} :
    (letThrough videoStreaming frame).isSome ↔
    Relayable frame ∧ (frame.codec.isVideo = true →
        isIdrFrame frame = true ∨ videoStreaming = true) := by
  unfold letThrough Relayable
  cases frame.codec <;> cases videoStreaming <;> cases isIdrFrame frame <;> simp [CodecType.isVideo]

theorem codec_of_letThrough {videoStreaming opened : Bool} {frame : MediaFrame}
    (h : letThrough videoStreaming frame = some opened) :
    frame.codec ≠ .opus ∧ frame.codec ≠ .g711 := by
  unfold letThrough at h
  split at h
  · cases h
  · next hother => exact not_or.mp hother

/-- A key frame of video is admitted in any case. -/
theorem letThrough_key {frame : MediaFrame}
    (hkey : (frame.isKeyframe && frame.codec.isVideo) = true) (videoStreaming : Bool) :
    letThrough videoStreaming frame = some true := by
  obtain ⟨hkeyframe, hvideo⟩ := Bool.and_eq_true_iff.mp hkey
  have hidr : isIdrFrame frame = true := by rw [isIdrFrame, hkeyframe, Bool.true_or]
  rw [letThrough, hidr, hvideo]
  cases hcodec : frame.codec with
  | h264 | h265 => simp
  | aac | opus | g711 | unknown =>
    rw [hcodec] at hvideo
    cases hvideo

namespace LiveGate

variable {ι : Type} (frameOf : ι → MediaFrame)

/-- The gate of video, for what a loop is given of each frame. -/
abbrev gate : Bool → KeyGate.Event ι → Bool × List ι :=
  KeyGate.step (fun item => (frameOf item).codec.isVideo) (fun item => isIdrFrame (frameOf item))

/-- What a frame is at the gate. -/
def items (item : ι) : List (KeyGate.Event ι) :=
  if Relayable (frameOf item) then [.item item] else []

/-- What a batch is at the gate. -/
def resets (resync : Bool) : List (KeyGate.Event ι) := if resync then [.reset] else []

/-- The frames that pass the gate. -/
def admitted (videoStreaming : Bool) (es : List (KeyGate.Event ι)) : List ι :=
  (Mealy.trace (gate frameOf) videoStreaming es).flatten

/-- The frames that pass the gate, and can be sent. -/
def passed (videoStreaming : Bool) (es : List (KeyGate.Event ι)) : List ι :=
  (admitted frameOf videoStreaming es).filter fun item => (frameOf item).codec ≠ .unknown

/-- **`letThrough` is the gate** of video, for the frames that are sent at all. -/
theorem final_items (videoStreaming : Bool) (item : ι) :
    Mealy.final (gate frameOf) videoStreaming (items frameOf item) =
        (letThrough videoStreaming (frameOf item)).getD videoStreaming ∧
      admitted frameOf videoStreaming (items frameOf item) =
        if (letThrough videoStreaming (frameOf item)).isSome then [item] else [] := by
  unfold admitted items letThrough
  split
  · next h =>
    obtain ⟨hopus, hg711, haac⟩ := h
    have haac' : ¬((frameOf item).codec = .aac ∧ (frameOf item).data.length < 8) := fun h =>
      Nat.not_lt.mpr (haac h.1) h.2
    rw [if_neg (not_or.mpr ⟨hopus, hg711⟩), if_neg haac', Mealy.final_cons, Mealy.final_nil,
      Mealy.trace_cons, Mealy.trace_nil, gate, KeyGate.step]
    cases (frameOf item).codec.isVideo <;> cases videoStreaming <;>
      cases isIdrFrame (frameOf item) <;> simp
  · next h =>
    have hnone : letThrough videoStreaming (frameOf item) = none := by
      unfold letThrough
      split
      · rfl
      · next hother =>
        obtain ⟨hopus, hg711⟩ := not_or.mp hother
        split
        · rfl
        · refine if_pos (not_not.mp fun haac => h ⟨hopus, hg711, fun hcodec => ?_⟩)
          exact Nat.not_lt.mp fun hlt => haac ⟨hcodec, hlt⟩
    rw [← letThrough, hnone]
    exact ⟨rfl, rfl⟩

theorem final_resets (videoStreaming resync : Bool) :
    Mealy.final (gate frameOf) videoStreaming (resets resync) = (videoStreaming && !resync) := by
  cases resync <;> simp [resets, gate, KeyGate.step]

variable {frameOf} {item : ι} {videoStreaming opened : Bool}

theorem admitted_of_none (h : letThrough videoStreaming (frameOf item) = none) :
    admitted frameOf videoStreaming (items frameOf item) = [] := by
  rw [(final_items frameOf videoStreaming item).2, h]
  rfl

theorem admitted_of_some (h : letThrough videoStreaming (frameOf item) = some opened) :
    admitted frameOf videoStreaming (items frameOf item) = [item] := by
  rw [(final_items frameOf videoStreaming item).2, h, Option.isSome_some, if_pos rfl]

theorem passed_of_none (h : letThrough videoStreaming (frameOf item) = none) :
    passed frameOf videoStreaming (items frameOf item) = [] := by
  rw [passed, admitted_of_none h]
  rfl

theorem passed_of_some (h : letThrough videoStreaming (frameOf item) = some opened) :
    passed frameOf videoStreaming (items frameOf item) =
      if (frameOf item).codec = .unknown then [] else [item] := by
  rw [passed, admitted_of_some h, List.filter_singleton]
  by_cases hcodec : (frameOf item).codec = .unknown <;> simp [hcodec]

/-- What passes can be sent. -/
theorem relayable_of_passed {es : List (KeyGate.Event ι)}
    (hes : ∀ item, .item item ∈ es → Relayable (frameOf item))
    (h : item ∈ passed frameOf videoStreaming es) :
    Relayable (frameOf item) ∧ (frameOf item).codec ≠ .unknown := by
  obtain ⟨htrace, hcodec⟩ := List.mem_filter.mp h
  exact ⟨hes item (KeyGate.mem_of_mem_trace htrace), of_decide_eq_true hcodec⟩

theorem relayable_of_items {item' : ι} (h : .item item' ∈ items frameOf item) :
    Relayable (frameOf item') := by
  unfold items at h
  split at h
  · next hrelay =>
    obtain rfl := KeyGate.Event.item.inj (List.mem_singleton.mp h)
    exact hrelay
  · cases h

theorem admitted_append (videoStreaming : Bool) (es es' : List (KeyGate.Event ι)) :
    admitted frameOf videoStreaming (es ++ es') =
      admitted frameOf videoStreaming es ++
        admitted frameOf (Mealy.final (gate frameOf) videoStreaming es) es' := by
  rw [admitted, Mealy.trace_append, List.flatten_append, admitted, admitted]

theorem passed_append (videoStreaming : Bool) (es es' : List (KeyGate.Event ι)) :
    passed frameOf videoStreaming (es ++ es') =
      passed frameOf videoStreaming es ++
        passed frameOf (Mealy.final (gate frameOf) videoStreaming es) es' := by
  rw [passed, admitted_append, List.filter_append, passed, passed]

theorem admitted_resets (videoStreaming resync : Bool) :
    admitted frameOf videoStreaming (resets resync) = [] := by
  cases resync <;> simp [admitted, resets, gate, KeyGate.step]

theorem passed_resets (videoStreaming resync : Bool) :
    passed frameOf videoStreaming (resets resync) = [] := by
  rw [passed, admitted_resets]
  rfl

theorem admitted_resets_append (videoStreaming resync : Bool) (es : List (KeyGate.Event ι)) :
    admitted frameOf videoStreaming (resets resync ++ es) =
      admitted frameOf (videoStreaming && !resync) es := by
  rw [admitted_append, final_resets, admitted_resets, List.nil_append]

/-- A key frame passes, whether the gate is open or not. -/
theorem final_key (hkey : ((frameOf item).isKeyframe && (frameOf item).codec.isVideo) = true)
    (videoStreaming : Bool) :
    Mealy.final (gate frameOf) videoStreaming (items frameOf item) = true ∧
      admitted frameOf videoStreaming (items frameOf item) = [item] := by
  refine ⟨?_, admitted_of_some (letThrough_key hkey videoStreaming)⟩
  rw [(final_items frameOf videoStreaming item).1, letThrough_key hkey]
  rfl

/-- A key frame that playback starts from opens the gate, and passes. -/
theorem final_primed (hkey : ((frameOf item).isKeyframe && (frameOf item).codec.isVideo) = true)
    (videoStreaming resync : Bool) :
    Mealy.final (gate frameOf) videoStreaming (resets resync ++ items frameOf item) = true ∧
      admitted frameOf videoStreaming (resets resync ++ items frameOf item) = [item] := by
  rw [Mealy.final_append, final_resets, admitted_resets_append]
  exact final_key hkey _

end LiveGate

/-! ## Priming -/

/-- Where `prime_live_play` stands. -/
inductive PrimingPhase where
  /-- Nobody calls it. -/
  | idle
  /-- It waits for a batch. -/
  | waiting (reader : DispatchReader)
  /-- It has returned the frame to start from, before it is prepared, or none. -/
  | returned (reader : DispatchReader) (frame : Option StoredFrame)

/-- A hub, and a viewer who comes. -/
structure Priming where
  /-- The hub. -/
  hub : StreamHub
  /-- The frames published since the ring was created or last reset. -/
  published : List MediaFrame
  /-- The call. -/
  phase : PrimingPhase

/-- A step of `prime_live_play`, or of somebody else. -/
inductive PrimingStep where
  | publish (frame : MediaFrame)
  /-- A publisher comes or goes. -/
  | reset
  /-- A play session calls `prime_live_play`. -/
  | call (reader : DispatchReader)
  /-- `recv_batch` returns in time. -/
  | batch
  /-- The time is up, or the hub is closed. -/
  | giveUp

namespace Priming

/-- A new hub. -/
def init (stream : Stream) : Priming :=
  { hub := StreamHub.withStream stream, published := [], phase := .idle }

/-- A frame of a batch that playback can start from. -/
def starts (f : StoredFrame) : Bool :=
  isPlayableVideoFrame f.toMediaFrame && isIdrFrame f.toMediaFrame

/-- What comes of a batch: the last such frame ends the wait. -/
def onBatch (hub : StreamHub) (reader : DispatchReader) : PrimingPhase :=
  let (batch, reader) := reader.recvBatch hub
  match (batch.filter starts).getLast? with
  | some idr => .returned reader (some idr)
  | none => .waiting reader

/-- What is tried in the end: the newest IDR frame stored, if it is close to the live edge. -/
def fallback (hub : StreamHub) (reader : DispatchReader) : PrimingPhase :=
  match hub.latestIdrSeq.bind hub.ring.get, hub.latestIdrSeq with
  | some idr, some idrSeq =>
    if hub.latestSeq - idrSeq ≤ 30 && starts idr then
      .returned (reader.beginVideoCatchupAfterIdr idrSeq hub.latestSeq) (some idr)
    else .returned reader none
  | _, _ => .returned reader none

/-- A step. The play sessions subscribe with the live policy. -/
def step (s : Priming) : PrimingStep → Option Priming
  | .publish frame => (s.hub.publish frame).map fun hub =>
    { s with hub, published := s.published ++ [frame] }
  | .reset => some { s with hub := s.hub.reset, published := [] }
  | .call reader =>
    if reader.policy = .liveCoalesce then some
      { s with phase := .waiting (reader.finishPrime s.hub) } else none
  | .batch =>
    match s.phase with
    | .waiting reader => some { s with phase := onBatch s.hub reader }
    | _ => none
  | .giveUp =>
    match s.phase with
    | .waiting reader => some { s with phase := fallback s.hub reader }
    | _ => none

/-- A frame that the dispatcher takes for an IDR frame will do for the viewer. -/
def TestsAgree (frame : MediaFrame) : Prop :=
  isPlayableIdr frame = true → isPlayableVideoFrame frame = true ∧ isIdrFrame frame = true

/-- None of the video stored behind the frame is passed over by the reader. -/
def Lossless (hub : StreamHub) (reader : DispatchReader) (f : StoredFrame) : Prop :=
  ∀ g ∈ hub.ring.slots, g.isPlayableVideo = true → f.seq < g.seq → reader.cursor ≤ g.seq

/-- What a call returns: a stored frame to start from, and a reader that passes over none of the
video behind it, unless it has flagged a gap. -/
structure StartsWell (hub : StreamHub) (reader : DispatchReader) (f : StoredFrame) : Prop where
  stored : f ∈ hub.ring.slots
  starts : starts f = true
  lossless : reader.pendingMuxerResync = true ∨ Lossless hub reader f

/-- What holds between two steps. -/
structure Inv (s : Priming) : Prop where
  ring : RingInv s.published s.hub.ring
  agree : ∀ frame ∈ s.published, TestsAgree frame
  /-- A reader that waits is a live one, and in no catch-up. -/
  waiting : ∀ reader, s.phase = .waiting reader →
    reader.policy = .liveCoalesce ∧ reader.videoCatchupUntil = none

variable {s s' : Priming} {l : PrimingStep} {f : StoredFrame} {hub : StreamHub}
    {published : List MediaFrame}
  {r : DispatchReader}

theorem starts_playable (h : starts f = true) : f.isPlayableVideo = true :=
  isPlayableVideo_of_frame (Bool.and_eq_true_iff.mp h).1

/-- What a viewer starts from, once it is prepared, is a key frame of video. -/
theorem StartsWell.prepared (h : StartsWell hub r f) (m : StreamManager) (s : StreamId) :
    ((prepareH264PlayFrame m s f.toMediaFrame).isKeyframe &&
      (prepareH264PlayFrame m s f.toMediaFrame).codec.isVideo) = true := by
  have hvideo : f.toMediaFrame.codec.isVideo = true := by
    have hplayable := (Bool.and_eq_true_iff.mp h.starts).1
    rw [isPlayableVideoFrame] at hplayable
    cases hcodec : f.toMediaFrame.codec.isVideo with
    | true => rfl
    | false =>
      rw [hcodec] at hplayable
      cases hplayable
  rw [prepareH264PlayFrame, MediaFrame.withOptionalClockRate]
  cases f.toMediaFrame.clockRate <;> exact hvideo

theorem mem_videoOf_of_starts {frames : List StoredFrame}
    (hf : f ∈ nonVideo frames ++ videoOf frames) (h : starts f = true) : f ∈ videoOf frames := by
  rcases List.mem_append.mp hf with hf | hf
  · have hnot := (List.mem_filter.mp hf).2
    rw [starts_playable h] at hnot
    cases hnot
  · exact hf

/-- A stored frame has been published. -/
theorem starts_of_stored (hring : RingInv published hub.ring)
    (hagree : ∀ frame ∈ published, TestsAgree frame) (hf : f ∈ hub.ring.slots)
    (hidr : f.isPlayableIdr = true) : starts f = true := by
  have hmem := hring.mem_stamped hf
  obtain ⟨i, hi⟩ := List.mem_iff_getElem?.mp hmem
  rw [stamped_getElem?] at hi
  obtain ⟨frame, hframe, rfl⟩ := Option.map_eq_some_iff.mp hi
  exact Bool.and_eq_true_iff.mpr (hagree frame (List.mem_of_getElem? hframe) hidr)

/-- **A batch**: the wait goes on without a catch-up, or the call returns well. -/
theorem onBatch_cases (hring : RingInv published hub.ring)
    (hagree : ∀ frame ∈ published, TestsAgree frame) (hlive : r.policy = .liveCoalesce)
    (hfree : r.videoCatchupUntil = none) :
    (∃ r', onBatch hub r = .waiting r' ∧ r'.policy = .liveCoalesce ∧ r'.videoCatchupUntil = none) ∨
      ∃ r' f, onBatch hub r = .returned r' (some f) ∧ StartsWell hub r' f := by
  have hb := DispatchReader.recvBatch_liveBatch hring hlive
  rw [onBatch]
  generalize r.recvBatch hub = result at hb ⊢
  obtain ⟨batch, r'⟩ := result
  dsimp only at hb ⊢
  -- a frame that is found is one of the batch
  have hfound : ∀ f, (batch.filter starts).getLast? = some f → f ∈ batch ∧ starts f = true :=
    fun f hf =>
    List.mem_filter.mp (List.mem_of_getLast? hf)
  have hstored : ∀ f ∈ batch, f ∈ hub.ring.slots :=
    fun f hf => LiveDelivery.mem_slots_of_liveBatch hb hf
  cases hlast : (batch.filter starts).getLast? with
  | none =>
    refine .inl ⟨r', rfl, ?_⟩
    cases hb with
    | idle rest => exact ⟨hlive, hfree⟩
    | jump free lt le seqs stored => exact ⟨hlive, hfree⟩
    | replay running ne =>
      rw [hfree] at running
      cases running
    | pass free ne few => exact ⟨hlive, hfree⟩
    | dropVideo free many blind => exact ⟨hlive, hfree⟩
    | @collapse idr free many mem key =>
      -- the IDR frame that is kept would have been found
      have hnil := List.getLast?_eq_none_iff.mp hlast
      have hidr := starts_of_stored hring hagree (mem_framesFrom.mp mem).1 key
      have hin : idr ∈ (nonVideo (hub.framesFrom r.cursor hub.latestSeq) ++ [idr]).filter starts :=
        List.mem_filter.mpr ⟨List.mem_append_right _ (List.mem_singleton_self _), hidr⟩
      rw [hnil] at hin
      cases hin
  | some f =>
    obtain ⟨hf, hstart⟩ := hfound f hlast
    refine .inr ⟨r', f, rfl, hstored f hf, hstart, ?_⟩
    cases hb with
    | idle rest => cases hf
    | jump free lt le seqs stored => exact .inl rfl
    | replay running ne =>
      rw [hfree] at running
      cases running
    | pass free ne few =>
      -- there is no other frame of video in the range
      refine .inr fun g hg hvideo hlt => ?_
      by_contra hpassed
      have hmem := mem_videoOf_of_starts hf hstart
      have hrange := mem_framesFrom.mp (List.mem_filter.mp hmem).1
      have hgmem : g ∈ videoOf (hub.framesFrom r.cursor hub.latestSeq) :=
        List.mem_filter.mpr
          ⟨mem_framesFrom.mpr ⟨hg, by omega, by dsimp only at hpassed; omega⟩, hvideo⟩
      obtain ⟨x, hx⟩ :=
        List.length_eq_one_iff.mp (Nat.le_antisymm few (List.length_pos_of_mem hmem))
      rw [hx] at hmem hgmem
      rw [List.mem_singleton.mp hmem, List.mem_singleton.mp hgmem] at hlt
      exact Nat.lt_irrefl _ hlt
    | @collapse idr free many mem key =>
      -- the reader goes on behind the IDR frame, and nothing else of the batch is video
      refine .inr fun g _ _ hlt => ?_
      rcases List.mem_append.mp hf with hf | hf
      · have hnot := (List.mem_filter.mp hf).2
        rw [starts_playable hstart] at hnot
        cases hnot
      · rw [List.mem_singleton.mp hf] at hlt
        exact hlt
    | dropVideo free many blind =>
      have hnot := (List.mem_filter.mp hf).2
      rw [starts_playable hstart] at hnot
      cases hnot

/-- **The fallback** returns nothing, or well. -/
theorem fallback_cases (hub : StreamHub) (r : DispatchReader) :
    (∃ r', fallback hub r = .returned r' none) ∨
      ∃ r' f, fallback hub r = .returned r' (some f) ∧ StartsWell hub r' f := by
  rw [fallback]
  split
  · next idr idrSeq hget hseq =>
    rw [hseq, Option.bind_some] at hget
    split
    · next hclose =>
      obtain ⟨hmem, rfl⟩ := FrameRing.mem_of_get hget
      exact .inr ⟨_, idr, rfl, hmem, (Bool.and_eq_true_iff.mp hclose).2, .inr fun g _ _ hlt => hlt⟩
    · exact .inl ⟨r, rfl⟩
  · exact .inl ⟨r, rfl⟩

/-- **Every step** keeps the invariant. -/
theorem Inv.step (hi : s.Inv) (hagree : ∀ frame, l = .publish frame → TestsAgree frame)
    (h : s.step l = some s') : s'.Inv := by
  cases l with
  | publish frame =>
    obtain ⟨hub, hpublish, rfl⟩ := Option.map_eq_some_iff.mp h
    obtain ⟨ring, hpush, rfl⟩ := StreamHub.publish_eq_some.mp hpublish
    refine ⟨hi.ring.push hpush, fun g hg => ?_, hi.waiting⟩
    rcases List.mem_append.mp hg with hg | hg
    · exact hi.agree g hg
    · exact List.mem_singleton.mp hg ▸ hagree frame rfl
  | reset =>
    obtain rfl := Option.some.inj h
    exact ⟨RingInv.withCapacity _ _, nofun, hi.waiting⟩
  | call reader =>
    obtain ⟨hlive, h⟩ := Option.ite_none_right_eq_some.mp h
    obtain rfl := Option.some.inj h
    refine ⟨hi.ring, hi.agree, fun r hr => ?_⟩
    obtain rfl := PrimingPhase.waiting.inj hr
    rw [DispatchReader.finishPrime, hlive]
    exact ⟨hlive, rfl⟩
  | batch =>
    rw [Priming.step] at h
    split at h
    · next reader hphase =>
      obtain rfl := Option.some.inj h
      obtain ⟨hlive, hfree⟩ := hi.waiting reader hphase
      refine ⟨hi.ring, hi.agree, fun r hr => ?_⟩
      rcases onBatch_cases hi.ring hi.agree hlive hfree with ⟨r', hr', hwaits⟩ | ⟨r', f, hr', -⟩
      · rw [hr'] at hr
        obtain rfl := PrimingPhase.waiting.inj hr
        exact hwaits
      · rw [hr'] at hr
        cases hr
    · cases h
  | giveUp =>
    rw [Priming.step] at h
    split at h
    · next reader hphase =>
      obtain rfl := Option.some.inj h
      refine ⟨hi.ring, hi.agree, fun r hr => ?_⟩
      rcases fallback_cases s.hub reader with ⟨r', hr'⟩ | ⟨r', f, hr', -⟩
      · rw [hr'] at hr
        cases hr
      · rw [hr'] at hr
        cases hr
    · cases h

/-- Along every run in which the tests agree on what is published, the invariant holds. -/
theorem inv_run (stream : Stream) {run : List PrimingStep}
    (hagree : ∀ frame, .publish frame ∈ run → TestsAgree frame)
    (h : exec step (init stream) run = some s) : s.Inv := by
  induction run using List.reverseRecOn generalizing s with
  | nil =>
    obtain rfl := Option.some.inj h
    exact ⟨RingInv.withCapacity _ _, nofun, nofun⟩
  | append_singleton run l ih =>
    obtain ⟨s₁, hrun, hstep⟩ := exec_concat.mp h
    have hi := ih (fun frame hmem => hagree frame (List.mem_append_left _ hmem)) hrun
    exact hi.step (fun frame hl =>
      hagree frame (hl ▸ List.mem_append_right _ (List.mem_singleton_self _))) hstep

/-- In every run whose published frames the tests agree on, a call of `prime_live_play` that returns
a frame **starts well**: the frame is a stored IDR frame, and none of the video stored behind it is
passed over, unless a gap has been flagged. -/
theorem startsWell_run (stream : Stream) {run : List PrimingStep}
    (hagree : ∀ frame, .publish frame ∈ run → TestsAgree frame)
    (hrun : exec step (init stream) run = some s) (hstep : s.step l = some s')
    (hwait : s.phase = .waiting r) {r' : DispatchReader}
    (hreturned : s'.phase = .returned r' (some f)) : StartsWell s'.hub r' f := by
  have hi := inv_run stream hagree hrun
  obtain ⟨hlive, hfree⟩ := hi.waiting r hwait
  cases l with
  | publish frame =>
    obtain ⟨hub, -, rfl⟩ := Option.map_eq_some_iff.mp hstep
    cases hwait.symm.trans hreturned
  | reset =>
    obtain rfl := Option.some.inj hstep
    cases hwait.symm.trans hreturned
  | call reader =>
    obtain ⟨-, hstep⟩ := Option.ite_none_right_eq_some.mp hstep
    obtain rfl := Option.some.inj hstep
    cases hreturned
  | batch =>
    rw [step, hwait] at hstep
    obtain rfl := Option.some.inj hstep
    rcases onBatch_cases hi.ring hi.agree hlive hfree with ⟨r₁, hr₁, -⟩ | ⟨r₁, f₁, hr₁, hwell⟩
    · cases hr₁.symm.trans hreturned
    · obtain ⟨rfl, hf⟩ := PrimingPhase.returned.inj (hr₁.symm.trans hreturned)
      obtain rfl := Option.some.inj hf
      exact hwell
  | giveUp =>
    rw [step, hwait] at hstep
    obtain rfl := Option.some.inj hstep
    rcases fallback_cases s.hub r with ⟨r₁, hr₁⟩ | ⟨r₁, f₁, hr₁, hwell⟩
    · cases (PrimingPhase.returned.inj (hr₁.symm.trans hreturned)).2
    · obtain ⟨rfl, hf⟩ := PrimingPhase.returned.inj (hr₁.symm.trans hreturned)
      obtain rfl := Option.some.inj hf
      exact hwell

/-- A key frame that a viewer can start from. -/
def idrFrame : MediaFrame :=
  MediaFrame.new "live" 0 0 [0x00, 0x00, 0x00, 0x01, 0x65, 0x88] true .h264

theorem startsWell_run_batch : ∃ s s' r r' f,
    (∀ frame, .publish frame ∈
      [.publish idrFrame, .call (DispatchReader.new (StreamHub.new "live") .liveCoalesce),
      PrimingStep.publish idrFrame] → TestsAgree frame) ∧
    exec step (init (StreamHub.new "live").stream) [.publish idrFrame,
      .call (DispatchReader.new (StreamHub.new "live") .liveCoalesce), .publish idrFrame] = some s ∧
    s.step .batch = some s' ∧ s.phase = .waiting r ∧ s'.phase = .returned r' (some f) ∧
        StartsWell s'.hub r' f := by
  have hagree : ∀ frame, .publish frame ∈ [.publish idrFrame,
      .call (DispatchReader.new (StreamHub.new "live") .liveCoalesce),
        PrimingStep.publish idrFrame] →
        TestsAgree frame := by
    intro frame hmem
    obtain rfl : frame = idrFrame := by simpa using hmem
    exact fun _ => by decide
  obtain ⟨s, s', r, r', f, hrun, hstep, hwait, hreturned⟩ : ∃ s s' r r' f,
      exec step (init (StreamHub.new "live").stream) [.publish idrFrame,
        .call (DispatchReader.new (StreamHub.new "live") .liveCoalesce), .publish idrFrame] =
          some s ∧
      s.step .batch = some s' ∧ s.phase = .waiting r ∧ s'.phase = .returned r' (some f) :=
    ⟨_, _, _, _, _, rfl, rfl, rfl, rfl⟩
  exact ⟨s, s', r, r', f, hagree, hrun, hstep, hwait, hreturned,
    startsWell_run _ hagree hrun hstep hwait hreturned⟩

end Priming

end VcpMediaServer
