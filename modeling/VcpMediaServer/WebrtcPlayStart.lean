import VcpMediaServer.RecvCoalesced

/-!
# The start of a WebRTC playback

`relay_stream_to_track` primes its reader and sends the IDR frame that `prime_from_idr` returns;
from then on it sends what `recv_coalesced` returns. Priming puts the cursor **on** the IDR frame,
not behind it.

* `Relay.take` — what the play loop makes of a frame.
* `WebrtcPlay` — the hub, how far the playback has come, and the frames that were sent.
* `WebrtcPlay.inOrder_iff_readsNew` — along every run nothing is sent twice, and all in ring order,
  **exactly if** no call reads a frame that was sent.
-/

namespace VcpMediaServer

open FrameRing Lts

/-- What the play loop keeps from one frame to the next. -/
structure Relay where
  /-- An IDR frame has been sent. -/
  streaming : Bool
  /-- The timestamp of the frame sent last. -/
  lastSentTs : Option UInt64
  deriving DecidableEq, Repr

/-- What becomes of a frame in the play loop. -/
inductive RelayTurn where
  /-- It is passed over. -/
  | skip
  /-- It is sent. -/
  | send (relay : Relay)
  /-- It begins another timeline, and no IDR frame does: the reader is put back to the latest one.
  -/
  | restart
  deriving DecidableEq, Repr

namespace Relay

/-- The loop begins. -/
def start : Relay := ⟨false, none⟩

/-- One turn of the play loop, with a frame of `pending` or of `recv_coalesced`. -/
def take (p : Relay) (frame : MediaFrame) : RelayTurn :=
  if !frame.codec.isVideo then .skip
  else if ensureAnnexB frame.data = [] then .skip
  else if isParameterSetOnly (ensureAnnexB frame.data) then .skip
  else if p.streaming && p.lastSentTs.any (isRtpTimelineReset frame.timestamp) &&
      !isIdrFrame frame then .restart
  else if !p.streaming && !isIdrFrame frame then .skip
  else .send ⟨true, some frame.timestamp⟩

/-- A frame that has been sent would be sent **once more**. -/
theorem take_again {p p' : Relay} {frame : MediaFrame} (h : p.take frame = .send p') :
    p'.take frame = .send p' := by
  unfold take at h ⊢
  split at h
  · cases h
  split at h
  · cases h
  split at h
  · cases h
  split at h
  · cases h
  split at h
  · cases h
  next hvideo hdata hslices _ _ =>
    obtain rfl := RelayTurn.send.inj h
    rw [if_neg hvideo, if_neg hdata, if_neg hslices]
    simp [isRtpTimelineReset_self]

end Relay

/-! ## One call -/

section

variable {fs : List MediaFrame} {h : StreamHub} {r r' : DispatchReader} {batch : List StoredFrame}

/-- A reader of the WebRTC policy, as `prime_from_idr` leaves it. -/
def DispatchReader.IsWebRtc (r : DispatchReader) : Prop :=
  r.policy = .webRtcPlay ∧ r.videoCatchupUntil = none

theorem DispatchReader.IsWebRtc.coalesces (hr : r.IsWebRtc) : r.Coalesces := .inr hr

/-- A call leaves the policy, and begins no catch-up. -/
theorem DispatchReader.IsWebRtc.next (hr : r.IsWebRtc)
    (hb : DispatchReader.WebRtcBatch h r batch r') :
    r'.IsWebRtc := by
  cases hb with
  | idle whole gone => exact hr
  | snap lag => exact ⟨hr.1, rfl⟩
  | one near stored seq => exact hr
  | jump gap ne mem => exact hr

/-- The frame that a call returns is behind the frames read before, and the cursor moves behind it.
-/
theorem pickFrame_bounds (hr : r.IsWebRtc) (hb : DispatchReader.WebRtcBatch h r batch r')
    {f : StoredFrame} (hf : pickFrame r.policy batch = some f) :
    h.latestSeq - r.cursor ≤ WEBRTC_LAG_SNAP_THRESHOLD ∧ f ∈ h.ring.slots ∧ r.cursor ≤ f.seq ∧
      f.seq < r'.cursor := by
  have hmem := mem_of_pickFrame hr.coalesces hf
  cases hb with
  | idle whole gone => cases hmem
  | snap lag => cases hmem
  | one near stored seq =>
    obtain rfl := List.mem_singleton.mp hmem
    exact ⟨near, stored, seq.ge, Nat.lt_succ_of_le seq.le⟩
  | jump gap ne mem =>
    obtain ⟨hlt, hle⟩ := mem f hmem
    refine ⟨gap.1, ?_, hlt.le, Nat.lt_succ_of_le hle⟩
    rw [jumpRange] at hmem
    split at hmem
    · cases hmem
    · exact (mem_framesFrom.mp hmem).1

/-- A call that returns nothing leaves the cursor, or puts it behind the live edge. -/
theorem cursor_of_pickFrame_none (hr : r.IsWebRtc) (hb : DispatchReader.WebRtcBatch h r batch r')
    (hf : pickFrame r.policy batch = none) :
    r'.cursor = r.cursor ∨ r'.cursor = h.latestSeq + 1 := by
  have hnil := (pickFrame_eq_none hr.coalesces).mp hf
  cases hb with
  | idle whole gone => exact .inl rfl
  | snap lag => exact .inr rfl
  | one near stored seq => cases hnil
  | jump gap ne mem => exact absurd hnil ne

/-- The frame under the cursor is returned, if it is stored and the reader is not far behind. -/
theorem pickFrame_of_stored (hinv : RingInv fs h.ring) (hr : r.IsWebRtc)
    (hb : DispatchReader.WebRtcBatch h r batch r')
    (hnear : h.latestSeq - r.cursor ≤ WEBRTC_LAG_SNAP_THRESHOLD) {f : StoredFrame}
    (hf : f ∈ h.ring.slots) (hseq : f.seq = r.cursor) : pickFrame r.policy batch = some f := by
  cases hb with
  | idle whole gone => exact absurd hseq (gone f hf)
  | snap lag => exact absurd hnear (Nat.not_le.mpr lag)
  | one near stored seq =>
    rename_i g
    -- one number, one frame
    have hfg : f = g := by
      have hget := get_eq_some_of_mem hinv hf
      rw [hseq, ← seq, get_eq_some_of_mem hinv stored] at hget
      exact (Option.some.inj hget).symm
    rw [hr.1, hfg]
    by_cases hv : g.isPlayableVideo = true
    · simp [pickFrame, hv]
    · simp [pickFrame, hv]
  | jump gap ne mem =>
    have hin : f ∈ h.framesFrom r.cursor r.cursor := mem_framesFrom.mpr ⟨hf, hseq.ge, hseq.le⟩
    rw [gap.2.1] at hin
    cases hin

end

/-! ## Runs -/

/-- How far `relay_stream_to_track` has come. -/
inductive PlayPhase where
  /-- There is no reader. -/
  | absent
  /-- `dispatch_subscribe` has returned one. -/
  | joined (reader : DispatchReader)
  /-- `prime_from_idr` has noted the live edge, and may have looked for an IDR frame. -/
  | priming (reader : DispatchReader) (baselineLatest : ℕ) (looked : Bool)
  /-- The play loop is running. -/
  | playing (reader : CoalescedReader) (relay : Relay)
  deriving DecidableEq, Repr

/-- A hub and one WebRTC playback. -/
structure WebrtcPlay where
  /-- The hub. -/
  hub : StreamHub
  /-- The frames published since the ring was last emptied, oldest first. -/
  published : List MediaFrame
  /-- How far the playback has come. -/
  phase : PlayPhase
  /-- The frames of the ring that were sent to the viewer. -/
  sent : List StoredFrame
  deriving DecidableEq, Repr

/-- A call on the hub, or a step of the playback. -/
inductive PlayStep where
  | publish (frame : MediaFrame)
  /-- `reset`, before the playback primes its reader. -/
  | reset
  | join
  /-- `prime_from_idr` begins. -/
  | prime
  /-- It looks for an IDR frame: at once, and then each time the watch channel has changed. -/
  | look
  /-- It gives up; `keyframe` is what `get_last_keyframe` would give of the stream's record. -/
  | expire (keyframe : Option MediaFrame)
  /-- The play loop takes a step of `recv_coalesced`. -/
  | loop (l : LoopStep)
  deriving DecidableEq, Repr

namespace WebrtcPlay

/-- A new hub, without a playback. -/
def init (stream : Stream) : WebrtcPlay := ⟨StreamHub.withStream stream, [], .absent, []⟩

/-- The play loop goes on with a frame of the ring. Where that leads to a restart the run ends: the
loop moves the cursor itself. -/
def relayed (s : WebrtcPlay) (u : CoalescedReader) (relay : Relay) (f : StoredFrame) :
    Option WebrtcPlay :=
  match relay.take f.toMediaFrame with
  | .skip => some { s with phase := .playing u relay }
  | .send relay' => some { s with phase := .playing u relay', sent := s.sent ++ [f] }
  | .restart => none

/-- The loop begins with a key frame of the stream's record, which is no frame of the ring. -/
def relayOf (keyframe : MediaFrame) : Relay :=
  match Relay.start.take keyframe with
  | .send relay => relay
  | _ => Relay.start

/-- The reader that makes a batch in the step. -/
def receiving (s : WebrtcPlay) : PlayStep → Option DispatchReader
  | .loop l =>
    match s.phase with
    | .playing u _ => u.receiving s.hub l
    | _ => none
  | _ => none

/-- One look of `prime_from_idr`, with what comes of it. -/
def look (s : WebrtcPlay) (r : DispatchReader) (baselineLatest : ℕ)
    (missed : DispatchReader → WebrtcPlay) :
    Option WebrtcPlay :=
  match r.primeCheck s.hub baselineLatest with
  | (some idr, r') => s.relayed ⟨r', .no⟩ Relay.start idr
  | (none, r') => some (missed r')

/-- `prime_from_idr` has found no IDR frame in the ring. -/
def missed (s : WebrtcPlay) (keyframe : Option MediaFrame) (r : DispatchReader) : WebrtcPlay :=
  match s.hub.isEmpty, keyframe with
  | true, some f =>
    { s with
      phase :=
        .playing ⟨{ r with cursor := s.hub.snap .latestIdr, primed := true }, .no⟩ (relayOf f) }
  | _, _ => { s with phase := .playing ⟨r, .no⟩ Relay.start }

/-- One step. -/
def step (s : WebrtcPlay) (l : PlayStep) : Option WebrtcPlay :=
  match l, s.phase with
  | .publish f, _ => (s.hub.publish f).map fun hub =>
    { s with hub, published := s.published ++ [f] }
  | .reset, .absent => some { s with hub := s.hub.reset, published := [] }
  | .reset, .joined _ => some { s with hub := s.hub.reset, published := [] }
  | .join, .absent => some { s with phase := .joined (DispatchReader.new s.hub .webRtcPlay) }
  | .prime, .joined r => some { s with phase := .priming r s.hub.latestSeq false }
  | .look, .priming r baseline false =>
    s.look r baseline fun r' => { s with phase := .priming r' baseline true }
  | .look, .priming r baseline true =>
    if r.wake ≠ s.hub.seqTx then
      s.look (r.seen s.hub.seqTx) baseline fun r' => { s with phase := .priming r' baseline true }
    else none
  | .expire keyframe, .priming r baseline _ => s.look r baseline (s.missed keyframe)
  | .loop l, .playing u relay =>
    (u.step s.hub l).bind fun u' =>
      match (u.receiving s.hub l).bind fun r => pickFrame r.policy (r.recvBatch s.hub).1 with
      | none => some { s with phase := .playing u' relay }
      | some f => s.relayed u' relay f
  | _, _ => none

/-- No frame of the ring has been sent twice, and the video was sent in ring order. -/
def InOrder (s : WebrtcPlay) : Prop :=
  (seqsOf s.sent).Nodup ∧ (seqsOf (videoOf s.sent)).Pairwise (· < ·)

/-- After the step nothing has been sent twice, and the video in ring order. -/
def StaysInOrder (s : WebrtcPlay) (l : PlayStep) : Prop := ∀ s', s.step l = some s' → s'.InOrder

/-- The condition on a step: if the reader is near the live edge, no stored frame under its cursor
has been sent. -/
def ReadsNew (s : WebrtcPlay) (l : PlayStep) : Prop :=
  ∀ r, s.receiving l = some r → s.hub.latestSeq - r.cursor ≤ WEBRTC_LAG_SNAP_THRESHOLD →
    ∀ f ∈ s.sent, f ∈ s.hub.ring.slots → f.seq ≠ r.cursor

/-- Where the playback stands: the frames sent are not behind its cursor, and the one **under** it
would be sent again. -/
structure Stands (sent : List StoredFrame) (r : DispatchReader) (relay : Relay) : Prop where
  webRtc : r.IsWebRtc
  le : ∀ f ∈ sent, f.seq ≤ r.cursor
  again : ∀ f ∈ sent, f.seq = r.cursor → relay.take f.toMediaFrame = .send relay

/-- What holds between two steps. -/
structure Inv (s : WebrtcPlay) : Prop where
  /-- The ring is the one that the published frames lead to. -/
  ring : RingInv s.published s.hub.ring
  /-- What was sent has been published. -/
  published : ∀ f ∈ s.sent, f ∈ stamped s.published
  /-- It was sent in ring order. -/
  rising : s.sent.Pairwise fun f g => f.seq < g.seq
  /-- The reader stands where it should. -/
  stands :
    match s.phase with
    | .absent => s.sent = []
    | .joined r => s.sent = [] ∧ r.IsWebRtc
    | .priming r _ _ => s.sent = [] ∧ r.IsWebRtc
    | .playing u relay => Stands s.sent u.reader relay

theorem Inv.init (stream : Stream) : (WebrtcPlay.init stream).Inv where
  ring := RingInv.withCapacity _ _
  published := fun _ hf => absurd hf List.not_mem_nil
  rising := List.Pairwise.nil
  stands := rfl

variable {s s' : WebrtcPlay}

/-- In ring order, nothing is twice. -/
theorem Inv.inOrder (hi : s.Inv) : s.InOrder := by
  constructor
  · exact List.pairwise_map.mpr (hi.rising.imp fun hlt => hlt.ne)
  · exact List.pairwise_map.mpr (hi.rising.sublist List.filter_sublist)

/-- A frame of the ring that is **behind all** that were sent keeps the invariant, if it is before
the new cursor or under it. -/
theorem Inv.relayed (hi : s.Inv) {u : CoalescedReader} {relay : Relay} {f : StoredFrame}
    (hu : u.reader.IsWebRtc) (hf : f ∈ stamped s.published) (hlt : ∀ g ∈ s.sent, g.seq < f.seq)
    (hle : f.seq ≤ u.reader.cursor) (h : s.relayed u relay f = some s') : s'.Inv := by
  unfold WebrtcPlay.relayed at h
  split at h
  · obtain rfl := Option.some.inj h
    refine ⟨hi.ring, hi.published, hi.rising, hu, fun g hg => (hlt g hg).le.trans hle,
      fun g hg heq => ?_⟩
    exact absurd heq ((hlt g hg).trans_le hle).ne
  · next relay' htake =>
    obtain rfl := Option.some.inj h
    refine ⟨hi.ring, fun g hg => ?_, ?_, hu, fun g hg => ?_, fun g hg heq => ?_⟩
    · rcases List.mem_append.mp hg with hg | hg
      · exact hi.published g hg
      · rw [List.mem_singleton.mp hg]
        exact hf
    · refine List.pairwise_append.mpr ⟨hi.rising, List.pairwise_singleton _ _,
        fun g hg g' hg' => ?_⟩
      rw [List.mem_singleton.mp hg']
      exact hlt g hg
    · rcases List.mem_append.mp hg with hg | hg
      · exact (hlt g hg).le.trans hle
      · rw [List.mem_singleton.mp hg]
        exact hle
    · rcases List.mem_append.mp hg with hg | hg
      · exact absurd heq ((hlt g hg).trans_le hle).ne
      · rw [List.mem_singleton.mp hg]
        exact Relay.take_again htake
  · cases h

/-- A look leaves the policy of the reader, and puts its cursor **on** the frame that it finds. -/
theorem primeCheck_cases {h : StreamHub} {r : DispatchReader} (hr : r.IsWebRtc) (baseline : ℕ) :
    r.primeCheck h baseline = (none, r) ∨ ∃ idr r', r.primeCheck h baseline = (some idr, r') ∧
      idr ∈ h.ring.slots ∧ idr.seq = r'.cursor ∧ r'.IsWebRtc := by
  unfold DispatchReader.primeCheck
  split
  · exact .inl rfl
  · next idrSeq hidr =>
    split
    · split
      · next idr hget =>
        obtain ⟨hget, -⟩ := Option.filter_eq_some_iff.mp hget
        obtain ⟨hmem, hseq⟩ := mem_of_get hget
        exact .inr ⟨idr, _, rfl, hmem, hseq, hr⟩
      · exact .inl rfl
    · exact .inl rfl

/-- A look keeps the invariant, if missing does. -/
theorem Inv.look (hi : s.Inv) (hnil : s.sent = []) {r : DispatchReader} (hr : r.IsWebRtc)
    {baseline : ℕ} {missed : DispatchReader → WebrtcPlay} (hmissed : (missed r).Inv)
    (h : s.look r baseline missed = some s') : s'.Inv := by
  unfold WebrtcPlay.look at h
  obtain hnone | ⟨idr, r', hsome, hmem, hseq, hr'⟩ := primeCheck_cases (h := s.hub) hr baseline
  · rw [hnone] at h
    exact Option.some.inj h ▸ hmissed
  · rw [hsome] at h
    refine hi.relayed hr' (hi.ring.mem_stamped hmem) (fun g hg => ?_) hseq.le h
    rw [hnil] at hg
    cases hg

/-- Where nothing has been sent, a reader stands anywhere. -/
theorem stands_nil (hnil : s.sent = []) {r : DispatchReader} (hr : r.IsWebRtc) (relay : Relay) :
    Stands s.sent r relay := by
  rw [hnil]
  exact ⟨hr, fun f hf => absurd hf List.not_mem_nil, fun f hf => absurd hf List.not_mem_nil⟩

/-- Nothing has been sent when the loop begins with a frame that is not of the ring. -/
theorem Inv.missed (hi : s.Inv) (hnil : s.sent = []) {r : DispatchReader} (hr : r.IsWebRtc)
    (keyframe : Option MediaFrame) : (s.missed keyframe r).Inv := by
  unfold WebrtcPlay.missed
  split
  · have hr' : DispatchReader.IsWebRtc { r with cursor := s.hub.snap .latestIdr, primed := true } :=
      hr
    exact ⟨hi.ring, hi.published, hi.rising, stands_nil hnil hr' _⟩
  · exact ⟨hi.ring, hi.published, hi.rising, stands_nil hnil hr _⟩

/-- A publish keeps the invariant. -/
theorem Inv.publish (hi : s.Inv) {f : MediaFrame} {hub : StreamHub}
    (hp : s.hub.publish f = some hub) :
    ({ s with hub, published := s.published ++ [f] } : WebrtcPlay).Inv := by
  obtain ⟨ring, hring, rfl⟩ := StreamHub.publish_eq_some.mp hp
  refine ⟨hi.ring.push hring, fun g hg => ?_, hi.rising, hi.stands⟩
  rw [stamped_concat]
  exact List.mem_append_left _ (hi.published g hg)

/-- Nothing has been sent when the ring is emptied. -/
theorem Inv.reset (hi : s.Inv) (hnil : s.sent = []) :
    ({ s with hub := s.hub.reset, published := [] } : WebrtcPlay).Inv := by
  refine ⟨RingInv.withCapacity _ _, fun f hf => ?_, hi.rising, hi.stands⟩
  rw [hnil] at hf
  cases hf

/-- The reader that makes a batch stands where the reader of the state does. -/
theorem Stands.receiving {sent : List StoredFrame} {u : CoalescedReader} {relay : Relay}
    {h : StreamHub} {l : LoopStep} {r : DispatchReader} (hs : Stands sent u.reader relay)
    (hr : u.receiving h l = some r) :
    Stands sent r relay := by
  obtain ⟨v, rfl⟩ := CoalescedReader.receiving_eq_some hr
  exact ⟨hs.webRtc, hs.le, hs.again⟩

/-- What a step of the loop does, with the reader that makes a batch in it. -/
theorem step_loop {l : LoopStep} (h : s.step (.loop l) = some s') :
    ∃ u relay, s.phase = .playing u relay ∧
      ((∃ r, u.receiving s.hub l = some r ∧ ∃ u', u'.reader = (r.recvBatch s.hub).2 ∧
          match pickFrame r.policy (r.recvBatch s.hub).1 with
          | none => s' = { s with phase := .playing u' relay }
          | some f => s.relayed u' relay f = some s') ∨
        (u.receiving s.hub l = none ∧ ∃ v u', u'.reader = u.reader.seen v ∧
          s' = { s with phase := .playing u' relay })) := by
  rcases hphase : s.phase with _ | r | ⟨r, b, k⟩ | ⟨u, relay⟩
  · simp [step, hphase] at h
  · simp [step, hphase] at h
  · simp [step, hphase] at h
  · simp only [step, hphase] at h
    obtain ⟨u', hstep, h⟩ := Option.bind_eq_some_iff.mp h
    refine ⟨u, relay, rfl, ?_⟩
    obtain ⟨r, hr, rfl⟩ | ⟨hr, v, hv⟩ := CoalescedReader.step_cases hstep
    · refine .inl ⟨r, hr, _, CoalescedReader.turn_reader s.hub r, ?_⟩
      rw [hr, Option.bind_some] at h
      split
      · next hpick =>
        rw [hpick] at h
        exact (Option.some.inj h).symm
      · next f hpick =>
        rw [hpick] at h
        exact h
    · rw [hr] at h
      exact .inr ⟨hr, v, u', hv, (Option.some.inj h).symm⟩

/-- A step of the loop that meets the condition keeps the invariant: what it reads is behind all
that was sent. -/
theorem Inv.loop (hi : s.Inv) {l : LoopStep} (hnew : s.ReadsNew (.loop l))
    (h : s.step (.loop l) = some s') : s'.Inv := by
  obtain ⟨u, relay, hphase, hcases⟩ := step_loop h
  have hs := hi.stands
  rw [hphase] at hs
  rcases hcases with ⟨r, hr, u', hu', hpick⟩ | ⟨-, v, u', hu', rfl⟩
  · have hsr := hs.receiving hr
    have hb := DispatchReader.recvBatch_webRtcBatch hi.ring hsr.webRtc.1
    have hnew : s.hub.latestSeq - r.cursor ≤ WEBRTC_LAG_SNAP_THRESHOLD →
        ∀ f ∈ s.sent, f ∈ s.hub.ring.slots → f.seq ≠ r.cursor :=
      hnew r (by simp only [receiving, hphase, hr])
    have hweb : u'.reader.IsWebRtc := by
      rw [hu']
      exact hsr.webRtc.next hb
    split at hpick
    · next hnone =>
      obtain rfl := hpick
      refine ⟨hi.ring, hi.published, hi.rising, hweb, fun f hf => ?_, fun f hf heq => ?_⟩
      · -- the live edge is not before a frame that was published
        rw [hu']
        have hlt := seq_lt_of_mem_stamped (hi.published f hf)
        rw [← hi.ring.writeSeq_eq] at hlt
        rcases cursor_of_pickFrame_none hsr.webRtc hb hnone with hc | hc
        · rw [hc]
          exact hsr.le f hf
        · rw [hc, StreamHub.latestSeq, latestSeq]
          omega
      · rw [hu'] at heq
        have hlt := seq_lt_of_mem_stamped (hi.published f hf)
        rw [← hi.ring.writeSeq_eq] at hlt
        rcases cursor_of_pickFrame_none hsr.webRtc hb hnone with hc | hc
        · exact hsr.again f hf (heq.trans hc)
        · rw [hc, StreamHub.latestSeq, latestSeq] at heq
          omega
    · next f hsome =>
      obtain ⟨hnear, hmem, hlo, hhi⟩ := pickFrame_bounds hsr.webRtc hb hsome
      refine hi.relayed hweb (hi.ring.mem_stamped hmem) (fun g hg => ?_)
        (by rw [hu']; exact hhi.le) hpick
      refine lt_of_le_of_ne ((hsr.le g hg).trans hlo) fun heq => ?_
      -- it would be the frame under the cursor
      have hcur : g.seq = r.cursor := le_antisymm (hsr.le g hg) (hlo.trans heq.ge)
      obtain rfl : g = f := by
        have hget := stamped_getElem?_seq (hi.published g hg)
        rw [heq, stamped_getElem?_seq (hi.ring.mem_stamped hmem)] at hget
        exact (Option.some.inj hget).symm
      exact hnew hnear g hg hmem hcur
  · refine ⟨hi.ring, hi.published, hi.rising, ?_⟩
    change Stands s.sent u'.reader relay
    rw [hu']
    exact ⟨hs.webRtc, hs.le, hs.again⟩

/-- A step that meets the condition keeps the invariant. -/
theorem Inv.step (hi : s.Inv) {l : PlayStep} (hnew : s.ReadsNew l) (h : s.step l = some s') :
    s'.Inv := by
  rcases hphase : s.phase with _ | r | ⟨r, baseline, looked⟩ | ⟨u, relay⟩
  · have hs := hi.stands
    rw [hphase] at hs
    cases l with
    | publish f =>
      obtain ⟨hub, hp, rfl⟩ := Option.map_eq_some_iff.mp h
      exact hi.publish hp
    | reset =>
      simp only [WebrtcPlay.step, hphase] at h
      obtain rfl := Option.some.inj h
      rw [← hphase]
      exact hi.reset hs
    | join =>
      simp only [WebrtcPlay.step, hphase] at h
      exact Option.some.inj h ▸ ⟨hi.ring, hi.published, hi.rising, hs, rfl, rfl⟩
    | _ => simp [WebrtcPlay.step, hphase] at h
  · have hs := hi.stands
    rw [hphase] at hs
    cases l with
    | publish f =>
      obtain ⟨hub, hp, rfl⟩ := Option.map_eq_some_iff.mp h
      exact hi.publish hp
    | reset =>
      simp only [WebrtcPlay.step, hphase] at h
      obtain rfl := Option.some.inj h
      rw [← hphase]
      exact hi.reset hs.1
    | prime =>
      simp only [WebrtcPlay.step, hphase] at h
      exact Option.some.inj h ▸ ⟨hi.ring, hi.published, hi.rising, hs⟩
    | _ => simp [WebrtcPlay.step, hphase] at h
  · have hs := hi.stands
    rw [hphase] at hs
    have hmissed : ∀ r' : DispatchReader, r'.IsWebRtc →
        ({ s with phase := .priming r' baseline true } : WebrtcPlay).Inv :=
      fun r' hr' => ⟨hi.ring, hi.published, hi.rising, hs.1, hr'⟩
    cases l with
    | publish f =>
      obtain ⟨hub, hp, rfl⟩ := Option.map_eq_some_iff.mp h
      exact hi.publish hp
    | look =>
      rcases looked with _ | _
      · simp only [WebrtcPlay.step, hphase] at h
        exact hi.look hs.1 hs.2 (hmissed r hs.2) h
      · simp only [WebrtcPlay.step, hphase] at h
        rw [Option.ite_none_right_eq_some] at h
        have hseen : (r.seen s.hub.seqTx).IsWebRtc := hs.2
        exact hi.look hs.1 hseen (hmissed _ hseen) h.2
    | expire keyframe =>
      simp only [WebrtcPlay.step, hphase] at h
      exact hi.look hs.1 hs.2 (hi.missed hs.1 hs.2 keyframe) h
    | _ => simp [WebrtcPlay.step, hphase] at h
  · cases l with
    | publish f =>
      obtain ⟨hub, hp, rfl⟩ := Option.map_eq_some_iff.mp h
      exact hi.publish hp
    | loop l => exact hi.loop hnew h
    | _ => simp [WebrtcPlay.step, hphase] at h

/-- The condition is **needed**: a frame that is stored under the cursor is read, and sent again. -/
theorem Inv.readsNew_of_staysInOrder (hi : s.Inv) {l : PlayStep} (hstays : s.StaysInOrder l) :
    s.ReadsNew l := by
  intro r hr hnear f hf hmem hcur
  cases l with
  | loop l =>
    rcases hphase : s.phase with _ | r₁ | ⟨r₁, b, k⟩ | ⟨u, relay⟩
    · simp [receiving, hphase] at hr
    · simp [receiving, hphase] at hr
    · simp [receiving, hphase] at hr
    · simp only [receiving, hphase] at hr
      have hs := hi.stands
      rw [hphase] at hs
      have hsr := hs.receiving hr
      have hb := DispatchReader.recvBatch_webRtcBatch hi.ring hsr.webRtc.1
      have hpick := pickFrame_of_stored hi.ring hsr.webRtc hb hnear hmem hcur
      have hstep : u.step s.hub l = some (CoalescedReader.turn s.hub r) := by
        simp only [CoalescedReader.step, hr]
      have hsend : s.step (.loop l) = some
          { s with phase := .playing (CoalescedReader.turn s.hub r) relay, sent := s.sent ++
              [f] } := by
        simp only [WebrtcPlay.step, hphase, hstep, hr, Option.bind_some, hpick, WebrtcPlay.relayed,
          hsr.again f hf hcur]
      obtain ⟨hnodup, -⟩ := hstays _ hsend
      rw [seqsOf, List.map_append, List.nodup_append] at hnodup
      exact hnodup.2.2 f.seq (List.mem_map_of_mem hf) f.seq (List.mem_singleton_self _) rfl
  | _ => cases hr

/-- Along every run of a playback nothing is sent twice, and the video in ring order, **exactly if**
no call near the live edge finds a frame that was sent under its cursor. -/
theorem inOrder_iff_readsNew (stream : Stream) (ls : List PlayStep) :
    Always WebrtcPlay.step StaysInOrder (WebrtcPlay.init stream) ls ↔
      Always WebrtcPlay.step ReadsNew (WebrtcPlay.init stream) ls := by
  refine always_iff_of_inv (fun s l hi => ⟨hi.readsNew_of_staysInOrder, fun hnew s' h => ?_⟩)
    (fun s l s' hi hnew h => hi.step hnew h) (Inv.init stream)
  exact (hi.step hnew h).inOrder

/-- A key frame is in the ring when the playback starts: it is sent by the priming, and **once
more** by the first call. -/
theorem not_staysInOrder_primed :
    ¬ Always WebrtcPlay.step StaysInOrder (WebrtcPlay.init (StreamHub.new "live").stream)
      [.publish (testFrame true), .join, .prime, .look, .loop .recv] := by
  intro h
  obtain ⟨s, hs⟩ : ∃ s, exec WebrtcPlay.step (WebrtcPlay.init (StreamHub.new "live").stream)
      [.publish (testFrame true), .join, .prime, .look] = some s := ⟨_, rfl⟩
  have hstays := always_iff.mp h _ (.loop .recv) ⟨[], rfl⟩ s hs
  obtain rfl := Option.some.inj hs
  exact absurd (hstays _ rfl).1 (by decide)

end WebrtcPlay

end VcpMediaServer
