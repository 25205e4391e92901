import VcpMediaServer.Eviction
import VcpMediaServer.H264RoundTrip
import VcpMediaServer.Pullers

/-!
# RTCP on interleaved channels

Over TCP a track has a channel for RTP and the next one for RTCP. Both receivers take half of the
channel for the track, so that a packet on either channel goes **the same way**; only the
receivers of UDP packets ask whether a packet is RTCP.

* `H264RtpIngest.undisturbed_iff` — the packets that an ingest is the same after: no RTP, or a
  repetition of the last one where that is all that the ingest holds.
* `hasAacUnit` — for another track than video, the packets with an access unit in them.
* `interleaved_undisturbed_iff` — the rule for the server and for the puller.
-/

namespace VcpMediaServer

open Lts

namespace StreamManager

variable {m m' m'' : StreamManager} {s : StreamId}

/-- Every ring is as it was. -/
def SameRings (m m' : StreamManager) : Prop := ∀ k, m'.ring k = m.ring k

theorem SameRings.refl (m : StreamManager) : SameRings m m := fun _ => rfl

theorem ring_eq_none_iff : m.ring s = none ↔ m.getHub s = none := Option.map_eq_none_iff

theorem SameRings.of_onlyAt (h : OnlyAt s m m') (hs : m'.ring s = m.ring s) : SameRings m m' := by
  intro k
  by_cases hk : k = s
  · rw [hk, hs]
  · rw [ring, ring, h.getHub k hk]

/-- To a stream that is not there, nothing is published. -/
theorem exec_publishFrame_of_absent {frames : List MediaFrame}
    (hframes : ∀ f ∈ frames, f.streamId = s) (h : m.getHub s = none) :
    exec publishFrame m frames = some m := by
  induction frames with
  | nil => rfl
  | cons f frames ih =>
    obtain ⟨hf, hframes⟩ := List.forall_mem_cons.mp hframes
    have hpublish : m.publishFrame f = some m := publishFrame_eq_some.mpr (.inl ⟨hf ▸ h, rfl⟩)
    rw [exec_cons_of_step hpublish, ih hframes]

/-- What is published to a stream that is there **shows in its ring**. -/
theorem exec_publishFrame_ring_ne {frames : List MediaFrame}
    (hframes : ∀ f ∈ frames, f.streamId = s) (hne : frames ≠ []) (h : m.getHub s ≠ none)
    (hm' : exec publishFrame m frames = some m') :
    m'.ring s ≠ m.ring s := by
  obtain ⟨hub, hhub⟩ := Option.ne_none_iff_exists'.mp h
  have hring : m.ring s = some hub.ring := by rw [ring, hhub, Option.map_some]
  have hview := Mealy.exec_view (fun m : StreamManager => m.ring s)
    (Q := fun f : MediaFrame => f.streamId = s) (fun m f hf => hf ▸ ring_publishFrame m f) hframes m
  rw [hm', hring, exec_pushInto, Option.map_some] at hview
  obtain ⟨r, hr, heq⟩ := Option.map_eq_some_iff.mp hview.symm
  have hcount := exec_push_writeSeq hr
  have hpos := List.length_pos_of_ne_nil hne
  intro hsame
  rw [hsame, hring, Option.some.injEq] at heq
  rw [heq] at hcount
  omega

/-- Frames leave the rings alone **exactly if** there are none, or there is no such stream. -/
theorem exec_publishFrame_sameRings_iff {frames : List MediaFrame}
    (hframes : ∀ f ∈ frames, f.streamId = s) (m : StreamManager) :
    (∃ m', exec publishFrame m frames = some m' ∧ SameRings m m') ↔
        frames = [] ∨ m.getHub s = none := by
  constructor
  · rintro ⟨m', hm', hsame⟩
    by_contra hnot
    obtain ⟨hne, hhub⟩ := not_or.mp hnot
    exact exec_publishFrame_ring_ne hframes hne hhub hm' (hsame s)
  · rintro (rfl | h)
    · exact ⟨m, rfl, .refl m⟩
    · exact ⟨m, exec_publishFrame_of_absent hframes h, .refl m⟩

end StreamManager

open StreamManager

namespace H264RtpIngest

variable {m : StreamManager} {ing : H264RtpIngest} {rtp : List UInt8}

/-- What an ingest has: the number to come, the fragments and the access unit so far. -/
def held (ing : H264RtpIngest) : Option UInt16 × H264RtpDepacketizer × AccessUnitBatch :=
  (ing.expectedSeq, ing.depacketizer, ing.batch)

/-- The ingest and the rings are after a packet as they were **without it**. -/
def Undisturbed (m : StreamManager) (ing : H264RtpIngest) (rtp : List UInt8) : Prop :=
  ∃ m' ing' b, ing.ingestRtpPacket m rtp = some (m', ing', b) ∧ ing'.held = ing.held ∧
    SameRings m m'

theorem sameRings_stored (m : StreamManager) (ing : H264RtpIngest) (rtp : List UInt8) :
    SameRings m (stored m ing rtp) := by
  refine .of_onlyAt (s := ing.streamId) ?_ (ring_stored m ing rtp)
  rw [stored]
  split
  · exact .refl _ _
  · split
    · exact onlyAt_storeNaluConfigFromRtp m ing.streamId _
    · exact .refl _ _

theorem undisturbed_iff_collect :
    Undisturbed m ing rtp ↔
      (ing.collect rtp).1.held = ing.held ∧
          ((ing.collect rtp).2 = [] ∨ m.getHub ing.streamId = none) := by
  have hstored := sameRings_stored m ing rtp
  have hquiet := exec_publishFrame_sameRings_iff (collect_streamId ing rtp).2 (stored m ing rtp)
  rw [← ring_eq_none_iff, hstored, ring_eq_none_iff] at hquiet
  rw [Undisturbed, ingestRtpPacket_eq, ← hquiet]
  constructor
  · rintro ⟨m', ing', b, h, hheld, hsame⟩
    obtain ⟨m'', hm'', heq⟩ := Option.map_eq_some_iff.mp h
    cases heq
    exact ⟨hheld, _, hm'', fun k => (hsame k).trans (hstored k).symm⟩
  · rintro ⟨hheld, m', hm', hsame⟩
    exact ⟨m', _, _, by rw [hm', Option.map_some], hheld, fun k => (hsame k).trans (hstored k)⟩

/-! ## What a packet leaves behind -/

/-- Nothing is collected. -/
def IsIdle (ing : H264RtpIngest) : Prop :=
  ing.depacketizer = ⟨none⟩ ∧ ing.batch.parts = [] ∧ ing.batch.isKeyframe = false

/-- What the ingest has collected is what **this packet alone** leaves behind, and the packet
publishes nothing. -/
def LeftBy (m : StreamManager) (ing : H264RtpIngest) (info : RtpH264PacketInfo) : Prop :=
  let (depacketizer, frame) := payloadFrame ⟨none⟩ ing.streamId info.payload info.timestamp
  ing.depacketizer = depacketizer ∧
    match frame.filter fun frame => !isParameterSetOnly frame.data with
    | none => ing.batch.parts = [] ∧ ing.batch.isKeyframe = false
    | some frame =>
      if info.marker then
        ing.batch = ⟨info.timestamp, [], false⟩ ∧
          (containsVclNalu frame.data = true → m.getHub ing.streamId = none)
      else ing.batch = ⟨info.timestamp, [frame.data], frame.isKeyframe⟩

/-- The packet is none of RTP, or it repeats the last one **where there is nothing else**. -/
def Repeated (m : StreamManager) (ing : H264RtpIngest) (rtp : List UInt8) : Prop :=
  ∀ info ∈ rtpH264PacketInfo rtp, ing.expectedSeq = some (info.sequenceNumber + 1) ∧
    if isFuAContinuation info.payload then ing.IsIdle else LeftBy m ing info

theorem collectPayload_eq (ing : H264RtpIngest) (payload : List UInt8) (ts : UInt32)
    (marker : Bool) :
    ing.collectPayload payload ts marker =
      match payloadFrame ing.depacketizer ing.streamId payload ts with
      | (depacketizer, none) => ({ ing with depacketizer }, [])
      | (depacketizer, some frame) =>
        ({ ing with depacketizer } : H264RtpIngest).collectFrame frame ts marker := by
  rw [collectPayload]
  split
  · next h => rw [h]; rfl
  · rfl

/-- The only change of the number to come is the packet's. -/
theorem collect_expectedSeq {info : RtpH264PacketInfo} (h : rtpH264PacketInfo rtp = some info) :
    (ing.collect rtp).1.expectedSeq = some (info.sequenceNumber + 1) := by
  have haccept : ∀ accepted ing', ing.acceptSequence info.sequenceNumber info.payload =
    (ing', accepted) →
      ing'.expectedSeq = some (info.sequenceNumber + 1) := by
    intro accepted ing' heq
    rw [acceptSequence] at heq
    split at heq
    · cases heq; rfl
    · split at heq <;> (cases heq; rfl)
  rw [collect, h]
  dsimp only
  rcases hr : ing.acceptSequence info.sequenceNumber info.payload with ⟨ing', _ | _⟩
  · exact haccept _ _ hr
  · have hself : ing'.withSeq ing'.expectedSeq = ing' := rfl
    have hpayload :=
      collectPayload_withSeq ing' ing'.expectedSeq info.payload info.timestamp info.marker
    rw [hself] at hpayload
    dsimp only
    rw [hpayload]
    exact (haccept _ _ hr : ing'.expectedSeq = _)

theorem succ_ne (seq : UInt16) : seq ≠ seq + 1 := by
  intro h
  have := congrArg UInt16.toNat h
  rw [UInt16.toNat_add, show (1 : UInt16).toNat = 1 from rfl] at this
  have := seq.toNat_lt
  omega

theorem held_eq_iff {depacketizer : H264RtpDepacketizer} {batch : AccessUnitBatch} :
    (ing.expectedSeq, depacketizer, batch) = ing.held ↔
      ing.depacketizer = depacketizer ∧ ing.batch = batch := by
  simp [held, eq_comm]

/-- The access unit so far is forgotten without a change if there is nothing of it. -/
theorem held_forgotten_iff (depacketizer : H264RtpDepacketizer) :
    ({ ing.discardPartialAccessUnit with depacketizer } : H264RtpIngest).held = ing.held ↔
      ing.depacketizer = depacketizer ∧ ing.batch.parts = [] ∧ ing.batch.isKeyframe = false := by
  have hheld : ({ ing.discardPartialAccessUnit with depacketizer } : H264RtpIngest).held =
      (ing.expectedSeq, depacketizer, ⟨ing.batch.timestamp, [], false⟩) := rfl
  have hbatch : ing.batch = ⟨ing.batch.timestamp, [], false⟩ ↔
      ing.batch.parts = [] ∧ ing.batch.isKeyframe = false := by
    cases ing.batch
    simp
  rw [hheld, held_eq_iff, hbatch]

/-- The frame of a packet that finds nothing collected. -/
theorem collectFrame_alone (ing : H264RtpIngest) {frame : MediaFrame}
    (hparts : ing.batch.parts = []) (hkey : ing.batch.isKeyframe = false)
    (hset : isParameterSetOnly frame.data = false) (ts : UInt32) (marker : Bool) :
    (ing.collectFrame frame ts marker).1.held = (ing.expectedSeq, ing.depacketizer,
        if marker then ⟨ts, [], false⟩ else ⟨ts, [frame.data], frame.isKeyframe⟩) ∧
      ((ing.collectFrame frame ts marker).2 = [] ↔
        ¬ (marker = true ∧ containsVclNalu frame.data = true)) := by
  have hnot : ¬ (ing.batch.parts ≠ [] ∧ ing.batch.timestamp ≠ ts) := fun h => h.1 hparts
  have hadd : (ing.addPart frame ts).batch = ⟨ts, [frame.data], frame.isKeyframe⟩ := by
    rw [addPart, hparts, hkey, if_pos rfl, Bool.false_or]
    rfl
  rw [collectFrame, hset, if_neg Bool.false_ne_true, decide_eq_false hnot]
  change ((ing.addPart frame ts).takeIf marker).1.held = _ ∧
    ([] ++ ((ing.addPart frame ts).takeIf marker).2 = [] ↔ _)
  cases marker with
  | false => exact ⟨by rw [takeIf, if_neg Bool.false_ne_true, held, hadd]; rfl, by simp [takeIf]⟩
  | true =>
    rw [takeIf, if_pos rfl, takeUnit, hadd, if_neg (List.cons_ne_nil _ _), List.flatten_singleton]
    split
    · next hvcl => exact ⟨by simp [held, clearBatch, addPart, hparts], by simp [hvcl]⟩
    · next hvcl => exact ⟨by simp [held, clearBatch, addPart, hparts], by simp [hvcl]⟩

/-- Behind a gap, with the payload taken. -/
theorem left_iff (m : StreamManager) (ing : H264RtpIngest) (info : RtpH264PacketInfo) :
    (ing.discardPartialAccessUnit.collectPayload info.payload info.timestamp info.marker).1.held =
      ing.held ∧
        ((ing.discardPartialAccessUnit.collectPayload info.payload info.timestamp info.marker).2 =
          [] ∨
          m.getHub ing.streamId = none) ↔
      LeftBy m ing info := by
  have hframe : payloadFrame ing.discardPartialAccessUnit.depacketizer
      ing.discardPartialAccessUnit.streamId info.payload info.timestamp =
        payloadFrame ⟨none⟩ ing.streamId info.payload info.timestamp := rfl
  rw [collectPayload_eq, hframe, LeftBy]
  rcases payloadFrame ⟨none⟩ ing.streamId info.payload info.timestamp with ⟨d, _ | frame⟩
  · simp [held_forgotten_iff]
  · have hfilter : (some frame).filter (fun frame : MediaFrame => !isParameterSetOnly frame.data) =
        if isParameterSetOnly frame.data then none else some frame := by
      cases hset : isParameterSetOnly frame.data <;> simp [Option.filter_some, hset]
    dsimp only
    rw [hfilter]
    cases hset : isParameterSetOnly frame.data with
    | true => simp [collectFrame, hset, held_forgotten_iff]
    | false =>
      obtain ⟨hheld, hframes⟩ :=
        collectFrame_alone { ing.discardPartialAccessUnit with depacketizer := d }
        rfl rfl hset info.timestamp info.marker
      have hseq : (ing.discardPartialAccessUnit).expectedSeq = ing.expectedSeq := rfl
      dsimp only at hheld hframes
      rw [hheld, hframes, hseq, held_eq_iff]
      cases hmarker : info.marker <;> simp [and_assoc, imp_iff_not_or]

/-- A packet leaves an ingest and the rings alone **exactly if** it is none of RTP or repeats the
last packet where there is nothing else. -/
theorem undisturbed_iff : Undisturbed m ing rtp ↔ Repeated m ing rtp := by
  rw [undisturbed_iff_collect, Repeated]
  cases hinfo : rtpH264PacketInfo rtp with
  | none => simp [collect, hinfo]
  | some info =>
    simp only [Option.mem_def, Option.some.injEq, forall_eq']
    by_cases hseq : ing.expectedSeq = some (info.sequenceNumber + 1)
    · have hself : ({ ing with expectedSeq := some (info.sequenceNumber + 1) } : H264RtpIngest) =
          ing := by
        rw [← hseq]
      have hgap : ing.acceptSequence info.sequenceNumber info.payload =
          (ing.discardPartialAccessUnit, !isFuAContinuation info.payload) := by
        rw [acceptSequence, hseq]
        dsimp only
        rw [if_neg (succ_ne _), hself]
      rw [collect, hinfo]
      dsimp only
      rw [hgap]
      cases hcont : isFuAContinuation info.payload with
      | true =>
        have hidle : ing.discardPartialAccessUnit.held = ing.held ↔ ing.IsIdle :=
          held_forgotten_iff ⟨none⟩
        simp [hseq, hidle]
      | false =>
        simpa [hseq] using left_iff m ing info
    · have hne : (ing.collect rtp).1.held ≠ ing.held := fun h =>
        hseq ((congrArg Prod.fst h).symm.trans (collect_expectedSeq hinfo))
      simp [hne, hseq]

end H264RtpIngest

/-! ## The receivers -/

/-- There is an AAC access unit in a packet. -/
def hasAacUnit (rtp : List UInt8) : Bool :=
  (stripMpeg4GenericAac (((rtpH264MediaPayload rtp).map Prod.fst).getD (rtp.drop 12))).any
    fun raw => raw ≠ []

theorem aacFrame_eq_none_iff (tracks : List Track) (s : StreamId) (trackId : TrackId)
    (rtp : List UInt8) (rtpData : Option (List UInt8)) :
    aacFrame tracks s trackId rtp rtpData = none ↔ hasAacUnit rtp = false := by
  rw [aacFrame, hasAacUnit]
  cases stripMpeg4GenericAac (((rtpH264MediaPayload rtp).map Prod.fst).getD (rtp.drop 12)) with
  | none => simp
  | some raw => by_cases hraw : raw = [] <;> simp [hraw]

/-- The frame of a packet that is not video leaves the rings alone if there is none, or no stream.
-/
theorem publish_aacFrame_iff (m : StreamManager) (tracks : List Track) (s : StreamId)
    (trackId : TrackId) (rtp : List UInt8) (rtpData : Option (List UInt8)) :
    (∃ m', exec publishFrame m (aacFrame tracks s trackId rtp rtpData).toList = some m' ∧
      SameRings m m') ↔
      hasAacUnit rtp = false ∨ m.getHub s = none := by
  rw [exec_publishFrame_sameRings_iff (s := s) fun frame hframe =>
      aacFrame_streamId (Option.mem_toList.mp hframe),
    Option.toList_eq_nil_iff, aacFrame_eq_none_iff]

/-- The frame, if any, handed to the manager. -/
theorem exec_toList {α : Type} (m : StreamManager) (frame : Option MediaFrame)
    (g : StreamManager → α) :
    (exec publishFrame m frame.toList).map g =
      match frame with
      | none => some (g m)
      | some frame => (m.publishFrame frame).map g := by
  cases frame with
  | none => rfl
  | some frame =>
    change ((m.publishFrame frame).bind some).map g = (m.publishFrame frame).map g
    rw [Option.bind_fun_some]

/-- A receiver that hands the frames over and stays as it is leaves alone **what they do**. -/
theorem handsOver_iff {α : Type} {m : StreamManager} {frames : List MediaFrame} {x : α}
    {P : α → Prop} {r : Option (StreamManager × α)}
    (hr : (exec publishFrame m frames).map (fun m => (m, x)) = r) (hx : P x) :
    (∃ m' x', r = some (m', x') ∧ P x' ∧ SameRings m m') ↔
      ∃ m', exec publishFrame m frames = some m' ∧ SameRings m m' := by
  rw [← hr]
  constructor
  · rintro ⟨m', x', h, -, hsame⟩
    obtain ⟨m'', hm'', heq⟩ := Option.map_eq_some_iff.mp h
    cases heq
    exact ⟨_, hm'', hsame⟩
  · rintro ⟨m', hm', hsame⟩
    exact ⟨m', x, Option.map_eq_some_iff.mpr ⟨m', hm', rfl⟩, hx, hsame⟩

/-- The packets on a channel that change nothing: they are too short, they are no video and have no
access unit in them or no stream to go to, or the video ingest is the same after them. -/
def Harmless (m : StreamManager) (s : StreamId) (ingest : H264RtpIngest) (channel : UInt8)
    (rtp : List UInt8) : Prop :=
  12 ≤ rtp.length →
    if channel / 2 = 0 then ingest.Repeated m rtp else hasAacUnit rtp = false ∨ m.getHub s = none

namespace RtspServerSession

/-- What the ingest of the session has; that of a new one if there is none yet. -/
def held (ss : RtspServerSession) : Option UInt16 × H264RtpDepacketizer × AccessUnitBatch :=
  (ss.h264Ingest.getD (.new "")).held

/-- The ingest and the rings are after a packet as they were **without it**. -/
def Undisturbed (m : StreamManager) (ss : RtspServerSession) (data : List UInt8) (channel : UInt8) :
    Prop :=
  ∃ m' ss', handleRtpData m ss data channel = some (m', ss') ∧ ss'.held = ss.held ∧ SameRings m m'

theorem held_eq (ss : RtspServerSession) (s : StreamId) :
    ss.held = (ss.h264Ingest.getD (.new s)).held := by
  rw [held]
  cases ss.h264Ingest <;> rfl

@[simp] theorem held_sync (ss : RtspServerSession) (m : StreamManager) (s : StreamId) :
    (ss.syncCodecCacheFromManager m s).held = ss.held := by
  rw [held, syncCodecCacheFromManager_h264Ingest, held]

theorem undisturbed_iff (m : StreamManager) (ss : RtspServerSession) (data : List UInt8)
    (channel : UInt8) :
    ss.Undisturbed m data channel ↔
      ∀ s ∈ ss.session.streamId, Harmless m s (ss.h264Ingest.getD (.new s)) channel
          (data.drop 4) := by
  rw [Undisturbed, handleRtpData]
  cases ss.session.streamId with
  | none => simpa using SameRings.refl m
  | some s =>
    simp only [Option.mem_def, Option.some.injEq, forall_eq', Harmless]
    by_cases hlen : (data.drop 4).length < 12
    · simp only [if_pos hlen, Nat.not_le.mpr hlen, false_implies, iff_true]
      exact ⟨m, ss, rfl, rfl, .refl m⟩
    · rw [if_neg hlen, imp_iff_right (Nat.le_of_not_lt hlen)]
      by_cases htrack : channel / 2 = 0
      · rw [if_pos htrack, if_pos htrack, ← H264RtpIngest.undisturbed_iff,
          H264RtpIngest.Undisturbed, held_eq ss s]
        constructor
        · rintro ⟨m', ss', h, hheld, hsame⟩
          obtain ⟨⟨m'', ingest, b⟩, hingest, heq⟩ := Option.map_eq_some_iff.mp h
          cases heq
          exact ⟨_, ingest, b, hingest, (held_sync _ _ _).symm.trans hheld, hsame⟩
        · rintro ⟨m', ingest, b, hingest, hheld, hsame⟩
          refine ⟨m', _, by rw [hingest, Option.map_some], ?_, hsame⟩
          rw [held_sync]
          exact hheld
      · rw [if_neg htrack, if_neg htrack,
          ← publish_aacFrame_iff m ss.session.tracks s (channel / 2) (data.drop 4) (some data)]
        exact handsOver_iff (P := fun ss' => ss'.held = ss.held)
          (exec_toList m (audioFrame ss.session s data (channel / 2)) fun m => (m, ss)) rfl

end RtspServerSession

namespace RtspPull

/-- The ingest and the rings are after a packet as they were **without it**. -/
def Undisturbed (m : StreamManager) (s : StreamId) (ingest : H264RtpIngest) (tracks : List Track)
    (channel : UInt8) (rtp : List UInt8) : Prop :=
  ∃ m' ingest', receiveTcp m s ingest tracks channel rtp = some (m', ingest') ∧
    ingest'.held = ingest.held ∧ SameRings m m'

theorem undisturbed_iff (m : StreamManager) (s : StreamId) (ingest : H264RtpIngest)
    (tracks : List Track) (channel : UInt8) (rtp : List UInt8) :
    Undisturbed m s ingest tracks channel rtp ↔ Harmless m s ingest channel rtp := by
  rw [Undisturbed, receiveTcp, Harmless]
  by_cases hlen : rtp.length < 12
  · simp only [if_pos hlen, Nat.not_le.mpr hlen, false_implies, iff_true]
    exact ⟨m, ingest, rfl, rfl, .refl m⟩
  · rw [if_neg hlen, imp_iff_right (Nat.le_of_not_lt hlen)]
    by_cases htrack : channel / 2 = 0
    · rw [if_pos htrack, if_pos htrack, ← H264RtpIngest.undisturbed_iff]
      constructor
      · rintro ⟨m', ingest', h, hheld, hsame⟩
        obtain ⟨⟨m'', ingest'', b⟩, hingest, heq⟩ := Option.map_eq_some_iff.mp h
        cases heq
        exact ⟨_, _, b, hingest, hheld, hsame⟩
      · rintro ⟨m', ingest', b, hingest, hheld, hsame⟩
        exact ⟨m', ingest', by rw [hingest, Option.map_some], hheld, hsame⟩
    · rw [if_neg htrack, if_neg htrack, ← publish_aacFrame_iff m tracks s (channel / 2) rtp none]
      exact handsOver_iff (P := fun ingest' => ingest'.held = ingest.held)
        (exec_toList m (aacFrame tracks s (channel / 2) rtp none) fun m => (m, ingest)) rfl

end RtspPull

/-- A packet on an interleaved channel, of RTP or of RTCP, leaves the video ingest and the rings
alone **exactly if** it is harmless: in the session of a client and in the puller. -/
theorem interleaved_undisturbed_iff (m : StreamManager) (ss : RtspServerSession) (s : StreamId)
    (ingest : H264RtpIngest) (tracks : List Track) (data rtp : List UInt8) (channel : UInt8) :
    (ss.Undisturbed m data channel ↔
      ∀ s ∈ ss.session.streamId, Harmless m s (ss.h264Ingest.getD (.new s)) channel (data.drop 4)) ∧
    (RtspPull.Undisturbed m s ingest tracks channel rtp ↔ Harmless m s ingest channel rtp) :=
  ⟨RtspServerSession.undisturbed_iff m ss data channel,
    RtspPull.undisturbed_iff m s ingest tracks channel rtp⟩

/-! ## A sender report -/

/-- A sender report of RTCP, without report blocks. -/
def senderReport : List UInt8 := [0x80, 200, 0, 6, 0, 0, 0, 1] ++ List.replicate 20 0

/-- An ingest that has got the first packet of an access unit. -/
def midUnit : H264RtpIngest :=
  ((H264RtpIngest.new "cam").collect (buildRtpPacket 96 0 90000 1 false [0x41, 1])).1

/-- A sender report on channel 1 loses the access unit so far, **in both receivers**. -/
theorem senderReport_disturbs :
    isRtcpPacket senderReport = true ∧
      ¬ RtspServerSession.Undisturbed (StreamManager.new.createStream "cam" .push .rtsp none).1
        { RtspServerSession.new with
          session := { RtspSession.new with streamId := some "cam", publishing := true }
          h264Ingest := some midUnit }
        ([0x24, 1, 0, 28] ++ senderReport) 1 ∧
      ¬ RtspPull.Undisturbed (StreamManager.new.createStream "cam" .pull .rtsp none).1 "cam" midUnit
        defaultLiveTracks 1 senderReport := by
  have hnot : ∀ m, ¬ Harmless m "cam" midUnit 1 senderReport := by
    intro m h
    have hseq := ((h (by decide)) _ (by rfl)).1
    exact absurd hseq (by decide)
  refine ⟨by decide, fun h => ?_, fun h => ?_⟩
  · exact hnot _ ((RtspServerSession.undisturbed_iff _ _ _ _).mp h "cam" rfl)
  · exact hnot _ ((RtspPull.undisturbed_iff _ _ _ _ _ _).mp h)

end VcpMediaServer
