import VcpMediaServer.H264Ingest
import VcpMediaServer.Mealy

/-!
# What an H264 ingest publishes

The ingest as a machine whose outputs are the frames it publishes: `collect` is one packet
without the manager, and the manager is the sink of the frames. A packet publishes two frames at
most, the access unit before it and its own.

* `ingestRtpPacket_eq` — a packet stores parameter sets, and then publishes what `collect`
  gives, frame by frame.
* `exec_feed` — over a run of packets, the ring of the stream is **what it was, with the frames
  of the run pushed**.
-/

namespace VcpMediaServer

open Lts

namespace H264RtpIngest

/-! ## Collecting -/

/-- The frame of a payload, if it completes anything: `h264_rtp_to_annex_b` without its
parameter sets. -/
def payloadFrame (d : H264RtpDepacketizer) (s : StreamId) (payload : List UInt8)
    (timestamp : UInt32) : H264RtpDepacketizer × Option MediaFrame :=
  let isKeyframeRtp := containsIdr (parseRtpH264 payload) || isIdrRtpPayload payload
  let frame (annexB : List UInt8) : MediaFrame :=
    (MediaFrame.new s 0 timestamp.toUInt64 annexB (isKeyframeRtp || isKeyframeAnnexB annexB)
      .h264).withClockRate VIDEO_RTP_CLOCK_RATE
  match d.push payload with
  | (d, .ok (some nalu)) => (d, some (frame nalu))
  | (d, .ok none) => (d, none)
  | (d, .error _) => (d, (annexBFromRtpPayload payload).map frame)

/-- The access unit so far is given away, if there is a slice in it. -/
def takeUnit (ing : H264RtpIngest) : H264RtpIngest × List MediaFrame :=
  if ing.batch.parts = [] then (ing, [])
  else if containsVclNalu ing.batch.parts.flatten then
    ({ ing.clearBatch with units := ing.units + 1 }, [ing.batchFrame])
  else (ing.clearBatch, [])

/-- The access unit is given away if it ends here. -/
def takeIf (ing : H264RtpIngest) (ends : Bool) : H264RtpIngest × List MediaFrame :=
  if ends then ing.takeUnit else (ing, [])

/-- The frame of a payload is added to its access unit. -/
def collectFrame (ing : H264RtpIngest) (frame : MediaFrame) (timestamp : UInt32) (marker : Bool) :
    H264RtpIngest × List MediaFrame :=
  if isParameterSetOnly frame.data then (ing, [])
  else
    let (ing, first) := ing.takeIf (ing.batch.parts ≠ [] ∧ ing.batch.timestamp ≠ timestamp)
    let (ing, second) := (ing.addPart frame timestamp).takeIf marker
    (ing, first ++ second)

/-- One payload. -/
def collectPayload (ing : H264RtpIngest) (payload : List UInt8) (timestamp : UInt32)
    (marker : Bool) : H264RtpIngest × List MediaFrame :=
  if payload = [] then (ing, [])
  else
    match payloadFrame ing.depacketizer ing.streamId payload timestamp with
    | (depacketizer, none) => ({ ing with depacketizer }, [])
    | (depacketizer, some frame) => { ing with depacketizer }.collectFrame frame timestamp marker

/-- One packet: the ingest afterwards and the frames that it publishes. -/
def collect (ing : H264RtpIngest) (rtp : List UInt8) : H264RtpIngest × List MediaFrame :=
  match rtpH264PacketInfo rtp with
  | none => (ing, [])
  | some info =>
    match ing.acceptSequence info.sequenceNumber info.payload with
    | (ing, false) => (ing, [])
    | (ing, true) => ing.collectPayload info.payload info.timestamp info.marker

/-- The parameter sets of a packet are stored. -/
def stored (m : StreamManager) (ing : H264RtpIngest) (rtp : List UInt8) : StreamManager :=
  match rtpH264PacketInfo rtp with
  | none => m
  | some info =>
    if (ing.acceptSequence info.sequenceNumber info.payload).2 ∧ info.payload ≠ [] then
      storeNaluConfigFromRtp m ing.streamId info.payload
    else m

/-! ## The ingest is its machine -/

variable {m : StreamManager} {ing : H264RtpIngest}

theorem h264RtpToAnnexB_eq (m : StreamManager) (d : H264RtpDepacketizer) (s : StreamId)
    (payload : List UInt8) (timestamp : UInt32) :
    h264RtpToAnnexB m d s payload timestamp =
      (storeNaluConfigFromRtp m s payload, payloadFrame d s payload timestamp) := by
  rw [h264RtpToAnnexB, payloadFrame]
  rcases d.push payload with ⟨d, _ | _ | nalu⟩ <;> rfl

theorem flushAccessUnit_eq (m : StreamManager) (ing : H264RtpIngest) :
    flushAccessUnit m ing =
      (exec StreamManager.publishFrame m ing.takeUnit.2).map fun m =>
        (m, ing.takeUnit.1, !ing.takeUnit.2.isEmpty) := by
  rw [flushAccessUnit, takeUnit]
  split
  · rfl
  · split
    · rw [exec_cons]
      cases m.publishFrame ing.batchFrame <;> rfl
    · rfl

theorem flushIf_eq (m : StreamManager) (ing : H264RtpIngest) (ends : Bool) :
    flushIf m ing ends =
      (exec StreamManager.publishFrame m (ing.takeIf ends).2).map fun m =>
        (m, (ing.takeIf ends).1, !(ing.takeIf ends).2.isEmpty) := by
  cases ends with
  | false => rfl
  | true => exact flushAccessUnit_eq m ing

theorem isEmpty_append_not {α : Type} (l l' : List α) :
    (!l.isEmpty || !l'.isEmpty) = !(l ++ l').isEmpty := by
  cases l <;> rfl

theorem ingestPayload_eq (m : StreamManager) (ing : H264RtpIngest) (payload : List UInt8)
    (timestamp : UInt32) (marker : Bool) :
    ingestPayload m ing payload timestamp marker =
      (exec StreamManager.publishFrame
          (if payload ≠ [] then storeNaluConfigFromRtp m ing.streamId payload else m)
          (ing.collectPayload payload timestamp marker).2).map fun m =>
        (m, (ing.collectPayload payload timestamp marker).1,
          !(ing.collectPayload payload timestamp marker).2.isEmpty) := by
  rw [ingestPayload, collectPayload]
  by_cases hnil : payload = []
  · rw [if_pos hnil, if_pos hnil, if_neg (not_not.mpr hnil)]
    rfl
  · rw [if_neg hnil, if_neg hnil, if_pos hnil, h264RtpToAnnexB_eq]
    rcases payloadFrame ing.depacketizer ing.streamId payload timestamp with ⟨d, _ | frame⟩
    · rfl
    · dsimp only
      generalize storeNaluConfigFromRtp m ing.streamId payload = m
      rw [collectFrame]
      by_cases hset : isParameterSetOnly frame.data
      · rw [if_pos hset, if_pos hset]
        rfl
      · rw [if_neg hset, if_neg hset, flushIf_eq]
        generalize H264RtpIngest.takeIf _ _ = r
        obtain ⟨ing, first⟩ := r
        -- the second flush pushes behind the first
        dsimp only
        rw [exec_append]
        cases exec StreamManager.publishFrame m first with
        | none => rfl
        | some m =>
          simp only [Option.map_some, Option.bind_some, flushIf_eq, Option.map_map]
          congr 1
          funext m
          exact Prod.ext rfl (Prod.ext rfl (isEmpty_append_not _ _))

/-- A packet **stores, then publishes** what it gives. -/
theorem ingestRtpPacket_eq (m : StreamManager) (ing : H264RtpIngest) (rtp : List UInt8) :
    ingestRtpPacket m ing rtp =
      (exec StreamManager.publishFrame (stored m ing rtp) (ing.collect rtp).2).map fun m =>
        (m, (ing.collect rtp).1, !(ing.collect rtp).2.isEmpty) := by
  rw [ingestRtpPacket, collect, stored]
  rcases rtpH264PacketInfo rtp with _ | info
  · rfl
  · have hid := acceptSequence_streamId ing info.sequenceNumber info.payload
    dsimp only
    generalize ing.acceptSequence info.sequenceNumber info.payload = r at hid
    obtain ⟨ing', _ | _⟩ := r
    · rfl
    · simp only [true_and, ← hid]
      exact ingestPayload_eq m ing' info.payload info.timestamp info.marker

/-! ## What is kept -/

@[simp] theorem takeUnit_streamId (ing : H264RtpIngest) :
    ing.takeUnit.1.streamId = ing.streamId := by
  rw [takeUnit]
  split
  · rfl
  · split <;> rfl

@[simp] theorem takeIf_streamId (ing : H264RtpIngest) (ends : Bool) :
    (ing.takeIf ends).1.streamId = ing.streamId := by
  cases ends with
  | false => rfl
  | true => exact takeUnit_streamId ing

theorem takeUnit_frames {frame : MediaFrame} (h : frame ∈ ing.takeUnit.2) :
    frame.streamId = ing.streamId := by
  rw [takeUnit] at h
  split at h
  · cases h
  · split at h
    · rw [List.mem_singleton.mp h]
      rfl
    · cases h

theorem takeIf_frames {ends : Bool} {frame : MediaFrame} (h : frame ∈ (ing.takeIf ends).2) :
    frame.streamId = ing.streamId := by
  cases ends with
  | false => cases h
  | true => exact takeUnit_frames h

theorem collectFrame_streamId (ing : H264RtpIngest) (f : MediaFrame) (timestamp : UInt32)
    (marker : Bool) :
    (ing.collectFrame f timestamp marker).1.streamId = ing.streamId ∧
      ∀ frame ∈ (ing.collectFrame f timestamp marker).2, frame.streamId = ing.streamId := by
  rw [collectFrame]
  split
  · exact ⟨rfl, by simp⟩
  · have hid := takeIf_streamId ing
      (ing.batch.parts ≠ [] ∧ ing.batch.timestamp ≠ timestamp)
    dsimp only
    refine ⟨(takeIf_streamId _ _).trans hid, fun frame hframe => ?_⟩
    rcases List.mem_append.mp hframe with hframe | hframe
    · exact takeIf_frames hframe
    · exact (takeIf_frames hframe).trans hid

theorem collectPayload_streamId (ing : H264RtpIngest) (payload : List UInt8) (timestamp : UInt32)
    (marker : Bool) :
    (ing.collectPayload payload timestamp marker).1.streamId = ing.streamId ∧
      ∀ frame ∈ (ing.collectPayload payload timestamp marker).2, frame.streamId = ing.streamId := by
  rw [collectPayload]
  split
  · exact ⟨rfl, by simp⟩
  · rcases payloadFrame ing.depacketizer ing.streamId payload timestamp with ⟨d, _ | frame⟩
    · exact ⟨rfl, by simp⟩
    · exact collectFrame_streamId _ _ _ _

/-- A machine stays with its stream, and so do its frames. -/
theorem collect_streamId (ing : H264RtpIngest) (rtp : List UInt8) :
    (ing.collect rtp).1.streamId = ing.streamId ∧
      ∀ frame ∈ (ing.collect rtp).2, frame.streamId = ing.streamId := by
  rw [collect]
  split
  · exact ⟨rfl, by simp⟩
  · next info _ =>
    have hid := acceptSequence_streamId ing info.sequenceNumber info.payload
    generalize ing.acceptSequence info.sequenceNumber info.payload = r at hid
    obtain ⟨ing', _ | _⟩ := r
    · exact ⟨hid, by simp⟩
    · dsimp only at hid ⊢
      rw [← hid]
      exact collectPayload_streamId ing' _ _ _

/-! ## Runs -/

/-- A packet, seen as a step. -/
def feed : StreamManager × H264RtpIngest → List UInt8 → Option (StreamManager × H264RtpIngest)
  | (m, ing), rtp => (ing.ingestRtpPacket m rtp).map fun r => (r.1, r.2.1)

theorem feed_eq_sunk : feed = Mealy.sunk StreamManager.publishFrame stored collect := by
  funext ⟨m, ing⟩ rtp
  rw [feed, ingestRtpPacket_eq, Option.map_map]
  rfl

end H264RtpIngest

/-- The ring of a stream. -/
def StreamManager.ring (m : StreamManager) (s : StreamId) : Option FrameRing :=
  (m.getHub s).map StreamHub.ring

/-- A push into the ring of a stream, if there is one. -/
def pushInto : Option FrameRing → MediaFrame → Option (Option FrameRing)
  | none, _ => some none
  | some r, frame => (r.push frame).map some

theorem exec_pushInto (r : FrameRing) (frames : List MediaFrame) :
    exec pushInto (some r) frames = (exec FrameRing.push r frames).map some := by
  induction frames generalizing r with
  | nil => rfl
  | cons frame frames ih =>
    rw [exec_cons, exec_cons, pushInto]
    cases r.push frame with
    | none => rfl
    | some r' => exact ih r'

theorem ring_publishFrame (m : StreamManager) (frame : MediaFrame) :
    (m.publishFrame frame).map (fun m => m.ring frame.streamId) =
      pushInto (m.ring frame.streamId) frame := by
  rw [StreamManager.publishFrame]
  rcases h : m.getHub frame.streamId with _ | hub
  · have hring : m.ring frame.streamId = none := by rw [StreamManager.ring, h, Option.map_none]
    exact (congrArg some hring).trans (by rw [hring, pushInto])
  · have hring : m.ring frame.streamId = some hub.ring := by
      rw [StreamManager.ring, h, Option.map_some]
    rw [hring, pushInto]
    dsimp only
    rw [StreamHub.publish]
    cases hub.ring.push frame with
    | none => rfl
    | some ring =>
      have hhub := StreamManager.getHub_updateHub_self m frame.streamId
        fun _ => { hub with ring, seqTx := hub.seqTx + 1 }.updateStream fun stream =>
          { stream with status := StreamManager.statusAfterFrame stream.status }
      rw [h, Option.map_some] at hhub
      exact congrArg (fun h => some (Option.map StreamHub.ring h)) hhub

theorem StreamManager.ring_updateHub (m : StreamManager) (s : StreamId) {g : StreamHub → StreamHub}
    (hg : ∀ h, (g h).ring = h.ring) : (m.updateHub s g).ring s = m.ring s := by
  rw [StreamManager.ring, StreamManager.getHub_updateHub_self, StreamManager.ring]
  cases m.getHub s with
  | none => rfl
  | some h => exact congrArg some (hg h)

namespace H264RtpIngest

/-- Parameter sets leave the ring alone. -/
theorem ring_mergeNalus (m : StreamManager) (s : StreamId) (nalus : List ParsedNalu) :
    (mergeNalus m s nalus).ring s = m.ring s := by
  induction nalus generalizing m with
  | nil => rfl
  | cons n nalus ih =>
    rw [mergeNalus, List.foldl_cons]
    apply (ih _).trans
    split
    · cases n.data with
      | nil => rfl
      | cons b rest =>
        rw [StreamManager.mergeStreamNaluConfig]
        split
        · rfl
        · refine m.ring_updateHub s fun _ => ?_
          rfl
    · rfl

theorem ring_storeNaluConfigFromRtp (m : StreamManager) (s : StreamId) (payload : List UInt8) :
    (storeNaluConfigFromRtp m s payload).ring s = m.ring s := by
  simp only [storeNaluConfigFromRtp]
  split
  · exact m.ring_updateHub s fun _ => rfl
  · split
    · rfl
    · exact ring_mergeNalus m s _

theorem ring_stored (m : StreamManager) (ing : H264RtpIngest) (rtp : List UInt8) :
    (stored m ing rtp).ring ing.streamId = m.ring ing.streamId := by
  rw [stored]
  split
  · rfl
  · split
    · exact ring_storeNaluConfigFromRtp m ing.streamId _
    · rfl

/-- Over a run of packets, the ring is **what it was with the frames of the run pushed**. -/
theorem exec_feed (m : StreamManager) (ing : H264RtpIngest) (packets : List (List UInt8)) :
    (exec feed (m, ing) packets).map (fun r => (r.1.ring ing.streamId, r.2)) =
      (exec pushInto (m.ring ing.streamId) (Mealy.trace collect ing packets).flatten).map fun r =>
        (r, Mealy.final collect ing packets) := by
  rw [feed_eq_sunk]
  exact Mealy.exec_sunk (fun m => m.ring ing.streamId) (I := fun i => i.streamId = ing.streamId)
    (Q := fun f => f.streamId = ing.streamId)
    (fun i rtp hi => (collect_streamId i rtp).1.trans hi)
    (fun i rtp hi f hf => ((collect_streamId i rtp).2 f hf).trans hi)
    (fun m i rtp hi => hi ▸ ring_stored m i rtp)
    (fun m f hf => hf ▸ ring_publishFrame m f) rfl m packets

end H264RtpIngest

end VcpMediaServer
