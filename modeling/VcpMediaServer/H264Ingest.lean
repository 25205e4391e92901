import VcpMediaServer.Authority
import VcpMediaServer.H264Util
import VcpMediaServer.RtpH264
import VcpMediaServer.Timestamp

/-!
# H264 ingest

`h264_rtp_ingest.rs`: RTP packets become access units of a stream. An ingest
object is made for **one stream** and publishes to that stream for good, whatever
becomes of the session that feeds it.

* `H264RtpIngest.ingestRtpPacket` — one packet: check the sequence number, store
  parameter sets, collect the access unit, publish it when it is complete.
* `H264RtpIngest.onlyAt_ingestRtpPacket` — a packet touches that one stream.
-/

namespace VcpMediaServer

open StreamManager

/-- `AccessUnitBatch`: the parts of the access unit so far. -/
structure AccessUnitBatch where
  /-- The timestamp of the access unit. -/
  timestamp : UInt32
  /-- Its parts, in Annex B. -/
  parts : List (List UInt8)
  /-- A part of it is an IDR picture. -/
  isKeyframe : Bool
  deriving DecidableEq, Repr

/-- `H264RtpIngest`. -/
structure H264RtpIngest where
  /-- The stream it was made for. -/
  streamId : StreamId
  /-- The depacketizer. -/
  depacketizer : H264RtpDepacketizer
  /-- The access unit so far. -/
  batch : AccessUnitBatch
  /-- The sequence number to come, after a first packet. -/
  expectedSeq : Option UInt16
  /-- The number of access units published. -/
  units : ℕ
  deriving DecidableEq, Repr

/-- `RtpH264PacketInfo`. -/
structure RtpH264PacketInfo where
  /-- What is behind the header. -/
  payload : List UInt8
  /-- The timestamp. -/
  timestamp : UInt32
  /-- The marker bit. -/
  marker : Bool
  /-- The sequence number. -/
  sequenceNumber : UInt16
  deriving DecidableEq, Repr

/-- `rtp_h264_packet_info`: the header with its CSRCs and its extension taken off. -/
def rtpH264PacketInfo (rtp : List UInt8) : Option RtpH264PacketInfo :=
  if rtp.length < 12 then none
  else
    let b := rtp.getD 0 0
    let offset := 12 + (b &&& 0x0F).toNat * 4
    if offset > rtp.length then none
    else if b &&& 0x10 ≠ 0 ∧ offset + 4 > rtp.length then none
    else
      let offset :=
        if b &&& 0x10 ≠ 0 then offset + (beNat (slice rtp (offset + 2) 2) * 4 + 4) else offset
      if offset ≥ rtp.length then none
      else
        some
          { payload := rtp.drop offset
            timestamp := UInt32.ofNat (beNat (slice rtp 4 4))
            marker := rtp.getD 1 0 &&& 0x80 != 0
            sequenceNumber := UInt16.ofNat (beNat (slice rtp 2 2)) }

/-- `rtp_h264_media_payload`. -/
def rtpH264MediaPayload (rtp : List UInt8) : Option (List UInt8 × UInt32 × Bool) :=
  (rtpH264PacketInfo rtp).map fun info => (info.payload, info.timestamp, info.marker)

/-- The loop that merges the parameter sets among NAL units one by one. -/
def mergeNalus (m : StreamManager) (s : StreamId) (nalus : List ParsedNalu) : StreamManager :=
  nalus.foldl (fun m n =>
    if n.nalType = 7 ∨ n.nalType = 8 then m.mergeStreamNaluConfig s n.data else m) m

theorem onlyAt_mergeNalus (m : StreamManager) (s : StreamId) (nalus : List ParsedNalu) :
    OnlyAt s m (mergeNalus m s nalus) := by
  induction nalus generalizing m with
  | nil => exact .refl s m
  | cons n nalus ih =>
    rw [mergeNalus, List.foldl_cons]
    refine OnlyAt.trans ?_ (ih _)
    split
    · exact onlyAt_mergeStreamNaluConfig m s n.data
    · exact .refl s m

/-- `store_nalu_config_from_rtp`: both parameter sets replace what is stored, one
alone only fills a gap. -/
def storeNaluConfigFromRtp (m : StreamManager) (s : StreamId) (payload : List UInt8) :
    StreamManager :=
  let nalus := parseRtpH264 payload
  match extractSpsPpsFromNalus nalus with
  | (some sps, some pps) => m.setStreamSpsPps s sps pps
  | _ =>
    if (m.getStream s).any fun stream => stream.sps.isSome && stream.pps.isSome then m
    else mergeNalus m s nalus

/-- `h264_rtp_to_annex_b`. -/
def h264RtpToAnnexB (m : StreamManager) (d : H264RtpDepacketizer) (s : StreamId)
    (payload : List UInt8) (timestamp : UInt32) :
    StreamManager × H264RtpDepacketizer × Option MediaFrame :=
  let m := storeNaluConfigFromRtp m s payload
  let isKeyframeRtp := containsIdr (parseRtpH264 payload) || isIdrRtpPayload payload
  let frame (annexB : List UInt8) : MediaFrame :=
    (MediaFrame.new s 0 timestamp.toUInt64 annexB (isKeyframeRtp || isKeyframeAnnexB annexB)
      .h264).withClockRate VIDEO_RTP_CLOCK_RATE
  match d.push payload with
  | (d, .ok (some nalu)) => (m, d, some (frame nalu))
  | (d, .ok none) => (m, d, none)
  | (d, .error _) => (m, d, (annexBFromRtpPayload payload).map frame)

namespace H264RtpIngest

/-- `H264RtpIngest::new`. -/
def new (streamId : StreamId) : H264RtpIngest :=
  { streamId, depacketizer := .default, batch := ⟨0, [], false⟩, expectedSeq := none, units := 0 }

/-- Forget the access unit so far. -/
def clearBatch (ing : H264RtpIngest) : H264RtpIngest :=
  { ing with batch := { ing.batch with parts := [], isKeyframe := false } }

/-- The frame of the access unit so far. -/
def batchFrame (ing : H264RtpIngest) : MediaFrame :=
  let combined := ing.batch.parts.flatten
  (MediaFrame.new ing.streamId 0 ing.batch.timestamp.toUInt64 combined
    (ing.batch.isKeyframe || isKeyframeAnnexB combined) .h264).withClockRate VIDEO_RTP_CLOCK_RATE

/-- `flush_access_unit`: an access unit without a slice is dropped. -/
def flushAccessUnit (m : StreamManager) (ing : H264RtpIngest) :
    Option (StreamManager × H264RtpIngest × Bool) :=
  if ing.batch.parts = [] then some (m, ing, false)
  else if containsVclNalu ing.batch.parts.flatten then
    (m.publishFrame ing.batchFrame).map fun m =>
      (m, { ing.clearBatch with units := ing.units + 1 }, true)
  else some (m, ing.clearBatch, false)

/-- `discard_partial_access_unit`. -/
def discardPartialAccessUnit (ing : H264RtpIngest) : H264RtpIngest :=
  { ing.clearBatch with depacketizer := ⟨none⟩ }

/-- `accept_sequence`. -/
def acceptSequence (ing : H264RtpIngest) (seq : UInt16) (payload : List UInt8) :
    H264RtpIngest × Bool :=
  let next := { ing with expectedSeq := some (seq + 1) }
  match ing.expectedSeq with
  | none => (next, true)
  | some expected =>
    if seq = expected then (next, true)
    else (next.discardPartialAccessUnit, !isFuAContinuation payload)

/-- Add a part to the access unit. -/
def addPart (ing : H264RtpIngest) (frame : MediaFrame) (timestamp : UInt32) : H264RtpIngest :=
  { ing with
    batch :=
      { timestamp := if ing.batch.parts = [] then timestamp else ing.batch.timestamp
        parts := ing.batch.parts ++ [frame.data]
        isKeyframe := ing.batch.isKeyframe || frame.isKeyframe } }

/-- Flush the access unit if it ends here. -/
def flushIf (m : StreamManager) (ing : H264RtpIngest) (ends : Bool) :
    Option (StreamManager × H264RtpIngest × Bool) :=
  if ends then flushAccessUnit m ing else some (m, ing, false)

/-- `ingest_payload`: a new timestamp ends the access unit before it, the marker
the one that the payload belongs to. The result is the manager, the
ingest and whether a frame was published; `none` if the push of one never
returns. -/
def ingestPayload (m : StreamManager) (ing : H264RtpIngest) (payload : List UInt8)
    (timestamp : UInt32) (marker : Bool) : Option (StreamManager × H264RtpIngest × Bool) :=
  if payload = [] then some (m, ing, false)
  else
    match h264RtpToAnnexB m ing.depacketizer ing.streamId payload timestamp with
    | (m, depacketizer, none) => some (m, { ing with depacketizer }, false)
    | (m, depacketizer, some frame) =>
      let ing := { ing with depacketizer }
      if isParameterSetOnly frame.data then some (m, ing, false)
      else
        (flushIf m ing (ing.batch.parts ≠ [] ∧ ing.batch.timestamp ≠ timestamp)).bind
          fun (m, ing, first) =>
            (flushIf m (ing.addPart frame timestamp) marker).map fun (m, ing, second) =>
              (m, ing, first || second)

/-- `ingest_rtp_packet`. -/
def ingestRtpPacket (m : StreamManager) (ing : H264RtpIngest) (rtp : List UInt8) :
    Option (StreamManager × H264RtpIngest × Bool) :=
  match rtpH264PacketInfo rtp with
  | none => some (m, ing, false)
  | some info =>
    match ing.acceptSequence info.sequenceNumber info.payload with
    | (ing, false) => some (m, ing, false)
    | (ing, true) => ingestPayload m ing info.payload info.timestamp info.marker

/-! ## What a packet touches -/

variable {m m' : StreamManager} {ing ing' : H264RtpIngest} {b : Bool}

theorem onlyAt_storeNaluConfigFromRtp (m : StreamManager) (s : StreamId) (payload : List UInt8) :
    OnlyAt s m (storeNaluConfigFromRtp m s payload) := by
  simp only [storeNaluConfigFromRtp]
  split
  · exact onlyAt_setStreamSpsPps m s _ _
  · split
    · exact .refl s m
    · exact onlyAt_mergeNalus m s _

theorem onlyAt_h264RtpToAnnexB (m : StreamManager) (d : H264RtpDepacketizer) (s : StreamId)
    (payload : List UInt8) (timestamp : UInt32) :
    OnlyAt s m (h264RtpToAnnexB m d s payload timestamp).1 := by
  simp only [h264RtpToAnnexB]
  split <;> exact onlyAt_storeNaluConfigFromRtp m s payload

theorem onlyAt_flushAccessUnit (h : flushAccessUnit m ing = some (m', ing', b)) :
    OnlyAt ing.streamId m m' ∧ ing'.streamId = ing.streamId := by
  rw [flushAccessUnit] at h
  split at h
  · cases h
    exact ⟨.refl _ _, rfl⟩
  · split at h
    · obtain ⟨m₁, hm₁, heq⟩ := Option.map_eq_some_iff.mp h
      cases heq
      exact ⟨onlyAt_publishFrame hm₁, rfl⟩
    · cases h
      exact ⟨.refl _ _, rfl⟩

theorem onlyAt_flushIf {ends : Bool} (h : flushIf m ing ends = some (m', ing', b)) :
    OnlyAt ing.streamId m m' ∧ ing'.streamId = ing.streamId := by
  rw [flushIf] at h
  split at h
  · exact onlyAt_flushAccessUnit h
  · cases h
    exact ⟨.refl _ _, rfl⟩

@[simp] theorem acceptSequence_streamId (ing : H264RtpIngest) (seq : UInt16)
    (payload : List UInt8) : (ing.acceptSequence seq payload).1.streamId = ing.streamId := by
  simp only [acceptSequence]
  split
  · rfl
  · split <;> rfl

theorem onlyAt_ingestPayload {payload : List UInt8} {timestamp : UInt32} {marker : Bool}
    (h : ingestPayload m ing payload timestamp marker = some (m', ing', b)) :
    OnlyAt ing.streamId m m' ∧ ing'.streamId = ing.streamId := by
  rw [ingestPayload] at h
  split at h
  · cases h
    exact ⟨.refl _ _, rfl⟩
  · have hfirst := onlyAt_h264RtpToAnnexB m ing.depacketizer ing.streamId payload timestamp
    generalize h264RtpToAnnexB m ing.depacketizer ing.streamId payload timestamp = r at h hfirst
    obtain ⟨m₁, d, _ | frame⟩ := r
    · cases h
      exact ⟨hfirst, rfl⟩
    · dsimp only at h hfirst
      split at h
      · cases h
        exact ⟨hfirst, rfl⟩
      · -- at most two flushes, of one ingest
        obtain ⟨⟨m₂, ing₂, first⟩, h₂, h⟩ := Option.bind_eq_some_iff.mp h
        obtain ⟨⟨m₃, ing₃, second⟩, h₃, heq⟩ := Option.map_eq_some_iff.mp h
        cases heq
        obtain ⟨hm₂, hing₂⟩ := onlyAt_flushIf h₂
        obtain ⟨hm₃, hing₃⟩ := onlyAt_flushIf h₃
        have hing : (ing₂.addPart frame timestamp).streamId = ing.streamId := hing₂
        rw [hing] at hm₃ hing₃
        exact ⟨hfirst.trans (hm₂.trans hm₃), hing₃⟩

/-- A packet touches **the stream of the ingest** and no other, and no slot. -/
theorem onlyAt_ingestRtpPacket {rtp : List UInt8}
    (h : ingestRtpPacket m ing rtp = some (m', ing', b)) :
    OnlyAt ing.streamId m m' ∧ ing'.streamId = ing.streamId := by
  rw [ingestRtpPacket] at h
  split at h
  · cases h
    exact ⟨.refl _ _, rfl⟩
  · next info _ =>
    have hid := acceptSequence_streamId ing info.sequenceNumber info.payload
    generalize ing.acceptSequence info.sequenceNumber info.payload = r at h hid
    obtain ⟨ing₁, _ | _⟩ := r
    · cases h
      exact ⟨.refl _ _, hid⟩
    · rw [← hid]
      exact onlyAt_ingestPayload h

end H264RtpIngest

end VcpMediaServer
