import VcpMediaServer.FrameRing
import VcpMediaServer.StreamManager

/-!
# Annex B buffers

The helpers of `h264_util.rs`, which split a buffer of H264 at its **four-byte**
start codes. A range of the source is given here by the bytes in it.

* `iterAnnexBNalRanges` — the NAL units of a buffer, none of them empty.
* `isKeyframeAnnexB`, `containsVclNalu`, `isParameterSetOnly` — what the ingest
  and playback paths ask of a buffer.
-/

namespace VcpMediaServer

/-- The four-byte start code. -/
def startCode : List UInt8 := [0, 0, 0, 1]

/-- The scan of `iter_annex_b_nal_ranges`: `skip` bytes of a start code are
still to be passed over, and `cur` is the NAL unit being read, if a start code
came before it. -/
def annexBNals : ℕ → Option (List UInt8) → List UInt8 → List (List UInt8)
  | _, cur, [] => (cur.getD []) |> fun nal => if nal = [] then [] else [nal]
  | skip + 1, cur, _ :: rest => annexBNals skip cur rest
  | 0, cur, b :: rest =>
    if (b :: rest).take 4 = startCode then
      let nal := cur.getD []
      if nal = [] then annexBNals 3 (some []) rest else nal :: annexBNals 3 (some []) rest
    else annexBNals 0 (cur.map fun nal => nal ++ [b]) rest

/-- `iter_annex_b_nal_ranges`: a buffer without a start code is one NAL unit. -/
def iterAnnexBNalRanges (data : List UInt8) : List (List UInt8) :=
  let nals := annexBNals 0 none data
  if nals = [] then
    let body :=
      if data.take 4 = startCode then data.drop 4
      else if data.take 3 = [0, 0, 1] then data.drop 3
      else data
    if body = [] then [] else [body]
  else nals

/-- `ensure_annex_b`: a start code in front, where there is none. -/
def ensureAnnexB (data : List UInt8) : List UInt8 :=
  if data = [] then []
  else if data.take 4 = startCode ∨ data.take 3 = [0, 0, 1] then data
  else startCode ++ data

/-- `first_nalu_header_offset`. -/
def firstNaluHeaderOffset (data : List UInt8) : Option ℕ :=
  if data.take 4 = startCode then some 4
  else if data.take 3 = [0, 0, 1] then some 3
  else if data = [] then none
  else some 0

/-- `nalu_type`. -/
def naluType (data : List UInt8) (headerIdx : ℕ) : Option UInt8 :=
  (data[headerIdx]?).map fun b => b &&& 0x1F

/-- `first_nalu_type`. -/
def firstNaluType (data : List UInt8) : Option UInt8 :=
  (firstNaluHeaderOffset data).bind (naluType data)

/-- `contains_nalu_type`. -/
def containsNaluType (data : List UInt8) (target : UInt8) : Bool :=
  (iterAnnexBNalRanges data).any fun nal => naluType nal 0 == some target

/-- `contains_idr_nalu`. -/
def containsIdrNalu (data : List UInt8) : Bool := containsNaluType data 5

/-- `contains_sps_or_pps_nalu`. -/
def containsSpsOrPpsNalu (data : List UInt8) : Bool :=
  containsNaluType data 7 || containsNaluType data 8

/-- `contains_vcl_nalu`: a slice, of an IDR picture or of another. -/
def containsVclNalu (data : List UInt8) : Bool :=
  (iterAnnexBNalRanges data).any fun nal =>
    naluType nal 0 == some 1 || naluType nal 0 == some 5

/-- `is_parameter_set_only`: nothing but SPS, PPS and access unit delimiters. -/
def isParameterSetOnly (data : List UInt8) : Bool :=
  let nals := iterAnnexBNalRanges data
  !nals.isEmpty && nals.all fun nal =>
    naluType nal 0 == some 7 || naluType nal 0 == some 8 || naluType nal 0 == some 9

/-- `is_keyframe_annex_b`. -/
def isKeyframeAnnexB (data : List UInt8) : Bool :=
  firstNaluType data == some 5 || containsIdrNalu data

/-- `extract_sps_pps`: the **last** of each in the buffer. -/
def extractSpsPps (data : List UInt8) : Option (List UInt8) × Option (List UInt8) :=
  let nals := iterAnnexBNalRanges data
  (nals.reverse.find? fun nal => naluType nal 0 == some 7,
    nals.reverse.find? fun nal => naluType nal 0 == some 8)

/-- `annex_b_with_config`: the parameter sets in front, unless there are any. -/
def annexBWithConfig (sps pps accessUnit : List UInt8) : List UInt8 :=
  let au := ensureAnnexB accessUnit
  if containsSpsOrPpsNalu au then au else startCode ++ sps ++ startCode ++ pps ++ au

/-! ## The RTP clock -/

/-- `is_rtp_timestamp_after`. -/
def isRtpTimestampAfter (curr prev : UInt64) : Bool :=
  if curr = prev then false else (curr.toUInt32 - prev.toUInt32) < 0x80000000

/-- `is_rtp_timestamp_before`. -/
def isRtpTimestampBefore (curr prev : UInt64) : Bool :=
  if curr = prev then false else !isRtpTimestampAfter curr prev

/-- `is_rtp_timeline_reset`: a second or more back. -/
def isRtpTimelineReset (curr prev : UInt64) : Bool :=
  if !isRtpTimestampBefore curr prev then false
  else 90000 ≤ prev.toUInt32 - curr.toUInt32

theorem isRtpTimelineReset_self (t : UInt64) : isRtpTimelineReset t t = false := by
  simp [isRtpTimelineReset, isRtpTimestampBefore]

/-! ## Frames for viewers -/

/-- `is_idr_frame`. -/
def isIdrFrame (frame : MediaFrame) : Bool :=
  frame.isKeyframe || containsIdrNalu (ensureAnnexB frame.data)

/-- `prepend_h264_config`. -/
def prependH264Config (m : StreamManager) (s : StreamId) (frame : MediaFrame) : List UInt8 :=
  let au := ensureAnnexB frame.data
  if frame.isKeyframe || isIdrFrame frame || containsSpsOrPpsNalu au then
    match (m.getStream s).bind fun stream => stream.sps.bind fun sps => stream.pps.map fun pps =>
      (sps, pps) with
    | some (sps, pps) => annexBWithConfig sps pps au
    | none => au
  else au

example : iterAnnexBNalRanges [0, 0, 0, 1, 0x67, 0x42, 0, 0, 0, 1, 0x68] =
    [[0x67, 0x42], [0x68]] := by
  decide

end VcpMediaServer
