import VcpMediaServer.Bytes

/-!
# H264 in RTP payloads

`rtp_h264.rs`: the NAL units of one RTP payload, and the depacketizer that puts
the fragments of a FU-A together. The depacketizer keeps one thing between
packets, the **fragments so far**.

* `parseRtpH264` — the NAL units that are whole in a payload.
* `H264RtpDepacketizer.push` — Annex B for a payload, if it completes anything.
-/

namespace VcpMediaServer

/-- `ParsedNalu`. -/
structure ParsedNalu where
  /-- The type, from the first byte. -/
  nalType : UInt8
  /-- The unit with its first byte. -/
  data : List UInt8
  deriving DecidableEq, Repr

/-- `H264DepacketizeError`. -/
inductive H264DepacketizeError where
  | shortPacket
  | stapASizeLargerThanBuffer
  | missingFuStart
  | unsupportedNaluType (t : UInt8)
  deriving DecidableEq, Repr

/-- `STAP_A`. -/
def STAP_A : UInt8 := 24

/-- `FU_A`. -/
def FU_A : UInt8 := 28

/-- The type in the first byte of a payload. -/
def firstNalType (payload : List UInt8) : UInt8 := payload.headD 0 &&& 0x1F

/-- The loop of `parse_stap_a_checked` over what is left of the payload. Each turn
takes the two bytes of a length, so the length of the payload is fuel enough. -/
def stapALoop : ℕ → List UInt8 → Except H264DepacketizeError (List ParsedNalu)
  | 0, _ => .ok []
  | fuel + 1, rest =>
    if rest.length < 2 then .ok []
    else
      let len := beNat (rest.take 2)
      let rest := rest.drop 2
      if len = 0 ∨ len > rest.length then .error .stapASizeLargerThanBuffer
      else
        let nalu := rest.take len
        (stapALoop fuel (rest.drop len)).map fun nalus => ⟨firstNalType nalu, nalu⟩ :: nalus

/-- `parse_stap_a_checked`: a single bad length spoils **all** of the packet. -/
def parseStapAChecked (payload : List UInt8) : Except H264DepacketizeError (List ParsedNalu) :=
  stapALoop payload.length (payload.drop 1)

/-- `parse_stap_a`. -/
def parseStapA (payload : List UInt8) : List ParsedNalu :=
  match parseStapAChecked payload with
  | .ok nalus => nalus
  | .error _ => []

/-- `parse_rtp_h264`: fragments are left to the depacketizer. -/
def parseRtpH264 (payload : List UInt8) : List ParsedNalu :=
  if payload = [] then []
  else
    let t := firstNalType payload
    if 1 ≤ t ∧ t ≤ 23 then [⟨t, payload⟩]
    else if t = STAP_A then parseStapA payload
    else []

/-- `nalus_to_annex_b`. -/
def nalusToAnnexB (nalus : List ParsedNalu) : List UInt8 :=
  nalus.flatMap fun n => [0, 0, 0, 1] ++ n.data

/-- `annex_b_from_rtp_payload`. -/
def annexBFromRtpPayload (payload : List UInt8) : Option (List UInt8) :=
  let nalus := parseRtpH264 payload
  if nalus = [] then none else some (nalusToAnnexB nalus)

/-- `contains_idr`. -/
def containsIdr (nalus : List ParsedNalu) : Bool := nalus.any fun n => n.nalType == 5

/-- `is_idr_rtp_payload`. -/
def isIdrRtpPayload (payload : List UInt8) : Bool :=
  if payload = [] then false
  else
    let t := firstNalType payload
    if t = 5 then true
    else if t = STAP_A then containsIdr (parseStapA payload)
    else if t = FU_A ∧ 2 ≤ payload.length then payload.getD 1 0 &&& 0x1F == 5
    else false

/-- `extract_sps_pps_from_nalus`: the last of each. -/
def extractSpsPpsFromNalus (nalus : List ParsedNalu) : Option (List UInt8) × Option (List UInt8) :=
  (((nalus.filter fun n => n.nalType == 7).getLast?).map ParsedNalu.data,
    ((nalus.filter fun n => n.nalType == 8).getLast?).map ParsedNalu.data)

/-- `is_fu_a_continuation`. -/
def isFuAContinuation (payload : List UInt8) : Bool :=
  if payload.length < 2 ∨ firstNalType payload ≠ FU_A then false
  else payload.getD 1 0 &&& 0x80 == 0

/-- `H264RtpDepacketizer`: the fragments so far, in Annex B. -/
structure H264RtpDepacketizer where
  /-- The fragments of an unfinished FU-A. -/
  fuBuffer : Option (List UInt8)
  deriving DecidableEq, Repr

namespace H264RtpDepacketizer

/-- `H264RtpDepacketizer::default`. -/
def default : H264RtpDepacketizer := ⟨none⟩

/-- `push_fu_a`. -/
def pushFuA (d : H264RtpDepacketizer) (payload : List UInt8) :
    H264RtpDepacketizer × Except H264DepacketizeError (Option (List UInt8)) :=
  if payload.length < 2 then (⟨none⟩, .error .shortPacket)
  else
    let fuIndicator := payload.getD 0 0
    let fuHeader := payload.getD 1 0
    let buffer :=
      if fuHeader &&& 0x80 ≠ 0 then
        some ([0, 0, 0, 1] ++ ((fuIndicator &&& 0xE0) ||| (fuHeader &&& 0x1F)) :: payload.drop 2)
      else d.fuBuffer.map fun buffer => buffer ++ payload.drop 2
    match buffer with
    | none => (d, .error .missingFuStart)
    | some buffer =>
      if fuHeader &&& 0x40 ≠ 0 then (⟨none⟩, .ok (some buffer)) else (⟨some buffer⟩, .ok none)

/-- `H264RtpDepacketizer::push`. -/
def push (d : H264RtpDepacketizer) (payload : List UInt8) :
    H264RtpDepacketizer × Except H264DepacketizeError (Option (List UInt8)) :=
  if payload = [] then (d, .ok none)
  else
    let t := firstNalType payload
    if 1 ≤ t ∧ t ≤ 23 then (d, .ok (some (nalusToAnnexB [⟨t, payload⟩])))
    else if t = STAP_A then (d, (parseStapAChecked payload).map fun nalus =>
      some (nalusToAnnexB nalus))
    else if t = FU_A then d.pushFuA payload
    else (d, .error (.unsupportedNaluType t))

end H264RtpDepacketizer

end VcpMediaServer
