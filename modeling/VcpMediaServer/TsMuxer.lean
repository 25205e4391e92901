import VcpMediaServer.Bytes
import VcpMediaServer.Media

/-!
# The TS muxer

`hls/ts_muxer.rs`: media frames become PES packets, and these become packets of 188 bytes with a
PID and a continuity counter of four bits. A packet that is not full carries an **adaptation field**
in front of its payload; that of the first packet of a video frame carries the clock (PCR).

* `pesToTsPackets` — a PES packet in TS packets.
* `tsPacket` — a table (PAT or PMT) in TS packets.
* `TsMuxer.frameToTs` and its siblings — the calls that the segmenter and the recorder make.
* `tsPayload`, `pcrBase`, `pesPts` — what a demuxer reads.
-/

namespace VcpMediaServer

/-! ## Constants -/

/-- `TS_PACKET_SIZE`. -/
def TS_PACKET_SIZE : ℕ := 188

/-- `SYNC_BYTE`. -/
def SYNC_BYTE : UInt8 := 0x47

/-- `PAT_PID`. -/
def PAT_PID : UInt16 := 0x0000

/-- `PMT_PID`. -/
def PMT_PID : UInt16 := 0x1000

/-- `VIDEO_PID`. -/
def VIDEO_PID : UInt16 := 0x100

/-- `AUDIO_PID`. -/
def AUDIO_PID : UInt16 := 0x101

/-- `AF_DISCONTINUITY`. -/
def AF_DISCONTINUITY : UInt8 := 0x80

/-- `AF_PCR`. -/
def AF_PCR : UInt8 := 0x10

/-- `AAC_SAMPLE_RATE_INDEX`. -/
def AAC_SAMPLE_RATE_INDEX : UInt8 := 4

/-- `AAC_CHANNELS`. -/
def AAC_CHANNELS : UInt8 := 2

/-! ## Checksums -/

/-- One bit of the checksum. -/
def crcBit (crc : UInt32) : UInt32 :=
  if crc &&& 0x80000000 ≠ 0 then (crc <<< 1) ^^^ 0x04C11DB7 else crc <<< 1

/-- `CRC32_TABLE`. -/
def CRC32_TABLE (i : ℕ) : UInt32 := Nat.repeat crcBit 8 (UInt32.ofNat i <<< 24)

/-- `crc32`. -/
def crc32 (data : List UInt8) : UInt32 :=
  data.foldl (fun crc byte => (crc <<< 8) ^^^ CRC32_TABLE
    ((crc >>> 24) ^^^ byte.toUInt32).toUInt8.toNat)
    0xFFFFFFFF

/-! ## Packets -/

/-- The four bytes in front of a packet. -/
def tsHeader (pid : UInt16) (start adaptation : Bool) (cc : UInt8) : List UInt8 :=
  [SYNC_BYTE, ((pid >>> 8).toUInt8 &&& 0x1F) ||| (if start then 0x40 else 0), pid.toUInt8,
    (if adaptation then 0x30 else 0x10) ||| cc]

/-- The counter of the next packet. -/
def nextCc (cc : UInt8) : UInt8 := (cc + 1) &&& 0x0F

/-- An adaptation field of `stuffing` bytes: its length, and if there is room the flags and filling.
-/
def stuffingField (flags : UInt8) (stuffing : ℕ) : List UInt8 :=
  UInt8.ofNat (stuffing - 1) ::
    if stuffing - 1 = 0 then [] else flags :: List.replicate (stuffing - 2) 0xFF

/-- `write_pcr`: the clock is written **as it is** into the 33 bits of the base. -/
def writePcr (pcr : UInt64) : List UInt8 :=
  [(pcr >>> 25).toUInt8, (pcr >>> 17).toUInt8, (pcr >>> 9).toUInt8, (pcr >>> 1).toUInt8,
    ((pcr &&& 1).toUInt8 <<< 7) ||| 0x7E, 0x00]

/-- `write_adaptation_prefix`, as the first packet of a video frame has it. -/
def adaptationPrefix (pcr : UInt64) : List UInt8 := [7, AF_PCR] ++ writePcr pcr

/-- One packet of `pes_to_ts_packets`, and what is left of the PES packet. What is not written of
the 188 bytes stays `0xFF`. -/
def pesPacket (pid : UInt16) (isVideo : Bool) (pcr : UInt64) (first : Bool) (cc : UInt8)
    (pes : List UInt8) : List UInt8 × List UInt8 :=
  if first ∧ isVideo then
    -- the prefix is not made longer, so a packet that is not full is filled up behind its payload
    let room := TS_PACKET_SIZE - 12
    (tsHeader pid first true cc ++ adaptationPrefix pcr ++ pes.take room ++
      List.replicate (room - pes.length) 0xFF, pes.drop room)
  else
    let room := TS_PACKET_SIZE - 4
    if pes.length < room then
      (tsHeader pid first true cc ++ stuffingField 0x00 (room - pes.length) ++ pes, [])
    else (tsHeader pid first false cc ++ pes.take room, pes.drop room)

/-- The loop of `pes_to_ts_packets`. Every turn takes a byte or more, so the length of the PES
packet is fuel enough. -/
def pesLoop (pid : UInt16) (isVideo : Bool) (pcr : UInt64) :
    ℕ → Bool → UInt8 → List UInt8 → List UInt8 × UInt8
  | 0, _, cc, _ => ([], cc)
  | fuel + 1, first, cc, pes =>
    if pes = [] then ([], cc)
    else
      let (packet, rest) := pesPacket pid isVideo pcr first cc pes
      let (output, cc) := pesLoop pid isVideo pcr fuel false (nextCc cc) rest
      (packet ++ output, cc)

/-- `pes_to_ts_packets`: the packets, and the counter of the next. -/
def pesToTsPackets (pes : List UInt8) (pid : UInt16) (isVideo : Bool) (cc : UInt8) (pcr : UInt64) :
    List UInt8 × UInt8 :=
  pesLoop pid isVideo pcr pes.length true cc pes

/-- One packet of `ts_packet`, and what is left of the table. -/
def tablePacket (pid : UInt16) (start discontinuity : Bool) (cc : UInt8) (payload : List UInt8) :
    List UInt8 × List UInt8 :=
  let remaining := TS_PACKET_SIZE - 4
  if payload.length < remaining ∨ discontinuity then
    let stuffing := remaining - payload.length
    let stuffing := if discontinuity ∧ stuffing < 2 then 2 else stuffing
    let flags := if discontinuity then AF_DISCONTINUITY else 0x00
    (tsHeader pid start true cc ++ stuffingField flags stuffing ++
      payload.take (remaining - stuffing), payload.drop (remaining - stuffing))
  else (tsHeader pid start false cc ++ payload.take remaining, payload.drop remaining)

/-- The loop of `ts_packet`; `start` and `discontinuity` are for the first packet. Every turn takes
a byte or more. -/
def tableLoop (pid : UInt16) : ℕ → Bool → Bool → UInt8 → List UInt8 → List UInt8 × UInt8
  | 0, _, _, cc, _ => ([], cc)
  | fuel + 1, start, discontinuity, cc, payload =>
    if payload = [] then ([], cc)
    else
      let (packet, rest) := tablePacket pid start discontinuity cc payload
      let (output, cc) := tableLoop pid fuel false false (nextCc cc) rest
      (packet ++ output, cc)

/-- `ts_packet`: an empty payload is given a packet of its own. -/
def tsPacket (pid : UInt16) (start : Bool) (payload : List UInt8) (cc : UInt8)
    (discontinuity : Bool) :
    List UInt8 × UInt8 :=
  if payload = [] then (tsHeader pid start false cc ++ List.replicate 184 0, nextCc cc)
  else tableLoop pid payload.length start discontinuity cc payload

theorem tsPacket_ne_nil (pid : UInt16) (start : Bool) {payload : List UInt8} (h : payload ≠ [])
    (cc : UInt8) (discontinuity : Bool) : (tsPacket pid start payload cc discontinuity).1 ≠ [] := by
  obtain ⟨fuel, hfuel⟩ := Nat.exists_eq_succ_of_ne_zero (Nat.ne_of_gt (List.length_pos_of_ne_nil h))
  rw [tsPacket, if_neg h, hfuel, tableLoop, if_neg h, tablePacket]
  dsimp only
  split <;> exact List.cons_ne_nil _ _

/-! ## Frames -/

/-- `starts_with_aud`. -/
def startsWithAud (data : List UInt8) : Bool :=
  [0x00, 0x00, 0x00, 0x01, 0x09].isPrefixOf data || [0x00, 0x00, 0x01, 0x09].isPrefixOf data

/-- `prepare_h264_au_for_ts`. -/
def prepareH264AuForTs (data : List UInt8) : List UInt8 :=
  if data = [] then []
  else if startsWithAud data then data
  else [0x00, 0x00, 0x00, 0x01, 0x09, 0xF0] ++ data

/-- `wrap_aac_adts`. -/
def wrapAacAdts (aac : List UInt8) : List UInt8 :=
  if aac = [] then []
  else if 2 ≤ aac.length ∧ aac.getD 0 0 = 0xFF ∧ aac.getD 1 0 &&& 0xF0 = 0xF0 then aac
  else
    let frameLen := aac.length + 7
    let adts : List UInt8 :=
      [0xFF, 0xF1, ((AAC_SAMPLE_RATE_INDEX &&& 0x0F) <<< 2) ||| ((AAC_CHANNELS >>> 2) &&& 0x01),
        ((AAC_CHANNELS &&& 0x03) <<< 6) ||| UInt8.ofNat (frameLen / 2 ^ 11),
        UInt8.ofNat (frameLen / 2 ^ 3), (UInt8.ofNat (frameLen % 8) <<< 5) ||| 0x1F, 0xFC]
    adts ++ aac

/-- `timestamp_ms.saturating_mul(90)`. -/
def ptsValue (timestamp : UInt64) : ℕ := min (timestamp.toNat * 90) (2 ^ 64 - 1)

/-- `write_pes_timestamp`. -/
def writePesTimestamp (marker : UInt8) (timestamp : UInt64) : List UInt8 :=
  let pts := ptsValue timestamp
  [marker ||| 0x01 ||| (UInt8.ofNat (pts / 2 ^ 30) &&& 0x0E), UInt8.ofNat (pts / 2 ^ 22),
    0x01 ||| (UInt8.ofNat (pts / 2 ^ 14) &&& 0xFE), UInt8.ofNat (pts / 2 ^ 7),
    0x01 ||| (UInt8.ofNat (pts * 2) &&& 0xFE)]

/-- The length that `build_pes` declares: none if it does not fit into 16 bits. -/
def pesLength (data : List UInt8) : List UInt8 :=
  let bodyLen := 3 + 5 + data.length
  if bodyLen ≤ 0xFFFF then toBe 2 bodyLen else [0x00, 0x00]

/-- `build_pes`. -/
def buildPes (timestamp : UInt64) (data : List UInt8) (isVideo : Bool) : List UInt8 :=
  [0x00, 0x00, 0x01, if isVideo then 0xE0 else 0xC0] ++ pesLength data ++
    [0x80 ||| (if isVideo then 0x04 else 0), 0x80, 5] ++ writePesTimestamp 0x20 timestamp ++ data

/-! ## The muxer -/

/-- `TsMuxer`. -/
structure TsMuxer where
  /-- The counter of the next video packet. -/
  ccVideo : UInt8
  /-- The counter of the next audio packet. -/
  ccAudio : UInt8
  /-- The counter of the next PAT packet. -/
  ccPat : UInt8
  /-- The counter of the next PMT packet. -/
  ccPmt : UInt8
  /-- The clock, in units of 27 MHz. -/
  pcrClock : UInt64
  /-- The next PAT says that the timeline breaks. -/
  segmentDiscontinuity : Bool
  deriving DecidableEq, Repr

namespace TsMuxer

/-- `TsMuxer::new`. -/
def new : TsMuxer :=
  { ccVideo := 0, ccAudio := 0, ccPat := 0, ccPmt := 0, pcrClock := 0,
    segmentDiscontinuity := false }

/-- `TsMuxer::mark_segment_discontinuity`. -/
def markSegmentDiscontinuity (mux : TsMuxer) : TsMuxer := { mux with segmentDiscontinuity := true }

/-- `TsMuxer::reset_for_new_segment`: nothing is reset. -/
def resetForNewSegment (mux : TsMuxer) : TsMuxer := mux

/-- `TsMuxer::update_pcr`; the product wraps. -/
def updatePcr (mux : TsMuxer) (timestamp : UInt64) : TsMuxer :=
  { mux with pcrClock := timestamp * 27000 }

@[simp] theorem updatePcr_ccVideo (mux : TsMuxer) (timestamp : UInt64) :
    (mux.updatePcr timestamp).ccVideo = mux.ccVideo := by rw [updatePcr]

@[simp] theorem updatePcr_ccAudio (mux : TsMuxer) (timestamp : UInt64) :
    (mux.updatePcr timestamp).ccAudio = mux.ccAudio := by rw [updatePcr]

@[simp] theorem updatePcr_ccPat (mux : TsMuxer) (timestamp : UInt64) :
    (mux.updatePcr timestamp).ccPat = mux.ccPat := by rw [updatePcr]

@[simp] theorem updatePcr_segmentDiscontinuity (mux : TsMuxer) (timestamp : UInt64) :
    (mux.updatePcr timestamp).segmentDiscontinuity = mux.segmentDiscontinuity := by rw [updatePcr]

@[simp] theorem updatePcr_pcrClock (mux : TsMuxer) (timestamp : UInt64) :
    (mux.updatePcr timestamp).pcrClock = timestamp * 27000 := by rw [updatePcr]

/-- A section with its pointer field in front and its checksum behind. -/
def psiSection (body : List UInt8) : List UInt8 := [0x00] ++ body ++ toBe 4 (crc32 body).toNat

/-- The payload of `generate_pat`. -/
def patPayload : List UInt8 :=
  psiSection [0x00, 0xB0 ||| 0, 13, 0x00, 0x01, 0xC1, 0x00, 0x00, 0x00, 0x01,
    (PMT_PID >>> 8).toUInt8 &&& 0x1F, PMT_PID.toUInt8]

/-- A PID in two bytes. -/
def pidBytes (pid : UInt16) : List UInt8 := [(pid >>> 8).toUInt8 &&& 0x1F, pid.toUInt8]

/-- An entry of the PMT. -/
def pmtEntry (streamType : UInt8) (pid : UInt16) : List UInt8 :=
  [streamType] ++ pidBytes pid ++ [0xF0, 0x00]

/-- The payload of `generate_pmt`. -/
def pmtPayload (hasVideo hasAudio : Bool) : List UInt8 :=
  let infoLen := (if hasVideo then 5 else 0) + (if hasAudio then 5 else 0)
  psiSection ([0x02, 0xB0 ||| 0, UInt8.ofNat (5 + 4 + infoLen + 4), 0x00, 0x01, 0xC1, 0x00, 0x00] ++
    (if hasVideo then pidBytes VIDEO_PID
      else if hasAudio then pidBytes AUDIO_PID else [0x1F, 0xFF]) ++
    [0xF0, 0x00] ++ (if hasVideo then pmtEntry 0x1B VIDEO_PID else []) ++
    (if hasAudio then pmtEntry 0x0F AUDIO_PID else []))

/-- `TsMuxer::generate_pat`. -/
def generatePat (mux : TsMuxer) : TsMuxer × List UInt8 :=
  let (packet, cc) := tsPacket PAT_PID true patPayload mux.ccPat mux.segmentDiscontinuity
  ({ mux with ccPat := cc, segmentDiscontinuity := false }, packet)

/-- `TsMuxer::generate_pmt`. -/
def generatePmt (mux : TsMuxer) (hasVideo hasAudio : Bool) : TsMuxer × List UInt8 :=
  let (packet, cc) := tsPacket PMT_PID true (pmtPayload hasVideo hasAudio) mux.ccPmt false
  ({ mux with ccPmt := cc }, packet)

/-- `TsMuxer::generate_pat_pmt`. -/
def generatePatPmt (mux : TsMuxer) (hasVideo hasAudio : Bool) : TsMuxer × List UInt8 :=
  let (mux, pat) := mux.generatePat
  let (mux, pmt) := mux.generatePmt hasVideo hasAudio
  (mux, pat ++ pmt)

theorem patPayload_ne_nil : patPayload ≠ [] := by simp [patPayload, psiSection]

theorem pmtPayload_ne_nil (hasVideo hasAudio : Bool) : pmtPayload hasVideo hasAudio ≠ [] := by
  simp [pmtPayload, psiSection]

theorem generatePat_eq (mux : TsMuxer) :
    let packets := tsPacket PAT_PID true patPayload mux.ccPat mux.segmentDiscontinuity
    mux.generatePat = ({ mux with ccPat := packets.2, segmentDiscontinuity := false },
        packets.1) := by
  rw [generatePat]

theorem generatePmt_eq (mux : TsMuxer) (hasVideo hasAudio : Bool) :
    let packets := tsPacket PMT_PID true (pmtPayload hasVideo hasAudio) mux.ccPmt false
    mux.generatePmt hasVideo hasAudio = ({ mux with ccPmt := packets.2 }, packets.1) := by
  rw [generatePmt]

theorem generatePatPmt_eq (mux : TsMuxer) (hasVideo hasAudio : Bool) :
    mux.generatePatPmt hasVideo hasAudio = ((mux.generatePat.1.generatePmt hasVideo hasAudio).1,
      mux.generatePat.2 ++ (mux.generatePat.1.generatePmt hasVideo hasAudio).2) := by
  rw [generatePatPmt]

/-- The PID of a frame. -/
def framePid : CodecType → UInt16
  | .h264 => VIDEO_PID
  | .h265 => VIDEO_PID
  | .aac => AUDIO_PID
  | .opus => AUDIO_PID
  | .g711 => AUDIO_PID
  | .unknown => VIDEO_PID

/-- What `frame_to_ts` puts into the PES packet of a frame. -/
def framePayload (frame : MediaFrame) : List UInt8 :=
  if frame.codec = .aac then wrapAacAdts frame.data
  else if frame.codec.isVideo then prepareH264AuForTs frame.data
  else frame.data

/-- `TsMuxer::frame_to_ts`: the PID goes by one match on the codec and the counter by **another**.
-/
def frameToTs (mux : TsMuxer) (frame : MediaFrame) : TsMuxer × List UInt8 :=
  let payload := framePayload frame
  if payload = [] then (mux, [])
  else
    let isVideo := frame.codec.isVideo
    let pes := buildPes frame.timestamp payload isVideo
    let cc := if isVideo then mux.ccVideo else mux.ccAudio
    let (packets, cc) := pesToTsPackets pes (framePid frame.codec) isVideo cc mux.pcrClock
    (if isVideo then { mux with ccVideo := cc } else { mux with ccAudio := cc }, packets)

/-- The PES packet of a frame. -/
def framePes (frame : MediaFrame) : List UInt8 :=
  buildPes frame.timestamp (framePayload frame) frame.codec.isVideo

/-- The counter that a frame goes by. -/
def frameCc (mux : TsMuxer) (frame : MediaFrame) : UInt8 :=
  if frame.codec.isVideo then mux.ccVideo else mux.ccAudio

theorem frameToTs_of_eq_nil {frame : MediaFrame} (h : framePayload frame = []) (mux : TsMuxer) :
    mux.frameToTs frame = (mux, []) := by
  rw [frameToTs, if_pos h]

/-- The packets of a frame, and the counters behind them. -/
theorem frameToTs_of_ne_nil {frame : MediaFrame} (h : framePayload frame ≠ []) (mux : TsMuxer) :
    let packets := pesToTsPackets (framePes frame) (framePid frame.codec) frame.codec.isVideo
      (mux.frameCc frame) mux.pcrClock
    mux.frameToTs frame = (if frame.codec.isVideo then { mux with ccVideo := packets.2 }
      else { mux with ccAudio := packets.2 }, packets.1) := by
  rw [frameToTs, if_neg h]
  rfl

theorem framePes_ne_nil (frame : MediaFrame) : framePes frame ≠ [] := by
  rw [framePes, buildPes]
  exact List.cons_ne_nil _ _

theorem framePid_lt (codec : CodecType) : framePid codec < 0x2000 := by cases codec <;> decide

theorem framePayload_eq_nil_iff {frame : MediaFrame} (hvideo : frame.codec.isVideo) :
    framePayload frame = [] ↔ frame.data = [] := by
  have haac : frame.codec ≠ .aac := by
    intro h
    rw [h] at hvideo
    cases hvideo
  rw [framePayload, if_neg haac, if_pos hvideo, prepareH264AuForTs]
  split
  · next h => simp [h]
  · next h => split <;> simp [h]

end TsMuxer

/-! ## What a demuxer reads -/

/-- The PID of a packet. -/
def tsPid (packet : List UInt8) : ℕ :=
  (packet.getD 1 0 &&& 0x1F).toNat * 256 + (packet.getD 2 0).toNat

/-- `payload_unit_start_indicator`. -/
def payloadUnitStart (packet : List UInt8) : Bool := packet.getD 1 0 &&& 0x40 != 0

/-- `continuity_counter`. -/
def tsCc (packet : List UInt8) : UInt8 := packet.getD 3 0 &&& 0x0F

/-- The `adaptation_field_control` says that there is an adaptation field. -/
def hasAdaptationField (packet : List UInt8) : Bool := packet.getD 3 0 &&& 0x20 != 0

/-- The payload of a packet: behind its adaptation field, if there is one. -/
def tsPayload (packet : List UInt8) : List UInt8 :=
  if packet.getD 3 0 &&& 0x10 = 0 then []
  else if hasAdaptationField packet then packet.drop (5 + (packet.getD 4 0).toNat)
  else packet.drop 4

/-- The base of the PCR, if the packet has one: 33 bits. -/
def pcrBase (packet : List UInt8) : Option ℕ :=
  if hasAdaptationField packet ∧ 7 ≤ packet.getD 4 0 ∧ packet.getD 5 0 &&& 0x10 ≠ 0 then
    some (beNat (slice packet 6 4) * 2 + (packet.getD 10 0).toNat / 128)
  else none

/-- The PTS of a PES packet, if it has one: 33 bits, in three parts. -/
def pesPts (pes : List UInt8) : Option ℕ :=
  if pes.take 3 = [0x00, 0x00, 0x01] ∧ pes.getD 7 0 &&& 0x80 ≠ 0 then
    some ((pes.getD 9 0).toNat / 2 % 8 * 2 ^ 30 + beNat (slice pes 10 2) / 2 * 2 ^ 15 +
      beNat (slice pes 12 2) / 2)
  else none

end VcpMediaServer
