import VcpMediaServer.AnnexB
import VcpMediaServer.H264Ingest

/-!
# H264 into RTP packets

The packetizer of `common.rs` that playback uses. A NAL unit of up to 1200 bytes is a packet of
its own; a longer one is cut into **fragments** (FU-A) of 1198 bytes without its first byte, which
the two bytes in front of each fragment stand for.

* `buildRtpPacket`, `rtpH264PacketInfo_build` — a packet, and what the ingest reads from it.
* `packetizeH264NalForRtp`, `packetizeH264AccessUnitForRtp` — the code, with its running number.
* `nalItems`, `unitItems` — the payloads of a NAL unit and of an access unit before they are
  numbered; `packetizeAccessUnit_eq` says that the packets are these, **numbered on**.
-/

namespace VcpMediaServer

/-! ## Packets -/

/-- `build_rtp_packet`. -/
def buildRtpPacket (payloadType : UInt8) (seq : UInt16) (ts ssrc : UInt32) (marker : Bool)
    (payload : List UInt8) : List UInt8 :=
  [0x80, (if marker then 0x80 else 0) ||| payloadType] ++ toBe 2 seq.toNat ++ toBe 4 ts.toNat ++
    toBe 4 ssrc.toNat ++ payload

theorem beNat_toBe_seq (seq : UInt16) : UInt16.ofNat (beNat (toBe 2 seq.toNat)) = seq := by
  rw [beNat_toBe_of_lt seq.toNat_lt, UInt16.ofNat_toNat]

theorem beNat_toBe_ts (ts : UInt32) : UInt32.ofNat (beNat (toBe 4 ts.toNat)) = ts := by
  rw [beNat_toBe_of_lt ts.toNat_lt, UInt32.ofNat_toNat]

/-- A payload type of seven bits leaves the marker bit alone. -/
theorem marker_of_sevenBits {payloadType : UInt8} (h : payloadType < 0x80) (marker : Bool) :
    (((if marker then 0x80 else 0) ||| payloadType) &&& 0x80 != 0) = marker := by
  have hall : ∀ marker : Bool, ∀ n < 128,
      (((if marker then 0x80 else 0) ||| UInt8.ofNat n) &&& 0x80 != 0) = marker := by decide
  have := hall marker payloadType.toNat h
  rwa [UInt8.ofNat_toNat] at this

section

variable (payloadType : UInt8) (seq : UInt16) (ts ssrc : UInt32) (marker : Bool)
    (payload : List UInt8)

theorem length_buildRtpPacket :
    (buildRtpPacket payloadType seq ts ssrc marker payload).length = 12 + payload.length := by
  simp only [buildRtpPacket, List.length_append, length_toBe, List.length_cons, List.length_nil]

theorem slice_buildRtpPacket_seq :
    slice (buildRtpPacket payloadType seq ts ssrc marker payload) 2 2 = toBe 2 seq.toNat := by
  simp only [buildRtpPacket, List.append_assoc]
  exact List.take_left' (length_toBe 2 _)

theorem slice_buildRtpPacket_ts :
    slice (buildRtpPacket payloadType seq ts ssrc marker payload) 4 4 = toBe 4 ts.toNat := by
  simp only [buildRtpPacket, List.append_assoc]
  exact List.take_left' (length_toBe 4 _)

theorem drop_buildRtpPacket :
    (buildRtpPacket payloadType seq ts ssrc marker payload).drop 12 = payload := by
  rw [buildRtpPacket]
  exact List.drop_left' (by simp only [List.length_append, length_toBe]; rfl)

/-- What the ingest reads from a packet, **whatever the payload type**. -/
theorem rtpH264PacketInfo_build_any :
    rtpH264PacketInfo (buildRtpPacket payloadType seq ts ssrc marker payload) =
      if payload = [] then none
      else some { payload, timestamp := ts, sequenceNumber := seq
                  marker := ((if marker then 0x80 else 0) ||| payloadType) &&& 0x80 != 0 } := by
  have hlen := length_buildRtpPacket payloadType seq ts ssrc marker payload
  have hfirst : (buildRtpPacket payloadType seq ts ssrc marker payload).getD 0 0 = 0x80 := rfl
  have hsecond : (buildRtpPacket payloadType seq ts ssrc marker payload).getD 1 0 =
      ((if marker then 0x80 else 0) ||| payloadType) := rfl
  have hextension : ¬ ((0x80 : UInt8) &&& 0x10 ≠ 0) := by decide
  have hoffset : 12 + ((0x80 : UInt8) &&& 0x0F).toNat * 4 = 12 := rfl
  have hempty : 12 ≥ (buildRtpPacket payloadType seq ts ssrc marker payload).length ↔
      payload = [] := by
    rw [hlen, ← List.length_eq_zero_iff]
    omega
  rw [rtpH264PacketInfo, if_neg (by omega), hfirst, hsecond, slice_buildRtpPacket_seq,
    slice_buildRtpPacket_ts]
  dsimp only
  rw [hoffset, if_neg (by omega), if_neg fun h => hextension h.1, if_neg hextension,
    drop_buildRtpPacket, beNat_toBe_seq, beNat_toBe_ts]
  simp only [hempty]

end

/-- What the ingest reads from a packet: **what was put in**. -/
theorem rtpH264PacketInfo_build {payloadType : UInt8} (h : payloadType < 0x80) (seq : UInt16)
    (ts ssrc : UInt32) (marker : Bool) {payload : List UInt8} (hne : payload ≠ []) :
    rtpH264PacketInfo (buildRtpPacket payloadType seq ts ssrc marker payload) =
      some { payload, timestamp := ts, marker, sequenceNumber := seq } := by
  rw [rtpH264PacketInfo_build_any, if_neg hne, marker_of_sevenBits h]

/-! ## Interleaved frames -/

/-- `wrap_interleaved`. -/
def wrapInterleaved (data : List UInt8) (channel : UInt8) : List UInt8 :=
  [0x24, channel] ++ toBe 2 data.length ++ data

/-- The length that the header of an interleaved frame says. -/
def interleavedLength (frame : List UInt8) : ℕ := beNat (slice frame 2 2)

/-- The length has **16 bits**. -/
theorem interleavedLength_wrap (data : List UInt8) (channel : UInt8) :
    interleavedLength (wrapInterleaved data channel) = data.length % 65536 := by
  have hslice : slice (wrapInterleaved data channel) 2 2 = toBe 2 data.length := by
    simp only [wrapInterleaved, List.append_assoc]
    exact List.take_left' (length_toBe 2 _)
  rw [interleavedLength, hslice, beNat_toBe]
  rfl

/-! ## The packetizer -/

/-- `UDP_RTP_MAX_PAYLOAD`. -/
def UDP_RTP_MAX_PAYLOAD : ℕ := 1200

/-- The loop of `packetize_h264_nal_for_rtp` over the bytes behind the first. Every turn moves the
offset, so the length of the bytes is fuel enough. -/
def fuALoop (payloadType : UInt8) (ts ssrc : UInt32) (marker : Bool) (fuIndicator nalType : UInt8)
    (data : List UInt8) : ℕ → ℕ → UInt16 → List (List UInt8) × UInt16
  | 0, _, seq => ([], seq)
  | fuel + 1, offset, seq =>
    if offset < data.length then
      let chunkSize := min (data.length - offset) (UDP_RTP_MAX_PAYLOAD - 2)
      let isStart := offset = 0
      let isEnd := offset + chunkSize ≥ data.length
      let fuHeader := (if isStart then 0x80 else 0) ||| (if isEnd then 0x40 else 0) ||| nalType
      let payload := [fuIndicator, fuHeader] ++ slice data offset chunkSize
      let packet := buildRtpPacket payloadType seq ts ssrc (marker && isEnd) payload
      let (packets, seq) :=
        fuALoop payloadType ts ssrc marker fuIndicator nalType data fuel (offset + chunkSize)
          (seq + 1)
      (packet :: packets, seq)
    else ([], seq)

/-- `packetize_h264_nal_for_rtp`: the packets, and the number to come. -/
def packetizeH264NalForRtp (nal : List UInt8) (payloadType : UInt8) (seq : UInt16)
    (ts ssrc : UInt32) (marker : Bool) : List (List UInt8) × UInt16 :=
  match nal with
  | [] => ([], seq)
  | b :: data =>
    if (b :: data).length ≤ UDP_RTP_MAX_PAYLOAD then
      ([buildRtpPacket payloadType seq ts ssrc marker (b :: data)], seq + 1)
    else
      fuALoop payloadType ts ssrc marker ((b &&& 0x60) ||| 28) (b &&& 0x1F) data data.length 0 seq

/-- The loop of `packetize_h264_access_unit_for_rtp`: the marker is for the last unit. -/
def packetizeNals (payloadType : UInt8) (ts ssrc : UInt32) :
    List (List UInt8) → UInt16 → List (List UInt8) × UInt16
  | [], seq => ([], seq)
  | nal :: nals, seq =>
    let (packets, seq) := packetizeH264NalForRtp nal payloadType seq ts ssrc nals.isEmpty
    let (packets', seq) := packetizeNals payloadType ts ssrc nals seq
    (packets ++ packets', seq)

/-- `packetize_h264_access_unit_for_rtp`. -/
def packetizeH264AccessUnitForRtp (annexB : List UInt8) (payloadType : UInt8) (seq : UInt16)
    (ts ssrc : UInt32) : List (List UInt8) × UInt16 :=
  packetizeNals payloadType ts ssrc (iterAnnexBNalRanges annexB) seq

/-! ## Payloads -/

/-- What a packet carries, but for its number. -/
structure RtpItem where
  /-- What is behind the header. -/
  payload : List UInt8
  /-- The timestamp. -/
  timestamp : UInt32
  /-- The marker bit. -/
  marker : Bool
  deriving DecidableEq, Repr

/-- The packets of items, numbered from `seq` on. -/
def numbered (payloadType : UInt8) (ssrc : UInt32) : UInt16 → List RtpItem → List (List UInt8)
  | _, [] => []
  | seq, item :: items =>
    buildRtpPacket payloadType seq item.timestamp ssrc item.marker item.payload ::
      numbered payloadType ssrc (seq + 1) items

theorem numbered_append (payloadType : UInt8) (ssrc : UInt32) (seq : UInt16)
    (items items' : List RtpItem) :
    numbered payloadType ssrc seq (items ++ items') =
      numbered payloadType ssrc seq items ++
        numbered payloadType ssrc (seq + UInt16.ofNat items.length) items' := by
  induction items generalizing seq with
  | nil => simp [numbered]
  | cons item items ih =>
    rw [List.cons_append, numbered, ih, numbered, List.length_cons, List.cons_append,
      UInt16.add_assoc]
    congr 4
    rw [UInt16.ofNat_add, UInt16.add_comm]
    rfl

/-- The fragments of the bytes behind the first, given the pieces that they are cut into. -/
def fuItems (ts : UInt32) (marker : Bool) (fuIndicator nalType : UInt8) :
    Bool → List (List UInt8) → List RtpItem
  | _, [] => []
  | isStart, piece :: rest =>
    { payload :=
        [fuIndicator, (if isStart then 0x80 else 0) ||| (if rest = [] then 0x40 else 0) ||| nalType]
          ++ piece
      timestamp := ts
      marker := marker && rest.isEmpty } :: fuItems ts marker fuIndicator nalType false rest

/-- The items of a NAL unit. -/
def nalItems (ts : UInt32) (marker : Bool) : List UInt8 → List RtpItem
  | [] => []
  | b :: data =>
    if (b :: data).length ≤ UDP_RTP_MAX_PAYLOAD then [⟨b :: data, ts, marker⟩]
    else fuItems ts marker ((b &&& 0x60) ||| 28) (b &&& 0x1F) true
      (pieces (UDP_RTP_MAX_PAYLOAD - 2) data)

/-- The items of an access unit. -/
def unitItems (ts : UInt32) : List (List UInt8) → List RtpItem
  | [] => []
  | nal :: nals => nalItems ts nals.isEmpty nal ++ unitItems ts nals

variable {payloadType : UInt8} {ts ssrc : UInt32} {marker : Bool}

/-- The pieces from an offset on: the chunk that the loop takes, and the pieces behind it. -/
theorem pieces_drop {data : List UInt8} {offset : ℕ} (hlt : offset < data.length) :
    let chunkSize := min (data.length - offset) (UDP_RTP_MAX_PAYLOAD - 2)
    pieces (UDP_RTP_MAX_PAYLOAD - 2) (data.drop offset) = slice data offset chunkSize ::
      pieces (UDP_RTP_MAX_PAYLOAD - 2) (data.drop (offset + chunkSize)) := by
  have hne : data.drop offset ≠ [] := by
    rw [Ne, List.drop_eq_nil_iff]
    omega
  have htake : (data.drop offset).take (UDP_RTP_MAX_PAYLOAD - 2) =
      slice data offset (min (data.length - offset) (UDP_RTP_MAX_PAYLOAD - 2)) := by
    rw [slice, List.take_eq_take_iff, List.length_drop]
    omega
  have hdrop : (data.drop offset).drop (UDP_RTP_MAX_PAYLOAD - 2) =
      data.drop (offset + min (data.length - offset) (UDP_RTP_MAX_PAYLOAD - 2)) := by
    rw [List.drop_drop]
    rcases Nat.le_total (UDP_RTP_MAX_PAYLOAD - 2) (data.length - offset) with h | h
    · rw [Nat.min_eq_right h]
    · rw [List.drop_of_length_le (by omega), List.drop_of_length_le (by omega)]
  intro chunkSize
  rw [pieces_of_ne_nil (by decide) hne, htake, hdrop]

theorem fuALoop_eq (fuIndicator nalType : UInt8) (data : List UInt8) {fuel offset : ℕ}
    (seq : UInt16) (hfuel : data.length ≤ offset + fuel) :
    fuALoop payloadType ts ssrc marker fuIndicator nalType data fuel offset seq =
      let items := fuItems ts marker fuIndicator nalType (offset = 0)
        (pieces (UDP_RTP_MAX_PAYLOAD - 2) (data.drop offset))
      (numbered payloadType ssrc seq items, seq + UInt16.ofNat items.length) := by
  induction fuel generalizing offset seq with
  | zero =>
    rw [List.drop_of_length_le (by omega), pieces_nil]
    simp [fuALoop, fuItems, numbered]
  | succ fuel ih =>
    rw [fuALoop]
    by_cases hlt : offset < data.length
    · have hpieces := pieces_drop hlt
      have hpos : 0 < min (data.length - offset) (UDP_RTP_MAX_PAYLOAD - 2) :=
        Nat.lt_min.mpr ⟨Nat.sub_pos_of_lt hlt, by decide⟩
      dsimp only at hpieces
      generalize min (data.length - offset) (UDP_RTP_MAX_PAYLOAD - 2) = chunkSize at hpieces hpos
      -- the last piece is the one that the loop gives the end bit
      have hend : pieces (UDP_RTP_MAX_PAYLOAD - 2) (data.drop (offset + chunkSize)) = [] ↔
          offset + chunkSize ≥ data.length := by
        rw [pieces_eq_nil_iff, List.drop_eq_nil_iff]
      have hlast : (pieces (UDP_RTP_MAX_PAYLOAD - 2) (data.drop (offset + chunkSize))).isEmpty =
          decide (offset + chunkSize ≥ data.length) := by
        rw [Bool.eq_iff_iff, List.isEmpty_iff, hend, decide_eq_true_iff]
      have hstart : ¬ offset + chunkSize = 0 := by omega
      rw [if_pos hlt, hpieces, fuItems]
      dsimp only
      rw [ih (seq + 1) (by omega)]
      simp only [hend, hlast, hstart, decide_false, decide_eq_true_eq, numbered, List.length_cons]
      rw [UInt16.ofNat_add, UInt16.add_assoc, UInt16.add_comm (UInt16.ofNat _)]
      rfl
    · rw [if_neg hlt, List.drop_of_length_le (by omega), pieces_nil]
      simp [fuItems, numbered]

/-- The packets of a NAL unit are its items, **numbered on**. -/
theorem packetizeH264NalForRtp_eq (nal : List UInt8) (seq : UInt16) :
    packetizeH264NalForRtp nal payloadType seq ts ssrc marker =
      (numbered payloadType ssrc seq (nalItems ts marker nal),
        seq + UInt16.ofNat (nalItems ts marker nal).length) := by
  cases nal with
  | nil => simp [packetizeH264NalForRtp, nalItems, numbered]
  | cons b data =>
    rw [packetizeH264NalForRtp, nalItems]
    split
    · rfl
    · rw [fuALoop_eq _ _ data seq (by omega)]
      rfl

/-- The packets of an access unit are its items, **numbered on**. -/
theorem packetizeNals_eq (nals : List (List UInt8)) (seq : UInt16) :
    packetizeNals payloadType ts ssrc nals seq =
      (numbered payloadType ssrc seq (unitItems ts nals),
        seq + UInt16.ofNat (unitItems ts nals).length) := by
  induction nals generalizing seq with
  | nil => simp [packetizeNals, unitItems, numbered]
  | cons nal nals ih =>
    rw [packetizeNals, packetizeH264NalForRtp_eq]
    dsimp only
    rw [ih, unitItems, numbered_append, List.length_append, UInt16.ofNat_add, UInt16.add_assoc]

theorem packetizeAccessUnit_eq {nals : List (List UInt8)} (hne : nals ≠ [])
    (h : ∀ nal ∈ nals, Findable nal) (seq : UInt16) :
    packetizeH264AccessUnitForRtp (annexB nals) payloadType seq ts ssrc =
      (numbered payloadType ssrc seq (unitItems ts nals),
        seq + UInt16.ofNat (unitItems ts nals).length) := by
  rw [packetizeH264AccessUnitForRtp, iterAnnexBNalRanges_annexB hne h, packetizeNals_eq]

end VcpMediaServer
