import VcpMediaServer.Accesses
import VcpMediaServer.RtpPacketize

/-!
# RTP headers

A packet by RFC 3550, with all that may stand in it: contributing sources, an extension, and
**padding** behind the payload. The ingest goes by the header for what is in front of the payload,
and for what is behind it by nothing.

* `FullRtpPacket` — a packet, and its bytes.
* `rtpH264MediaPayload_toBytes` — what the ingest takes for the payload.
* `Checked.rtpH264PacketInfo_eq` — nothing is read out of bounds.
* `mediaPayload_iff` — the payload is read exactly if there is no padding.
-/

namespace VcpMediaServer

/-! ## Packets -/

/-- Words, byte by byte. -/
def wordBytes (words : List UInt32) : List UInt8 := words.flatMap fun word => toBe 4 word.toNat

theorem length_wordBytes (words : List UInt32) : (wordBytes words).length = words.length * 4 := by
  induction words with
  | nil => rfl
  | cons word words ih =>
    have hcons : wordBytes (word :: words) = toBe 4 word.toNat ++ wordBytes words := rfl
    rw [hcons, List.length_append, length_toBe, ih, List.length_cons]
    omega

/-- The extension of a header. -/
structure RtpExtension where
  /-- What kind of extension it is. -/
  profile : UInt16
  /-- The words. -/
  words : List UInt32
  /-- Their number has 16 bits. -/
  words_lt : words.length < 2 ^ 16

/-- The bytes of an extension. -/
def RtpExtension.toBytes (extension : RtpExtension) : List UInt8 :=
  toBe 2 extension.profile.toNat ++ (toBe 2 extension.words.length ++ wordBytes extension.words)

/-- A packet with a payload. -/
structure FullRtpPacket where
  /-- The marker bit. -/
  marker : Bool
  /-- The payload type. -/
  payloadType : UInt8
  /-- The sequence number. -/
  sequenceNumber : UInt16
  /-- The timestamp. -/
  timestamp : UInt32
  /-- The source. -/
  ssrc : UInt32
  /-- The contributing sources. -/
  csrcs : List UInt32
  /-- The extension. -/
  extension : Option RtpExtension
  /-- The payload. -/
  payload : List UInt8
  /-- The padding, without its last byte, which counts it. -/
  padding : Option (List UInt8)
  /-- The payload type has seven bits. -/
  payloadType_lt : payloadType < 0x80
  /-- The number of sources has four bits. -/
  csrcs_lt : csrcs.length < 16
  /-- There is a payload. -/
  payload_ne_nil : payload ≠ []
  /-- The last byte can count the padding. -/
  padding_lt : ∀ fill ∈ padding, fill.length < 255

namespace FullRtpPacket

/-- A packet may have no sources. -/
theorem nil_lt : ([] : List UInt32).length < 16 := by decide

variable (p : FullRtpPacket)

/-- The first byte of a header of version 2. -/
def firstByte : UInt8 :=
  0x80 ||| (if p.padding.isSome then 0x20 else 0) ||| (if p.extension.isSome then 0x10 else 0) |||
    UInt8.ofNat p.csrcs.length

/-- The padding, with its last byte. -/
def paddingBytes : List UInt8 :=
  match p.padding with
  | none => []
  | some fill => fill ++ [UInt8.ofNat (fill.length + 1)]

/-- What every header has. -/
def fixedHeader : List UInt8 :=
  [p.firstByte, (if p.marker then 0x80 else 0) ||| p.payloadType] ++
    toBe 2 p.sequenceNumber.toNat ++
    toBe 4 p.timestamp.toNat ++ toBe 4 p.ssrc.toNat

/-- The extension, if there is one. -/
def extensionBytes : List UInt8 :=
  match p.extension with
  | none => []
  | some extension => extension.toBytes

/-- The packet, byte by byte. -/
def toBytes : List UInt8 :=
  p.fixedHeader ++ (wordBytes p.csrcs ++ (p.extensionBytes ++ (p.payload ++ p.paddingBytes)))

theorem length_fixedHeader : p.fixedHeader.length = 12 := by
  simp [fixedHeader, length_toBe]

theorem paddingBytes_eq_nil_iff : p.paddingBytes = [] ↔ p.padding = none := by
  rw [paddingBytes]
  cases p.padding with
  | none => simp
  | some fill => simp

/-- What the first byte says: there is an extension, and there are so many sources. -/
theorem firstByte_bits :
    (p.firstByte &&& 0x10 ≠ 0 ↔ p.extension.isSome) ∧ (p.firstByte &&& 0x0F).toNat =
        p.csrcs.length := by
  have hbits : ∀ padding extension : Bool, ∀ n < 16,
      let b : UInt8 :=
        0x80 ||| (if padding then 0x20 else 0) ||| (if extension then 0x10 else 0) |||
        UInt8.ofNat n
      (b &&& 0x10 ≠ 0 ↔ extension = true) ∧ (b &&& 0x0F).toNat = n := by decide +kernel
  exact hbits p.padding.isSome p.extension.isSome _ p.csrcs_lt

/-- Behind the sources. -/
theorem drop_csrcs :
    p.toBytes.drop (12 + p.csrcs.length * 4) =
        p.extensionBytes ++ (p.payload ++ p.paddingBytes) := by
  rw [← length_wordBytes, ← p.length_fixedHeader, toBytes]
  exact drop_of_drop (List.drop_left' rfl)

/-- The offset of the payload, as the ingest computes it. -/
theorem drop_payload :
    p.toBytes.drop (12 + p.csrcs.length * 4 + if p.extension.isSome then
      beNat (slice p.toBytes (12 + p.csrcs.length * 4 + 2) 2) * 4 + 4 else 0) =
          p.payload ++ p.paddingBytes := by
  have hdrop := p.drop_csrcs
  rw [extensionBytes] at hdrop
  cases hextension : p.extension with
  | none =>
    rw [hextension] at hdrop
    exact hdrop
  | some extension =>
    rw [hextension] at hdrop
    dsimp only at hdrop
    rw [RtpExtension.toBytes, List.append_assoc, List.append_assoc] at hdrop
    have hlength := drop_of_drop hdrop
    rw [length_toBe] at hlength
    have hslice := slice_eq_of_drop hlength
    rw [length_toBe] at hslice
    have hwords := drop_of_drop hlength
    rw [length_toBe] at hwords
    have hpayload := drop_of_drop hwords
    rw [length_wordBytes] at hpayload
    rw [hslice, beNat_toBe_of_lt extension.words_lt, Option.isSome_some, if_pos rfl, ← hpayload]
    congr 1
    omega

theorem length_toBytes :
    p.toBytes.length = 12 + p.csrcs.length * 4 +
        (p.extensionBytes ++ (p.payload ++ p.paddingBytes)).length := by
  rw [toBytes, List.length_append, List.length_append, length_fixedHeader, length_wordBytes,
    Nat.add_assoc]

theorem slice_toBytes_timestamp : slice p.toBytes 4 4 = toBe 4 p.timestamp.toNat := by
  simp only [toBytes, fixedHeader, List.append_assoc]
  exact List.take_left' (length_toBe 4 _)

/-- An extension has a head of four bytes. -/
theorem length_extensionBytes (h : p.extension.isSome) : 4 ≤ p.extensionBytes.length := by
  obtain ⟨extension, hextension⟩ := Option.isSome_iff_exists.mp h
  rw [extensionBytes, hextension]
  simp only [RtpExtension.toBytes, List.length_append, length_toBe]
  omega

end FullRtpPacket

/-- The ingest takes **the padding** for a part of the payload. -/
theorem rtpH264MediaPayload_toBytes (p : FullRtpPacket) :
    rtpH264MediaPayload p.toBytes = some (p.payload ++ p.paddingBytes, p.timestamp, p.marker) := by
  obtain ⟨hextension, hcount⟩ := p.firstByte_bits
  have hfirst : p.toBytes.getD 0 0 = p.firstByte := rfl
  have hsecond : p.toBytes.getD 1 0 = ((if p.marker then 0x80 else 0) ||| p.payloadType) := rfl
  have hlen := p.length_toBytes
  have hpayload : 0 < (p.payload ++ p.paddingBytes).length := by
    rw [List.length_append]
    exact Nat.add_pos_left (List.length_pos_of_ne_nil p.payload_ne_nil) _
  rw [List.length_append] at hlen
  have hdrop := p.drop_payload
  -- there is a payload, so it begins in front of the end
  have hoffset : ∀ offset, p.toBytes.drop offset = p.payload ++ p.paddingBytes →
      ¬ offset ≥ p.toBytes.length := by
    intro offset heq hge
    rw [List.drop_of_length_le hge] at heq
    rw [← heq] at hpayload
    exact Nat.lt_irrefl 0 hpayload
  have hroom : ¬ (p.firstByte &&& 0x10 ≠ 0 ∧ 12 + p.csrcs.length * 4 + 4 > p.toBytes.length) := by
    rintro ⟨hbit, hshort⟩
    have := p.length_extensionBytes (hextension.mp hbit)
    omega
  rw [rtpH264MediaPayload, rtpH264PacketInfo, if_neg (by omega), hfirst, hsecond,
    p.slice_toBytes_timestamp]
  dsimp only
  rw [hcount, if_neg (by omega), if_neg hroom]
  simp only [hextension]
  have hsame : (if p.extension.isSome then
      12 + p.csrcs.length * 4 + (beNat (slice p.toBytes (12 + p.csrcs.length * 4 + 2) 2) * 4 + 4)
      else 12 + p.csrcs.length * 4) = 12 + p.csrcs.length * 4 + if p.extension.isSome then
      beNat (slice p.toBytes (12 + p.csrcs.length * 4 + 2) 2) * 4 + 4 else 0 := by
    split <;> rfl
  rw [hsame, if_neg (hoffset _ hdrop), hdrop, marker_of_sevenBits p.payloadType_lt, beNat_toBe_ts]
  rfl

/-! ## Any bytes -/

/-- The sources and the extension that the header declares are there. -/
def DeclaredFits (rtp : List UInt8) : Prop :=
  let first := rtp.getD 0 0
  let offset := 12 + (first &&& 0x0F).toNat * 4
  offset ≤ rtp.length ∧ (first &&& 0x10 ≠ 0 →
    offset + 4 ≤ rtp.length ∧ offset + 4 + beNat (slice rtp (offset + 2) 2) * 4 ≤ rtp.length)

/-- Where they are not, **nothing** is taken for the payload. -/
theorem rtpH264MediaPayload_eq_none {rtp : List UInt8} (h : ¬ DeclaredFits rtp) :
    rtpH264MediaPayload rtp = none := by
  rw [rtpH264MediaPayload, rtpH264PacketInfo]
  dsimp only
  split
  · rfl
  · split
    · rfl
    · next hsources =>
      split
      · rfl
      · next hhead =>
        have hbit : rtp.getD 0 0 &&& 0x10 ≠ 0 := by
          intro hnot
          exact h ⟨Nat.le_of_not_gt hsources, fun hbit => absurd hnot hbit⟩
        have hroom : 12 + (rtp.getD 0 0 &&& 0x0F).toNat * 4 + 4 ≤ rtp.length :=
          Nat.le_of_not_gt fun hshort => hhead ⟨hbit, hshort⟩
        have hend : 12 + (rtp.getD 0 0 &&& 0x0F).toNat * 4 +
            (beNat (slice rtp (12 + (rtp.getD 0 0 &&& 0x0F).toNat * 4 + 2) 2) * 4 + 4) ≥
                rtp.length := by
          by_contra hlt
          refine h ⟨Nat.le_of_not_gt hsources, fun _ => ⟨hroom, ?_⟩⟩
          omega
        rw [if_pos hbit, if_pos hend]
        rfl

namespace Checked

/-- The end of the extension, whose length is indexed byte by byte. -/
def extensionEnd (rtp : List UInt8) (first : UInt8) (offset : ℕ) : Option ℕ :=
  if first &&& 0x10 ≠ 0 then (be16 rtp (offset + 2)).map fun words => offset + (words * 4 + 4)
  else some offset

/-- `rtp_h264_packet_info`, with its accesses: `none` is a **panic**. -/
def rtpH264PacketInfo (rtp : List UInt8) : Option (Option RtpH264PacketInfo) :=
  if rtp.length < 12 then return none
  else do
    let second ← index rtp 1
    let sequence ← range rtp 2 (2 + 2)
    let timestamp ← range rtp 4 (4 + 4)
    let first ← index rtp 0
    let offset := 12 + (first &&& 0x0F).toNat * 4
    if offset > rtp.length then return none
    else if first &&& 0x10 ≠ 0 ∧ offset + 4 > rtp.length then return none
    else do
      let offset ← extensionEnd rtp first offset
      if offset ≥ rtp.length then return none
      else do
        let payload ← rangeFrom rtp offset
        return some
          { payload
            timestamp := UInt32.ofNat (beNat timestamp)
            marker := second &&& 0x80 != 0
            sequenceNumber := UInt16.ofNat (beNat sequence) }

/-- The extension that is read is there. -/
theorem extensionEnd_eq {rtp : List UInt8} {first : UInt8} {offset : ℕ}
    (h : ¬ (first &&& 0x10 ≠ 0 ∧ offset + 4 > rtp.length)) :
    extensionEnd rtp first offset = some
      (if first &&& 0x10 ≠ 0 then offset + (beNat (slice rtp (offset + 2) 2) * 4 + 4)
          else offset) := by
  rw [extensionEnd]
  split
  · next hbit =>
    have hroom : offset + 4 ≤ rtp.length := Nat.le_of_not_gt fun hshort => h ⟨hbit, hshort⟩
    rw [be16_of_le (by omega), Option.map_some]
  · rfl

/-- **Nothing** is read out of bounds, whatever the bytes say. -/
theorem rtpH264PacketInfo_eq (rtp : List UInt8) :
    rtpH264PacketInfo rtp = some (VcpMediaServer.rtpH264PacketInfo rtp) := by
  rw [rtpH264PacketInfo, VcpMediaServer.rtpH264PacketInfo]
  by_cases hshort : rtp.length < 12
  · rw [if_pos hshort, if_pos hshort]
    rfl
  · rw [if_neg hshort, if_neg hshort, index_of_lt (by omega), range_of_le (by omega),
      range_of_le (by omega), index_of_lt (by omega)]
    simp only [Option.bind_eq_bind, Option.bind_some]
    split
    · rfl
    · split
      · rfl
      · next hhead =>
        rw [extensionEnd_eq hhead, Option.bind_some]
        generalize (if rtp.getD 0 0 &&& 0x10 ≠ 0 then _ else _) = offset
        split
        · rfl
        · next hend =>
          rw [rangeFrom_of_le (by omega)]
          rfl

end Checked

/-! ## The payload of a packet -/

/-- Of a packet the ingest reads the payload, the timestamp and the marker **exactly if there is no
padding**. Of any bytes it reads nothing that is not there, and takes no payload behind what is not.
-/
theorem mediaPayload_iff (p : FullRtpPacket) (rtp : List UInt8) :
    (rtpH264MediaPayload p.toBytes = some (p.payload, p.timestamp, p.marker) ↔ p.padding = none) ∧
      Checked.rtpH264PacketInfo rtp = some (rtpH264PacketInfo rtp) ∧
      (DeclaredFits rtp ∨ rtpH264MediaPayload rtp = none) := by
  refine ⟨?_, Checked.rtpH264PacketInfo_eq rtp, ?_⟩
  · rw [rtpH264MediaPayload_toBytes, Option.some_inj, Prod.mk.injEq, List.append_right_eq_self,
      p.paddingBytes_eq_nil_iff]
    exact ⟨And.left, fun h => ⟨h, rfl⟩⟩
  · by_cases h : DeclaredFits rtp
    · exact .inl h
    · exact .inr (rtpH264MediaPayload_eq_none h)

/-- A packet that is filled up to a whole word. -/
def paddedPacket : FullRtpPacket where
  marker := true
  payloadType := 96
  sequenceNumber := 7
  timestamp := 90000
  ssrc := 1
  csrcs := []
  extension := none
  payload := [0x65, 0x88]
  padding := some [0]
  payloadType_lt := by decide
  csrcs_lt := FullRtpPacket.nil_lt
  payload_ne_nil := by decide
  padding_lt := by decide

theorem mediaPayload_padded : ¬ ∀ p : FullRtpPacket,
    rtpH264MediaPayload p.toBytes = some (p.payload, p.timestamp, p.marker) := by
  intro h
  have hread : rtpH264MediaPayload paddedPacket.toBytes =
    some ([0x65, 0x88, 0, 2], 90000, true) := by decide
  exact absurd (hread.symm.trans (h paddedPacket)) (by decide)

end VcpMediaServer
