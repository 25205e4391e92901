import VcpMediaServer.InterleavedRtcp
import VcpMediaServer.RtpHeader

/-!
# Packets with several access units

A payload of RFC 3640 carries access units behind the headers of **all** of them. The ingest reads
the first header, and publishes the first unit.

* `HbrPayload` — a payload in the mode AAC-hbr, and its bytes.
* `stripMpeg4GenericAac_toBytes` — what is taken from it.
* `published_iff` — all units are published exactly if there is one.
-/

namespace VcpMediaServer

open Lts

/-! ## Bits -/

/-- The bits of a number, behind others. -/
theorem foldl_bits (bits : List Bool) (v : ℕ) :
    bits.foldl (fun v b => 2 * v + b.toNat) v =
      v * 2 ^ bits.length + bits.foldl (fun v b => 2 * v + b.toNat) 0 := by
  induction bits generalizing v with
  | nil => simp
  | cons b bits ih =>
    rw [List.foldl_cons, List.foldl_cons, ih, ih (2 * 0 + b.toNat), List.length_cons, pow_succ,
      Nat.mul_zero, Nat.zero_add, Nat.add_mul, Nat.mul_comm 2 v, Nat.mul_assoc v, Nat.mul_comm 2,
      Nat.add_assoc]

theorem foldl_byteBits (b : UInt8) : (byteBits b).foldl (fun v b => 2 * v + b.toNat) 0 = b.toNat ∧
    ((byteBits b).take 5).foldl (fun v b => 2 * v + b.toNat) 0 = b.toNat / 8 := by
  have hall : ∀ b : UInt8, (byteBits b).foldl (fun v b => 2 * v + b.toNat) 0 = b.toNat ∧
      ((byteBits b).take 5).foldl (fun v b => 2 * v + b.toNat) 0 = b.toNat / 8 :=
    forall_byte (by decide +kernel)
  exact hall b

theorem length_byteBits (b : UInt8) : (byteBits b).length = 8 := by
  rw [byteBits, List.length_map, List.length_range]

/-- The size is in the first 13 bits. -/
theorem readAacHbrAuSize_cons_cons (b c : UInt8) (rest : List UInt8) :
    readAacHbrAuSize (b :: c :: rest) = some ((b.toNat * 256 + c.toNat) / 8) := by
  have hbits : (b :: c :: rest).flatMap byteBits =
    byteBits b ++ (byteBits c ++ rest.flatMap byteBits) := rfl
  have hlen : 16 ≤ (byteBits b ++ (byteBits c ++ rest.flatMap byteBits)).length := by
    rw [List.length_append, List.length_append, length_byteBits, length_byteBits]
    omega
  have htake : (byteBits b ++ (byteBits c ++ rest.flatMap byteBits)).take 13 =
      byteBits b ++ (byteBits c).take 5 := by
    rw [List.take_append, length_byteBits, List.take_of_length_le (by rw [length_byteBits]; omega),
      List.take_append_of_le_length (by rw [length_byteBits]; omega)]
  have hsize : readBits ((b :: c :: rest).flatMap byteBits) 13 =
      some ((b.toNat * 256 + c.toNat) / 8) := by
    rw [hbits, readBits, if_neg (by omega), htake, List.foldl_append, foldl_bits,
      (foldl_byteBits b).1, (foldl_byteBits c).2, List.length_take, length_byteBits,
      show 2 ^ min 5 8 = 32 by rfl]
    congr 1
    omega
  have hindex : ∃ index, readBits (((b :: c :: rest).flatMap byteBits).drop 13) 3 = some index := by
    rw [hbits, readBits, if_neg (by rw [List.length_drop]; omega)]
    exact ⟨_, rfl⟩
  obtain ⟨index, hindex⟩ := hindex
  rw [readAacHbrAuSize, AAC_HBR_SIZE_LENGTH, AAC_HBR_INDEX_LENGTH, hsize]
  dsimp only
  rw [hindex, Option.map_some]

/-! ## Payloads -/

/-- An access unit in the mode AAC-hbr, with the index of its header. -/
structure HbrUnit where
  /-- The index, or how far it is behind that of the unit in front. -/
  index : ℕ
  /-- The bytes. -/
  data : List UInt8
  /-- The index has three bits. -/
  index_lt : index < 2 ^ 3
  /-- There is a byte. -/
  data_ne_nil : data ≠ []
  /-- The size has 13 bits. -/
  data_lt : data.length < 2 ^ 13

/-- The header of a unit. -/
def HbrUnit.header (unit : HbrUnit) : List UInt8 := toBe 2 (unit.data.length * 2 ^ 3 + unit.index)

/-- A payload with one unit or more. -/
structure HbrPayload where
  /-- The first unit. -/
  first : HbrUnit
  /-- The others. -/
  rest : List HbrUnit
  /-- The length of the headers, in bits, has 16 bits. -/
  rest_lt : (rest.length + 1) * 16 < 2 ^ 16

namespace HbrPayload

variable (u : HbrPayload)

/-- The units. -/
def units : List HbrUnit := u.first :: u.rest

/-- The headers. -/
def headers : List UInt8 := u.units.flatMap HbrUnit.header

/-- The payload, byte by byte. -/
def toBytes : List UInt8 :=
  toBe 2 ((u.rest.length + 1) * 16) ++ (u.headers ++ u.units.flatMap HbrUnit.data)

theorem toBytes_ne_nil : u.toBytes ≠ [] := by simp [toBytes, toBe]

theorem length_headers : u.headers.length = (u.rest.length + 1) * 2 := by
  have hall : ∀ units : List HbrUnit, (units.flatMap HbrUnit.header).length = units.length * 2 := by
    intro units
    induction units with
    | nil => rfl
    | cons unit units ih =>
      rw [List.flatMap_cons, List.length_append, ih, HbrUnit.header, length_toBe, List.length_cons]
      omega
  exact hall u.units

/-- The first header says how long the first unit is. -/
theorem readAacHbrAuSize_headers : readAacHbrAuSize u.headers = some u.first.data.length := by
  have hindex := u.first.index_lt
  have hlt : u.first.data.length * 2 ^ 3 + u.first.index < 256 ^ 2 := by
    have := u.first.data_lt
    omega
  obtain ⟨b, c, hheader⟩ :=
    List.length_eq_two.mp (length_toBe 2 (u.first.data.length * 2 ^ 3 + u.first.index))
  have hvalue : beNat [b, c] = u.first.data.length * 2 ^ 3 + u.first.index := by
    rw [← hheader, beNat_toBe_of_lt hlt]
  have hbytes : beNat [b, c] = b.toNat * 256 + c.toNat := by simp [beNat]
  have hheaders : u.headers = b :: c :: u.rest.flatMap HbrUnit.header := by
    rw [headers, units, List.flatMap_cons, HbrUnit.header, hheader]
    rfl
  rw [hheaders, readAacHbrAuSize_cons_cons, ← hbytes, hvalue]
  congr 1
  omega

/-- With 4095 units the length of the headers looks like a header of ADTS. -/
theorem looksAdts_iff (more : List UInt8) :
    (u.toBytes ++ more).getD 0 0 = 0xFF ∧ (u.toBytes ++ more).getD 1 0 &&& 0xF0 = 0xF0 ↔
      u.rest.length + 1 = 4095 := by
  obtain ⟨b, c, hlength⟩ := List.length_eq_two.mp (length_toBe 2 ((u.rest.length + 1) * 16))
  have hvalue : beNat [b, c] = (u.rest.length + 1) * 16 := by
    rw [← hlength, beNat_toBe_of_lt u.rest_lt]
  have hbytes : beNat [b, c] = b.toNat * 256 + c.toNat := by simp [beNat]
  have hhigh : ∀ c : UInt8, c &&& 0xF0 = 0xF0 ↔ 240 ≤ c.toNat := forall_byte (by decide +kernel)
  have hfirst : (u.toBytes ++ more).getD 0 0 = b := by
    rw [toBytes, hlength]
    rfl
  have hsecond : (u.toBytes ++ more).getD 1 0 = c := by
    rw [toBytes, hlength]
    rfl
  rw [hfirst, hsecond, hhigh, ← UInt8.toNat_inj]
  change b.toNat = 255 ∧ _ ↔ _
  have hb := b.toNat_lt
  have hc := c.toNat_lt
  omega

end HbrPayload

/-- From a payload the **first** unit is taken; from one with as many units as there can be, all of
it. -/
theorem stripMpeg4GenericAac_toBytes (u : HbrPayload) (more : List UInt8) :
    stripMpeg4GenericAac (u.toBytes ++ more) =
      some (if u.rest.length + 1 = 4095 then u.toBytes ++ more else u.first.data) := by
  have hadts := u.looksAdts_iff more
  have hpos := List.length_pos_of_ne_nil u.first.data_ne_nil
  -- the bytes, from the front
  have hfront : (u.toBytes ++ more).drop 0 = toBe 2 ((u.rest.length + 1) * 16) ++
      (u.headers ++ (u.first.data ++ (u.rest.flatMap HbrUnit.data ++ more))) := by
    simp [HbrPayload.toBytes, HbrPayload.units]
  generalize u.toBytes ++ more = payload at hadts hfront ⊢
  have hcount := slice_eq_of_drop hfront
  have hheaders := drop_of_drop hfront
  rw [length_toBe, Nat.zero_add] at hheaders
  rw [length_toBe] at hcount
  have hsection := slice_eq_of_drop hheaders
  have hdata := drop_of_drop hheaders
  rw [u.length_headers] at hsection hdata
  have hunit := slice_eq_of_drop hdata
  have hlen := congrArg List.length hfront
  simp only [List.drop_zero, List.length_append, length_toBe, u.length_headers] at hlen
  have hne : payload ≠ [] := List.ne_nil_of_length_pos (by omega)
  rw [stripMpeg4GenericAac, if_neg hne]
  by_cases hmany : u.rest.length + 1 = 4095
  · rw [if_pos ⟨by omega, hadts.mpr hmany⟩, if_pos hmany]
  · rw [if_neg fun h => hmany (hadts.mp h.2), if_neg (by omega), hcount, beNat_toBe_of_lt u.rest_lt]
    have hbytes : ((u.rest.length + 1) * 16 + 7) / 8 = (u.rest.length + 1) * 2 := by omega
    have hwhole : (u.rest.length + 1) * 16 % (AAC_HBR_SIZE_LENGTH + AAC_HBR_INDEX_LENGTH) = 0 :=
      Nat.mul_mod_left _ _
    dsimp only
    rw [hbytes, if_neg (by omega), if_neg (not_not.mpr hwhole), hsection,
      u.readAacHbrAuSize_headers]
    dsimp only
    rw [if_neg (by omega), if_pos (by omega), hunit, if_neg hmany]

/-! ## What is published -/

open StreamManager

/-- The frame of a packet has what is taken from its payload. -/
theorem data_aacFrame (tracks : List Track) (s : StreamId) (trackId : TrackId) {p : FullRtpPacket}
    {u : HbrPayload} (hpayload : p.payload = u.toBytes) (rtpData : Option (List UInt8)) :
    (aacFrame tracks s trackId p.toBytes rtpData).toList.map MediaFrame.data =
      [if u.rest.length + 1 = 4095 then u.toBytes ++ p.paddingBytes else u.first.data] := by
  have hne : (if u.rest.length + 1 = 4095 then u.toBytes ++ p.paddingBytes else u.first.data) ≠
      [] := by
    split
    · exact List.append_ne_nil_of_left_ne_nil u.toBytes_ne_nil _
    · exact u.first.data_ne_nil
  rw [aacFrame, rtpH264MediaPayload_toBytes, hpayload]
  dsimp only [Option.map_some, Option.getD_some]
  rw [stripMpeg4GenericAac_toBytes]
  dsimp only
  rw [if_neg hne]
  rfl

/-- One frame is published, so there is one for each unit exactly if there is one unit. -/
theorem data_aacFrame_iff (tracks : List Track) (s : StreamId) (trackId : TrackId)
    {p : FullRtpPacket} {u : HbrPayload} (hpayload : p.payload = u.toBytes)
    (rtpData : Option (List UInt8)) :
    (aacFrame tracks s trackId p.toBytes rtpData).toList.map MediaFrame.data =
      u.units.map HbrUnit.data ↔
      u.rest = [] := by
  rw [data_aacFrame tracks s trackId hpayload]
  cases hrest : u.rest with
  | nil => simp [HbrPayload.units, hrest]
  | cons unit rest => simp [HbrPayload.units, hrest]

/-- Over TCP the frame of a packet on another channel than that of video is published. -/
theorem handleRtpData_audio (m : StreamManager) {ss : RtspServerSession} {s : StreamId}
    (hstream : ss.session.streamId = some s) {data : List UInt8} (hlen : 12 ≤ (data.drop 4).length)
    {channel : UInt8} (hchannel : channel / 2 ≠ 0) :
    ss.handleRtpData m data channel =
      (exec publishFrame m
          (RtspServerSession.audioFrame ss.session s data (channel / 2)).toList).map fun m =>
        (m, ss) := by
  rw [RtspServerSession.handleRtpData, hstream]
  dsimp only
  rw [if_neg (Nat.not_lt.mpr hlen), if_neg hchannel]
  exact (exec_toList m (RtspServerSession.audioFrame ss.session s data (channel / 2)) fun m =>
    (m, ss)).symm

/-- Over UDP the frame of a packet that is not taken for RTCP is published. -/
theorem receive_audio (m : StreamManager) (s : StreamId) (trackId : TrackId) (tracks : List Track)
    (keepsPacket : Bool) {rtp : List UInt8} (h : ¬ (rtp.length < 12 ∨ isRtcpPacket rtp)) :
    UdpReceiver.receive m (.audio s trackId tracks keepsPacket) rtp =
      (exec publishFrame m
        (aacFrame tracks s trackId rtp (if keepsPacket then some rtp else none)).toList).map
        fun m => (m, .audio s trackId tracks keepsPacket) := by
  rw [UdpReceiver.receive, if_neg h]
  exact (exec_toList m (aacFrame tracks s trackId rtp (if keepsPacket then some rtp else none))
      fun m =>
    (m, UdpReceiver.audio s trackId tracks keepsPacket)).symm

/-- Of a packet with a payload in the mode AAC-hbr every unit is published, once and in order,
**exactly if there is one**: over TCP and over UDP. -/
theorem published_iff (m : StreamManager) {ss : RtspServerSession} {s : StreamId}
    (hstream : ss.session.streamId = some s) {framing : List UInt8} (hframing : framing.length = 4)
    {channel : UInt8} (hchannel : channel / 2 ≠ 0) (trackId : TrackId) (tracks : List Track)
    {p : FullRtpPacket} (hrtp : isRtcpPacket p.toBytes = false) {u : HbrPayload}
    (hpayload : p.payload = u.toBytes) :
    let overTcp :=
      (RtspServerSession.audioFrame ss.session s (framing ++ p.toBytes) (channel / 2)).toList
    let overUdp := (aacFrame tracks s trackId p.toBytes (some p.toBytes)).toList
    (ss.handleRtpData m (framing ++ p.toBytes) channel =
          (exec publishFrame m overTcp).map (fun m => (m, ss)) ∧
        UdpReceiver.receive m (.audio s trackId tracks true) p.toBytes =
          (exec publishFrame m overUdp).map fun m => (m, .audio s trackId tracks true)) ∧
      (overTcp.map MediaFrame.data = u.units.map HbrUnit.data ↔ u.rest = []) ∧
      (overUdp.map MediaFrame.data = u.units.map HbrUnit.data ↔ u.rest = []) := by
  intro overTcp overUdp
  have hdrop : (framing ++ p.toBytes).drop 4 = p.toBytes := List.drop_left' hframing
  have hlen : 12 ≤ p.toBytes.length := by
    rw [p.length_toBytes]
    omega
  have htcp : overTcp = (aacFrame ss.session.tracks s (channel / 2) p.toBytes
      (some (framing ++ p.toBytes))).toList := by
    change (aacFrame _ _ _ ((framing ++ p.toBytes).drop 4) _).toList = _
    rw [hdrop]
  have htaken : ¬ (p.toBytes.length < 12 ∨ isRtcpPacket p.toBytes) := by simp [hrtp, hlen]
  refine ⟨⟨handleRtpData_audio m hstream (by rw [hdrop]; exact hlen) hchannel,
    receive_audio m s trackId tracks true htaken⟩, ?_,
      data_aacFrame_iff tracks s trackId hpayload _⟩
  rw [htcp]
  exact data_aacFrame_iff ss.session.tracks s (channel / 2) hpayload _

/-- A packet with a payload. -/
def hbrPacket (u : HbrPayload) : FullRtpPacket where
  marker := true
  payloadType := 97
  sequenceNumber := 1
  timestamp := 1024
  ssrc := 1
  csrcs := []
  extension := none
  payload := u.toBytes
  padding := none
  payloadType_lt := by decide
  csrcs_lt := FullRtpPacket.nil_lt
  payload_ne_nil := u.toBytes_ne_nil
  padding_lt := fun _ hpadding => absurd hpadding (Option.not_mem_none _)

/-- A unit of two bytes. -/
def shortUnit : HbrUnit where
  index := 0
  data := [0x21, 0x10]
  index_lt := by decide
  data_ne_nil := List.cons_ne_nil _ _
  data_lt := by decide

/-- It alone. -/
def oneUnit : HbrPayload := ⟨shortUnit, [], by decide⟩

/-- It twice. -/
def shortUnits : HbrPayload := ⟨shortUnit, [shortUnit], by decide⟩

/-- A session that records. -/
def recordingSession : RtspServerSession :=
  { RtspServerSession.new with session := { RtspSession.new with streamId := some "live" } }

theorem published_one :
    let overTcp := (RtspServerSession.audioFrame recordingSession.session "live"
      ([0x24, 2, 0, 18] ++ (hbrPacket oneUnit).toBytes) (2 / 2)).toList
    let overUdp :=
      (aacFrame [] "live" 1 (hbrPacket oneUnit).toBytes (some (hbrPacket oneUnit).toBytes)).toList
    (recordingSession.handleRtpData .new ([0x24, 2, 0, 18] ++ (hbrPacket oneUnit).toBytes) 2 =
          (exec publishFrame .new overTcp).map (fun m => (m, recordingSession)) ∧
        UdpReceiver.receive .new (.audio "live" 1 [] true) (hbrPacket oneUnit).toBytes =
          (exec publishFrame .new overUdp).map fun m => (m, .audio "live" 1 [] true)) ∧
      (overTcp.map MediaFrame.data = oneUnit.units.map HbrUnit.data ↔ oneUnit.rest = []) ∧
      (overUdp.map MediaFrame.data = oneUnit.units.map HbrUnit.data ↔ oneUnit.rest = []) :=
  published_iff .new rfl rfl (by decide) 1 [] (by decide) rfl

/-- Of two units the second is **lost**. -/
theorem published_two :
    (RtspServerSession.audioFrame recordingSession.session "live"
        ([0x24, 2, 0, 22] ++ (hbrPacket shortUnits).toBytes) 1).toList.map MediaFrame.data =
          [[0x21, 0x10]] ∧
      (aacFrame [] "live" 1 (hbrPacket shortUnits).toBytes
        (some (hbrPacket shortUnits).toBytes)).toList.map MediaFrame.data = [[0x21, 0x10]] ∧
      shortUnits.units.map HbrUnit.data = [[0x21, 0x10], [0x21, 0x10]] := by
  decide

end VcpMediaServer
