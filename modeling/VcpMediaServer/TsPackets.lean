import VcpMediaServer.TsMuxer

/-!
# PES packets in TS packets

What a demuxer reads from the packets of a PES packet. The adaptation field of the first packet of
a video frame is the clock **and nothing else**: where the frame does not fill the packet, the
bytes behind it are read as a part of the frame.

* `IsPacket` — one packet, as it is read.
* `Packets` — packets one after the other: counters that count on, one unit that starts.
* `packets_pesToTsPackets` — the packets of a PES packet are such a run.
* `carriesPes_iff` — its bytes are read back exactly if it is no short packet of video.
-/

namespace VcpMediaServer

/-! ## One packet -/

/-- A packet, as a demuxer reads it. -/
structure IsPacket (pid : UInt16) (start : Bool) (cc : UInt8) (payload packet : List UInt8) :
    Prop where
  length : packet.length = TS_PACKET_SIZE
  sync : packet.head? = some SYNC_BYTE
  pid : tsPid packet = pid.toNat
  start : payloadUnitStart packet = start
  cc : tsCc packet = cc
  payload : tsPayload packet = payload

variable {pid : UInt16} {start : Bool} {cc cc' : UInt8} {payload : List UInt8}

theorem tsPid_header (hpid : pid < 0x2000) (start adaptation : Bool) (cc : UInt8)
    (rest : List UInt8) :
    tsPid (tsHeader pid start adaptation cc ++ rest) = pid.toNat := by
  have hflag : ∀ b : UInt8, ((b &&& 0x1F) ||| (if start then 0x40 else 0)) &&& 0x1F =
      b &&& 0x1F := by
    cases start <;> exact forall_byte (by decide +kernel)
  have hhigh : ∀ b : UInt8, (b &&& 0x1F).toNat = b.toNat % 32 := forall_byte (by decide +kernel)
  have hlt : pid.toNat < 0x2000 := hpid
  have hshift : (pid >>> 8).toUInt8.toNat = pid.toNat / 256 % 256 := by
    rw [UInt16.toNat_toUInt8, UInt16.toNat_shiftRight, Nat.shiftRight_eq_div_pow]
    rfl
  change ((((pid >>> 8).toUInt8 &&& 0x1F) ||| (if start then 0x40 else 0)) &&& 0x1F).toNat * 256 +
    pid.toUInt8.toNat = _
  rw [hflag, hhigh, hshift, UInt16.toNat_toUInt8]
  omega

theorem payloadUnitStart_header (pid : UInt16) (start adaptation : Bool) (cc : UInt8)
    (rest : List UInt8) : payloadUnitStart (tsHeader pid start adaptation cc ++ rest) = start := by
  have hflag : ∀ b : UInt8, (((b &&& 0x1F) ||| (if start then 0x40 else 0)) &&& 0x40 != 0) =
      start := by
    cases start <;> exact forall_byte (by decide +kernel)
  exact hflag _

theorem tsCc_header (pid : UInt16) (start adaptation : Bool) (hcc : cc < 16) (rest : List UInt8) :
    tsCc (tsHeader pid start adaptation cc ++ rest) = cc := by
  have hlow : ∀ b : UInt8, b < 16 → ((if adaptation then 0x30 else 0x10) ||| b) &&& 0x0F = b := by
    cases adaptation <;> exact forall_byte (by decide +kernel)
  exact hlow cc hcc

theorem hasAdaptationField_header (pid : UInt16) (start adaptation : Bool) (hcc : cc < 16)
    (rest : List UInt8) : hasAdaptationField (tsHeader pid start adaptation cc ++ rest) =
        adaptation := by
  have hbit : ∀ b : UInt8, b < 16 →
      (((if adaptation then 0x30 else 0x10) ||| b) &&& 0x20 != 0) = adaptation := by
    cases adaptation <;> exact forall_byte (by decide +kernel)
  exact hbit cc hcc

/-- The payload of a packet is behind what is in front of it. -/
theorem tsPayload_header (pid : UInt16) (start adaptation : Bool) (hcc : cc < 16)
    (rest : List UInt8) :
    tsPayload (tsHeader pid start adaptation cc ++ rest) =
      if adaptation then rest.drop (1 + (rest.getD 0 0).toNat) else rest := by
  have hbit : ∀ b : UInt8, b < 16 → ((if adaptation then 0x30 else 0x10) ||| b) &&& 0x10 ≠ 0 := by
    cases adaptation <;> exact forall_byte (by decide +kernel)
  have hread : (tsHeader pid start adaptation cc ++ rest).getD 3 0 &&& 0x10 ≠ 0 := hbit cc hcc
  rw [tsPayload, hasAdaptationField_header pid start adaptation hcc, if_neg hread]
  cases adaptation with
  | false => rfl
  | true =>
    rw [if_pos rfl, if_pos rfl]
    change ((tsHeader pid start true cc ++ rest).drop (5 + (rest.getD 0 0).toNat)) = _
    rw [show 5 + (rest.getD 0 0).toNat = 4 + (1 + (rest.getD 0 0).toNat) by omega, ← List.drop_drop]
    rfl

/-- A packet without an adaptation field. -/
theorem isPacket_plain (hpid : pid < 0x2000) (hcc : cc < 16)
    (hlen : payload.length = TS_PACKET_SIZE - 4) :
    IsPacket pid start cc payload (tsHeader pid start false cc ++ payload) where
  length := by
    rw [List.length_append, hlen]
    rfl
  sync := rfl
  pid := tsPid_header hpid start false cc payload
  start := payloadUnitStart_header pid start false cc payload
  cc := tsCc_header pid start false hcc payload
  payload := by simpa using tsPayload_header pid start false hcc payload

/-- A packet with an adaptation field: a byte with its length, and the field. -/
theorem isPacket_field (hpid : pid < 0x2000) (hcc : cc < 16) {n : UInt8} {field : List UInt8}
    (hfield : field.length = n.toNat)
    (hlen : field.length + 1 + payload.length = TS_PACKET_SIZE - 4) :
    IsPacket pid start cc payload (tsHeader pid start true cc ++ (n :: field ++ payload)) where
  length := by
    rw [List.length_append, List.length_append, List.length_cons, hlen]
    rfl
  sync := rfl
  pid := tsPid_header hpid start true cc _
  start := payloadUnitStart_header pid start true cc _
  cc := tsCc_header pid start true hcc _
  payload := by
    have hread : tsPayload (tsHeader pid start true cc ++ (n :: field ++ payload)) =
        (n :: field ++ payload).drop (1 + n.toNat) := tsPayload_header pid start true hcc _
    rw [hread, ← hfield, Nat.add_comm]
    exact List.drop_left' rfl

/-- A packet that is filled up in front of its payload. -/
theorem isPacket_stuffed (hpid : pid < 0x2000) (hcc : cc < 16) (flags : UInt8) {stuffing : ℕ}
    (hpos : 0 < stuffing) (hlen : stuffing + payload.length = TS_PACKET_SIZE - 4) :
    IsPacket pid start cc payload (tsHeader pid start true cc ++ stuffingField flags stuffing ++
        payload) := by
  have hsize : TS_PACKET_SIZE = 188 := rfl
  have hbyte : (UInt8.ofNat (stuffing - 1)).toNat = stuffing - 1 := toNat_ofNat_byte (by omega)
  have hfield :
    (if stuffing - 1 = 0 then [] else flags :: List.replicate (stuffing - 2) 0xFF).length =
      stuffing - 1 := by
    split
    · next h => rw [h, List.length_nil]
    · rw [List.length_cons, List.length_replicate]
      omega
  rw [stuffingField, List.append_assoc]
  exact isPacket_field hpid hcc (hfield.trans hbyte.symm) (by omega)

/-! ## Packets one after the other -/

/-- Packets with counters from `cc` on, in which only the first starts a unit; `cc'` is the counter
of the next. -/
inductive Packets (pid : UInt16) : Bool → UInt8 → List UInt8 → List UInt8 → UInt8 → Prop
  | nil (start : Bool) (cc : UInt8) : Packets pid start cc [] [] cc
  | cons {start : Bool} {cc cc' : UInt8} {payload packet rest output : List UInt8}
      (head : IsPacket pid start cc payload packet)
      (tail : Packets pid false (nextCc cc) rest output cc') :
      Packets pid start cc (payload ++ rest) (packet ++ output) cc'

theorem nextCc_lt (cc : UInt8) : nextCc cc < 16 := by
  have hall : ∀ b : UInt8, (b + 1) &&& 0x0F < 16 := forall_byte (by decide +kernel)
  exact hall cc

/-- The packets of an output. -/
def tsPackets (output : List UInt8) : List (List UInt8) := pieces TS_PACKET_SIZE output

theorem tsPackets_cons {packet output : List UInt8} (h : packet.length = TS_PACKET_SIZE) :
    tsPackets (packet ++ output) = packet :: tsPackets output := by
  have hne : packet ++ output ≠ [] :=
    List.ne_nil_of_length_pos (by rw [List.length_append, h, TS_PACKET_SIZE]; omega)
  rw [tsPackets, pieces_of_ne_nil (by decide) hne, ← h, List.take_left' rfl, List.drop_left' rfl, h]
  rfl

namespace Packets

variable {output : List UInt8}

theorem dvd_length (h : Packets pid start cc payload output cc') :
    TS_PACKET_SIZE ∣ output.length := by
  induction h with
  | nil => exact Nat.dvd_zero _
  | cons head tail ih =>
    rw [List.length_append, head.length]
    exact (Nat.dvd_add_right (Nat.dvd_refl _)).mpr ih

theorem cc_lt (h : Packets pid start cc payload output cc') (hcc : cc < 16) : cc' < 16 := by
  induction h with
  | nil => exact hcc
  | cons head tail ih => exact ih (nextCc_lt _)

/-- The packets all have the PID. -/
theorem pid_eq (h : Packets pid start cc payload output cc') :
    ∀ p ∈ tsPackets output, p.head? = some SYNC_BYTE ∧ tsPid p = pid.toNat := by
  induction h with
  | nil => simp [tsPackets]
  | cons head tail ih =>
    rw [tsPackets_cons head.length]
    exact List.forall_mem_cons.mpr ⟨⟨head.sync, head.pid⟩, ih⟩

/-- Where no unit starts at the front, none starts. -/
theorem start_eq_false (h : Packets pid start cc payload output cc') (hstart : start = false) :
    (tsPackets output).map payloadUnitStart = List.replicate (tsPackets output).length false := by
  induction h with
  | nil => simp [tsPackets]
  | cons head tail ih =>
    rw [tsPackets_cons head.length, List.map_cons, head.start, ih rfl, hstart, List.length_cons,
      List.replicate_succ]

/-- No other packet than the first starts a unit. -/
theorem start_eq (h : Packets pid true cc payload output cc') (hne : output ≠ []) :
    (tsPackets output).map payloadUnitStart =
      true :: List.replicate ((tsPackets output).length - 1) false := by
  cases h with
  | nil => exact absurd rfl hne
  | cons head tail =>
    rw [tsPackets_cons head.length, List.map_cons, head.start, tail.start_eq_false rfl]
    rfl

/-- The payloads, one after the other. -/
theorem payload_eq (h : Packets pid start cc payload output cc') :
    (tsPackets output).flatMap tsPayload = payload := by
  induction h with
  | nil => simp [tsPackets]
  | cons head tail ih => rw [tsPackets_cons head.length, List.flatMap_cons, head.payload, ih]

end Packets

/-! ## PES packets -/

/-- Where no clock is in front, the packets carry what is left of the PES packet: one that is not
full is filled up in front of its payload. -/
theorem packets_pesLoop (hpid : pid < 0x2000) (isVideo : Bool) (pcr : UInt64) {fuel : ℕ}
    (hstart : ¬(start ∧ isVideo)) (hcc : cc < 16) {pes : List UInt8} (hfuel : pes.length ≤ fuel) :
    Packets pid start cc pes (pesLoop pid isVideo pcr fuel start cc pes).1
      (pesLoop pid isVideo pcr fuel start cc pes).2 := by
  have hsize : TS_PACKET_SIZE = 188 := rfl
  induction fuel generalizing start cc pes with
  | zero =>
    obtain rfl := List.length_eq_zero_iff.mp (Nat.le_zero.mp hfuel)
    exact .nil start cc
  | succ fuel ih =>
    rw [pesLoop]
    by_cases hne : pes = []
    · rw [if_pos hne, hne]
      exact .nil start cc
    · have hpos := List.length_pos_of_ne_nil hne
      rw [if_neg hne, pesPacket, if_neg hstart]
      dsimp only
      by_cases hshort : pes.length < TS_PACKET_SIZE - 4
      · have hpacket : IsPacket pid start cc pes _ :=
          isPacket_stuffed hpid hcc 0x00 (Nat.sub_pos_of_lt hshort) (by omega)
        have hnone : ([] : List UInt8).length ≤ fuel := Nat.zero_le fuel
        have hnil := Packets.cons hpacket (ih (by simp) (nextCc_lt cc) hnone)
        rw [List.append_nil] at hnil
        rw [if_pos hshort]
        exact hnil
      · have hpacket : IsPacket pid start cc (pes.take (TS_PACKET_SIZE - 4)) _ :=
          isPacket_plain hpid hcc (by rw [List.length_take]; omega)
        have hfuel' : (pes.drop (TS_PACKET_SIZE - 4)).length ≤ fuel := by
          rw [List.length_drop]
          omega
        have hrest := Packets.cons hpacket (ih (by simp) (nextCc_lt cc) hfuel')
        rw [List.take_append_drop] at hrest
        rw [if_neg hshort]
        exact hrest

/-- What the packets carry behind the PES packet: a frame of video does not fill up its first
packet in front of the payload. -/
def pesFilling (isVideo : Bool) (pes : List UInt8) : List UInt8 :=
  if isVideo then List.replicate (TS_PACKET_SIZE - 12 - pes.length) 0xFF else []

theorem pesFilling_eq_nil_iff {isVideo : Bool} {pes : List UInt8} :
    pesFilling isVideo pes = [] ↔ ¬(isVideo ∧ pes.length < TS_PACKET_SIZE - 12) := by
  cases isVideo with
  | false => simp [pesFilling]
  | true => simp [pesFilling, Nat.sub_eq_zero_iff_le]

/-- The packets of a PES packet. -/
theorem packets_pesToTsPackets (hpid : pid < 0x2000) (isVideo : Bool) (hcc : cc < 16) (pcr : UInt64)
    {pes : List UInt8} (hpes : pes ≠ []) :
    Packets pid true cc (pes ++ pesFilling isVideo pes) (pesToTsPackets pes pid isVideo cc pcr).1
      (pesToTsPackets pes pid isVideo cc pcr).2 := by
  have hsize : TS_PACKET_SIZE = 188 := rfl
  cases isVideo with
  | false =>
    rw [pesFilling, if_neg (by simp), List.append_nil]
    exact packets_pesLoop hpid false pcr (by simp) hcc le_rfl
  | true =>
    obtain ⟨fuel, hfuel⟩ :=
      Nat.exists_eq_succ_of_ne_zero (Nat.ne_of_gt (List.length_pos_of_ne_nil hpes))
    let filling := List.replicate (TS_PACKET_SIZE - 12 - pes.length) (0xFF : UInt8)
    have hfield : (AF_PCR :: writePcr pcr).length = UInt8.toNat 7 := rfl
    have hpacket : IsPacket pid true cc (pes.take (TS_PACKET_SIZE - 12) ++ filling) _ :=
      isPacket_field hpid hcc hfield
        (by rw [List.length_append, List.length_take,
          List.length_replicate]; simp [writePcr]; omega)
    have hfuel' : (pes.drop (TS_PACKET_SIZE - 12)).length ≤ fuel := by
      rw [List.length_drop]
      omega
    have hrest := Packets.cons hpacket
      (packets_pesLoop hpid true pcr (by simp) (nextCc_lt cc) hfuel')
    have hcarried : pes.take (TS_PACKET_SIZE - 12) ++ filling ++ pes.drop (TS_PACKET_SIZE - 12) =
        pes ++ filling := by
      by_cases hshort : pes.length < TS_PACKET_SIZE - 12
      · rw [List.take_of_length_le (Nat.le_of_lt hshort),
          List.drop_of_length_le (Nat.le_of_lt hshort), List.append_nil]
      · have hnil : filling = [] := by
          rw [List.replicate_eq_nil_iff]
          omega
        rw [hnil, List.append_nil, List.append_nil, List.take_append_drop]
    rw [hcarried] at hrest
    rw [pesToTsPackets, hfuel, pesLoop, if_neg hpes, pesPacket, if_pos (by simp), pesFilling,
      if_pos rfl]
    simpa [adaptationPrefix] using hrest

/-- The output carries a PES packet: it is a whole number of packets of the PID, the first alone
starts a unit, and the payloads are the bytes. -/
structure CarriesPes (pid : UInt16) (pes output : List UInt8) : Prop where
  whole : TS_PACKET_SIZE ∣ output.length
  packets : ∀ packet ∈ tsPackets output, packet.head? = some SYNC_BYTE ∧ tsPid packet = pid.toNat
  start : (tsPackets output).map payloadUnitStart =
    true :: List.replicate ((tsPackets output).length - 1) false
  payload : (tsPackets output).flatMap tsPayload = pes

/-- The packets carry the PES packet **if and only if** it is no packet of video that is too short
for the first TS packet. -/
theorem carriesPes_iff {pes : List UInt8} (hpes : pes ≠ []) (hpid : pid < 0x2000) (isVideo : Bool)
    (hcc : cc < 16) (pcr : UInt64) :
    CarriesPes pid pes (pesToTsPackets pes pid isVideo cc pcr).1 ↔
      ¬(isVideo ∧ pes.length < TS_PACKET_SIZE - 12) := by
  have hpackets := packets_pesToTsPackets hpid isVideo hcc pcr hpes
  have hne : (pesToTsPackets pes pid isVideo cc pcr).1 ≠ [] := by
    intro hnil
    have hcarried := hpackets.payload_eq
    rw [hnil, tsPackets, pieces_nil, List.flatMap_nil] at hcarried
    exact hpes (List.append_eq_nil_iff.mp hcarried.symm).1
  rw [← pesFilling_eq_nil_iff]
  constructor
  · intro hcarries
    exact List.append_right_eq_self.mp (hpackets.payload_eq.symm.trans hcarries.payload)
  · intro hfilling
    have hcarried := hpackets.payload_eq
    rw [hfilling, List.append_nil] at hcarried
    exact ⟨hpackets.dvd_length, hpackets.pid_eq, hpackets.start_eq hne, hcarried⟩

/-- The PES packet of a short frame, with a picture of two bytes. -/
def shortPes : List UInt8 :=
  buildPes 40 (prepareH264AuForTs [0x00, 0x00, 0x00, 0x01, 0x41, 0x9A]) true

theorem carriesPes_short :
    (shortPes ≠ [] ∧ VIDEO_PID < 0x2000 ∧ (0 : UInt8) < 16) ∧
      (CarriesPes VIDEO_PID shortPes (pesToTsPackets shortPes VIDEO_PID true 0 0).1 ↔
        ¬(true ∧ shortPes.length < TS_PACKET_SIZE - 12)) :=
  ⟨by decide, carriesPes_iff (by decide) (by decide) true (by decide) 0⟩

/-- The payload of the only packet of that frame is longer than the PES packet. -/
theorem not_carriesPes_short :
    ¬∀ (pes : List UInt8) (pid : UInt16) (isVideo : Bool) (cc : UInt8) (pcr : UInt64),
      pes ≠ [] → pid < 0x2000 → cc < 16 →
          CarriesPes pid pes (pesToTsPackets pes pid isVideo cc pcr).1 := by
  intro hall
  have hcarries := hall shortPes VIDEO_PID true 0 0 (by decide) (by decide) (by decide)
  have hlen := congrArg List.length hcarries.payload
  revert hlen
  decide +kernel

end VcpMediaServer
