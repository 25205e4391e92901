import VcpMediaServer.AnnexB
import VcpMediaServer.Pullers

/-!
# Video from RTMP to RTMP

A video message has its NAL units behind their **lengths** (AVCC). The server and the puller
put start codes in place of the lengths, and the player side puts lengths in place of the start
codes.

* `frameToRtmpVideo` — `frame_to_rtmp_video`, with its search for the next start code.
* `rtmpUnits` — the units that it writes, `annexBToAvcc_eq`.
* `annexBToAvcc_annexB` — units without a start code in them are found again. A zero at the end
  of a unit does not move the start code behind it, for that has **four** bytes.
* `relay_lossless` — what was received is what is sent on.
-/

namespace VcpMediaServer

/-- The bytes start with a start code, of three bytes or of four. -/
def atStartCode (data : List UInt8) : Bool :=
  data.take 3 == [0x00, 0x00, 0x01] || data.take 4 == startCode

/-- The search for the end of a NAL unit: the number of bytes up to the next start code. It
looks at three bytes or more. -/
def nalEnd : List UInt8 → ℕ
  | [] => 0
  | b :: rest =>
    if rest.length < 2 then rest.length + 1
    else if atStartCode (b :: rest) then 0
    else nalEnd rest + 1

/-- The loop of `frame_to_rtmp_video`. Every turn takes a byte or more, so the length of the
data is fuel enough. -/
def annexBToAvccLoop : ℕ → List UInt8 → List UInt8
  | 0, _ => []
  | fuel + 1, data =>
    let nalu (rest : List UInt8) :=
      toBe 4 (nalEnd rest) ++ rest.take (nalEnd rest) ++
        annexBToAvccLoop fuel (rest.drop (nalEnd rest))
    if data = [] then []
    else if data.take 3 = [0x00, 0x00, 0x01] then nalu (data.drop 3)
    else if data.take 4 = startCode then nalu (data.drop 4)
    else annexBToAvccLoop fuel (data.drop 1)

/-- AVCC from Annex B. -/
def annexBToAvcc (data : List UInt8) : List UInt8 := annexBToAvccLoop data.length data

/-- `frame_to_rtmp_video`. -/
def frameToRtmpVideo (frame : MediaFrame) : List UInt8 :=
  let frameType : UInt8 := if frame.isKeyframe || isKeyframeAnnexB frame.data then 0x10 else 0x20
  [frameType ||| 0x07, 0x01, 0x00, 0x00, 0x00] ++ annexBToAvcc frame.data

/-! ## NAL units -/

/-- No start code is in the unit. -/
def NoStartCode (nal : List UInt8) : Prop := ¬ [0x00, 0x00, 0x01] <:+: nal

/-- The units behind their lengths. -/
def avcc (nals : List (List UInt8)) : List UInt8 :=
  nals.flatMap fun nal => toBe 4 nal.length ++ nal

instance (nal : List UInt8) : Decidable (NoStartCode nal) :=
  inferInstanceAs (Decidable (¬ _))

theorem NoStartCode.tail {b : UInt8} {nal : List UInt8} (h : NoStartCode (b :: nal)) :
    NoStartCode nal := fun hcode => h (hcode.trans (List.suffix_cons b nal).isInfix)

/-- No start code begins inside a unit, whatever start code or end follows it. -/
theorem not_atStartCode {b : UInt8} {nal rest : List UInt8} (h : NoStartCode (b :: nal))
    (hrest : rest = [] ∨ ∃ rest', rest = startCode ++ rest') :
    atStartCode (b :: (nal ++ rest)) = false := by
  rw [Bool.eq_false_iff, Ne, atStartCode, Bool.or_eq_true, beq_iff_eq, beq_iff_eq]
  rintro (hthree | hfour)
  · rcases nal with _ | ⟨c, _ | ⟨d, nal⟩⟩
    · obtain rfl | ⟨rest', rfl⟩ := hrest <;> simp [startCode] at hthree
    · obtain rfl | ⟨rest', rfl⟩ := hrest <;> simp [startCode] at hthree
    · simp only [List.cons_append, List.take_succ_cons, List.take_zero, List.cons.injEq, and_true]
        at hthree
      obtain ⟨rfl, rfl, rfl⟩ := hthree
      exact h ⟨[], nal, rfl⟩
  · rcases nal with _ | ⟨c, _ | ⟨d, _ | ⟨e, nal⟩⟩⟩
    · obtain rfl | ⟨rest', rfl⟩ := hrest <;> simp [startCode] at hfour
    · obtain rfl | ⟨rest', rfl⟩ := hrest <;> simp [startCode] at hfour
    · obtain rfl | ⟨rest', rfl⟩ := hrest <;> simp [startCode] at hfour
    · simp only [startCode, List.cons_append, List.take_succ_cons, List.take_zero,
        List.cons.injEq, and_true] at hfour
      obtain ⟨rfl, rfl, rfl, rfl⟩ := hfour
      exact h ⟨[0], nal, rfl⟩

/-- The end of a unit is found, whatever start code or end follows it. -/
theorem nalEnd_append {nal rest : List UInt8} (h : NoStartCode nal)
    (hrest : rest = [] ∨ ∃ rest', rest = startCode ++ rest') :
    nalEnd (nal ++ rest) = nal.length := by
  induction nal with
  | nil =>
    obtain rfl | ⟨rest', rfl⟩ := hrest
    · rfl
    · exact if_neg (by simp)
  | cons b nal ih =>
    rw [List.cons_append, nalEnd, not_atStartCode h hrest, ih h.tail, List.length_cons]
    by_cases hshort : (nal ++ rest).length < 2
    · -- less than three bytes are left, and no start code fits into them
      rw [if_pos hshort]
      obtain rfl | ⟨rest', rfl⟩ := hrest
      · rw [List.append_nil]
      · simp [startCode] at hshort
        omega
    · rw [if_neg hshort]
      rfl

/-! ## The units that are written -/

/-- The units that the loop of `frame_to_rtmp_video` puts behind lengths. -/
def rtmpUnitsLoop : ℕ → List UInt8 → List (List UInt8)
  | 0, _ => []
  | fuel + 1, data =>
    let nalu (rest : List UInt8) :=
      rest.take (nalEnd rest) :: rtmpUnitsLoop fuel (rest.drop (nalEnd rest))
    if data = [] then []
    else if data.take 3 = [0x00, 0x00, 0x01] then nalu (data.drop 3)
    else if data.take 4 = startCode then nalu (data.drop 4)
    else rtmpUnitsLoop fuel (data.drop 1)

/-- The units that `frame_to_rtmp_video` writes. -/
def rtmpUnits (data : List UInt8) : List (List UInt8) := rtmpUnitsLoop data.length data

theorem nalEnd_le (data : List UInt8) : nalEnd data ≤ data.length := by
  induction data with
  | nil => exact Nat.le_refl 0
  | cons b rest ih =>
    rw [nalEnd, List.length_cons]
    split
    · exact Nat.le_refl _
    · split
      · exact Nat.zero_le _
      · exact Nat.succ_le_succ ih

/-- A unit behind its length, and what is written of the rest. -/
theorem avcc_take_nalEnd (rest : List UInt8) (units : List (List UInt8)) :
    avcc (rest.take (nalEnd rest) :: units) = toBe 4 (nalEnd rest) ++ rest.take (nalEnd rest) ++
        avcc units := by
  rw [avcc, List.flatMap_cons, List.length_take, Nat.min_eq_left (nalEnd_le rest)]
  rfl

theorem annexBToAvccLoop_eq (fuel : ℕ) (data : List UInt8) :
    annexBToAvccLoop fuel data = avcc (rtmpUnitsLoop fuel data) := by
  induction fuel generalizing data with
  | zero => rfl
  | succ fuel ih =>
    rw [annexBToAvccLoop, rtmpUnitsLoop]
    dsimp only
    split
    · rfl
    · split
      · rw [avcc_take_nalEnd, ih]
      · split
        · rw [avcc_take_nalEnd, ih]
        · exact ih _

/-- What is written is these units, each behind its length. -/
theorem annexBToAvcc_eq (data : List UInt8) : annexBToAvcc data = avcc (rtmpUnits data) :=
  annexBToAvccLoop_eq _ _

/-- A unit behind its start code is found. -/
theorem rtmpUnitsLoop_cons {nal rest : List UInt8} (h : NoStartCode nal)
    (hrest : rest = [] ∨ ∃ rest', rest = startCode ++ rest') (fuel : ℕ) :
    rtmpUnitsLoop (fuel + 1) (startCode ++ nal ++ rest) = nal :: rtmpUnitsLoop fuel rest := by
  have hdrop : (startCode ++ nal ++ rest).drop 4 = nal ++ rest := by
    rw [List.append_assoc]
    rfl
  rw [rtmpUnitsLoop]
  dsimp only
  rw [if_neg (by simp [startCode]), if_neg (by simp [startCode]),
    if_pos (by rw [List.append_assoc]; rfl), hdrop, nalEnd_append h hrest, List.take_left' rfl,
    List.drop_left' rfl]

theorem rtmpUnitsLoop_annexB {units : List (List UInt8)} (h : ∀ unit ∈ units, NoStartCode unit)
    {fuel : ℕ} (hfuel : units.length ≤ fuel) : rtmpUnitsLoop fuel (annexB units) = units := by
  induction units generalizing fuel with
  | nil => cases fuel <;> rfl
  | cons unit units ih =>
    obtain ⟨hunit, hunits⟩ := List.forall_mem_cons.mp h
    obtain _ | fuel := fuel
    · cases hfuel
    · rw [annexB_cons, rtmpUnitsLoop_cons hunit (annexB_front units),
        ih hunits (Nat.le_of_succ_le_succ hfuel)]

theorem length_le_annexB (nals : List (List UInt8)) : nals.length ≤ (annexB nals).length := by
  induction nals with
  | nil => exact Nat.le_refl 0
  | cons nal nals ih =>
    have hcode : startCode.length = 4 := rfl
    rw [annexB] at ih
    rw [annexB, List.flatMap_cons, List.length_append, List.length_append, List.length_cons]
    omega

/-- Units without a start code of three bytes are written as they are, the empty ones too. -/
theorem rtmpUnits_annexB {units : List (List UInt8)} (h : ∀ unit ∈ units, NoStartCode unit) :
    rtmpUnits (annexB units) = units :=
  rtmpUnitsLoop_annexB h (length_le_annexB units)

/-- Units without a start code in them are **found again**. -/
theorem annexBToAvcc_annexB {nals : List (List UInt8)} (h : ∀ nal ∈ nals, NoStartCode nal) :
    annexBToAvcc (annexB nals) = avcc nals := by
  rw [annexBToAvcc_eq, rtmpUnits_annexB h]

/-! ## Lengths -/

/-- The start codes are put in place of the lengths. -/
theorem avccLoop_avcc {nals : List (List UInt8)} (h : ∀ nal ∈ nals, nal.length < 2 ^ 32)
    {fuel : ℕ} (hfuel : nals.length ≤ fuel) :
    RtmpConnection.avccLoop fuel (avcc nals) = annexB nals := by
  induction nals generalizing fuel with
  | nil => cases fuel <;> rfl
  | cons nal nals ih =>
    obtain ⟨hnal, hnals⟩ := List.forall_mem_cons.mp h
    obtain _ | fuel := fuel
    · cases hfuel
    · have hcons : avcc (nal :: nals) = toBe 4 nal.length ++ (nal ++ avcc nals) := by
        rw [avcc, List.flatMap_cons, List.append_assoc]
        rfl
      have hshort : ¬ (toBe 4 nal.length ++ (nal ++ avcc nals)).length < 4 := by
        rw [List.length_append, length_toBe]
        omega
      have hfits : ¬ nal.length > (nal ++ avcc nals).length := by
        rw [List.length_append]
        omega
      rw [hcons, RtmpConnection.avccLoop, if_neg hshort, List.take_left' (length_toBe 4 _),
        beNat_toBe_of_lt hnal, List.drop_left' (length_toBe 4 _)]
      dsimp only
      rw [if_neg hfits, List.take_left' rfl, List.drop_left' rfl,
        ih hnals (Nat.le_of_succ_le_succ hfuel)]
      rfl

theorem length_le_avcc (nals : List (List UInt8)) : nals.length ≤ (avcc nals).length := by
  induction nals with
  | nil => exact Nat.le_refl 0
  | cons nal nals ih =>
    rw [avcc] at ih
    rw [avcc, List.flatMap_cons, List.length_append, List.length_append, length_toBe,
      List.length_cons]
    omega

theorem avccToAnnexB_avcc {nals : List (List UInt8)} (h : ∀ nal ∈ nals, nal.length < 2 ^ 32) :
    RtmpConnection.avccToAnnexB (avcc nals) = annexB nals :=
  avccLoop_avcc h (length_le_avcc nals)

/-! ## Messages -/

/-- A video message with NAL units: its tag header of five bytes, then the units. -/
structure CarriesNals (msg : RtmpMessage) (nals : List (List UInt8)) : Prop where
  msgType : msg.msgType = 0x09
  /-- The first byte, the packet type, and the composition time. -/
  payload : ∃ b c d e, msg.payload = [b, 0x01, c, d, e] ++ avcc nals
  /-- The lengths fit into four bytes. -/
  lengths : ∀ nal ∈ nals, nal.length < 2 ^ 32

/-- The frame of the units. -/
theorem CarriesNals.videoFrame {msg : RtmpMessage} {nals : List (List UInt8)}
    (h : CarriesNals msg nals) (s : StreamId) :
    RtmpConnection.videoFrame s msg =
      if nals = [] then none
      else
        some ((MediaFrame.new s 0 msg.timestamp.toUInt64 (annexB nals)
          (msg.payload.headD 0 &&& 0xF0 == 0x10) .h264).withClockRate MILLISECOND_CLOCK_RATE) := by
  obtain ⟨b, c, d, e, hpayload⟩ := h.payload
  have hdrop : msg.payload.drop 5 = avcc nals := by
    rw [hpayload]
    rfl
  rw [RtmpConnection.videoFrame, hdrop, avccToAnnexB_avcc h.lengths]
  simp only [annexB_eq_nil_iff]

/-- **Lossless**: the server and the puller build one and the same frame of a video message with
NAL units, if there is any, and a player is sent the units of the message again. -/
theorem relay_lossless {msg : RtmpMessage} {nals : List (List UInt8)} (h : CarriesNals msg nals)
    (hnals : ∀ nal ∈ nals, NoStartCode nal) :
    (∀ s, RtmpPull.rtmpMessageToFrame msg s = none ↔ nals = []) ∧
      (∀ m (conn : RtmpConnection) peerAddr writeOk, conn.isPublishing = true →
        conn.handleRtmpMessage m msg peerAddr writeOk =
          (match RtmpPull.rtmpMessageToFrame msg conn.streamId with
            | none => some m
            | some frame => m.publishFrame frame).map fun m =>
              (m, { conn with framesReceived := conn.framesReceived + 1 }, .done [] none)) ∧
      ∀ s frame, RtmpPull.rtmpMessageToFrame msg s = some frame →
        (frameToRtmpVideo frame).drop 5 = avcc nals := by
  obtain ⟨b, c, d, e, hpayload⟩ := h.payload
  have htype := h.msgType
  have hpacket : RtmpConnection.avcPacketType msg.payload = 0x01 := by rw [hpayload]; rfl
  have hframe : ∀ s, RtmpPull.rtmpMessageToFrame msg s = RtmpConnection.videoFrame s msg := by
    intro s
    rw [RtmpPull.rtmpMessageToFrame, if_pos htype, if_pos hpacket]
  refine ⟨?_, ?_, ?_⟩
  · intro s
    rw [hframe, h.videoFrame]
    simp
  · intro m conn peerAddr writeOk hpublishing
    have hne : msg.payload ≠ [] := by rw [hpayload]; exact List.cons_ne_nil _ _
    have hlen : ¬ msg.payload.length < 5 := by
      rw [hpayload, List.length_append]
      exact Nat.not_lt.mpr (Nat.le_add_right 5 _)
    rw [hframe, RtmpConnection.handleRtmpMessage, htype, if_neg (by decide), if_pos rfl,
      RtmpConnection.handleVideo, if_neg hne, hpacket, if_neg (by decide), if_pos rfl]
    dsimp only
    rw [if_neg hlen, if_pos hpublishing]
    cases RtmpConnection.videoFrame conn.streamId msg <;> rfl
  · intro s frame hsome
    rw [hframe, h.videoFrame, Option.ite_none_left_eq_some] at hsome
    obtain ⟨-, hsome⟩ := hsome
    obtain rfl := Option.some.inj hsome
    exact annexBToAvcc_annexB hnals

/-- An empty unit, and one that ends in zeros. -/
theorem relay_lossless_of_two :
    (RtmpPull.rtmpMessageToFrame
        ⟨0x09, 40, 1, [0x27, 0x01, 0, 0, 0] ++ avcc [[], [0x41, 0, 0]]⟩ "live").map
      (fun frame => (frameToRtmpVideo frame).drop 5) = some (avcc [[], [0x41, 0, 0]]) := by
  have hcarries : CarriesNals ⟨0x09, 40, 1, [0x27, 0x01, 0, 0, 0] ++ avcc [[], [0x41, 0, 0]]⟩
      [[], [0x41, 0, 0]] :=
    ⟨rfl, ⟨0x27, 0, 0, 0, rfl⟩, by decide⟩
  obtain ⟨hnone, -, hunits⟩ := relay_lossless hcarries (by decide)
  obtain ⟨frame, hframe⟩ :=
    Option.ne_none_iff_exists'.mp ((hnone "live").not.mpr (List.cons_ne_nil _ _))
  rw [hframe, Option.map_some, hunits "live" frame hframe]

end VcpMediaServer
