import VcpMediaServer.H264Collect
import VcpMediaServer.RtpPacketize

/-!
# Assembling access units

What the ingest makes of the payloads of **one** access unit, in order and complete. A NAL unit
comes as one payload or as fragments, and its last payload gives the unit; parameter sets and
delimiters are dropped; the marker gives the access unit away.

* `payloadFrame_fuA` — one fragment.
* `trace_nalItems` — the payloads of a NAL unit give the unit **at the last one**.
* `Holds` — what the ingest holds after some units of an access unit.
* `trace_unitItems` — the payloads of an access unit publish it **at the marker**.
-/

namespace VcpMediaServer

open Mealy

/-- A frame of the ingest. -/
def h264Frame (s : StreamId) (ts : UInt32) (isKeyframe : Bool) (data : List UInt8) : MediaFrame :=
  (MediaFrame.new s 0 ts.toUInt64 data isKeyframe .h264).withClockRate VIDEO_RTP_CLOCK_RATE

/-- A NAL unit that can be sent: of a type that a payload can have, with the forbidden bit off. -/
structure SendableNal (nal : List UInt8) : Prop extends Findable nal where
  type_pos : 1 ≤ firstNalType nal
  type_le : firstNalType nal ≤ 23
  forbidden : nal.headD 0 &&& 0x80 = 0

/-- A unit that the ingest keeps: not an SPS, a PPS or a delimiter. -/
def isKept (nal : List UInt8) : Bool :=
  !(typeOf nal == some 7 || typeOf nal == some 8 || typeOf nal == some 9)

/-- A slice, of an IDR picture or of another. -/
def isSlice (nal : List UInt8) : Bool := typeOf nal == some 1 || typeOf nal == some 5

theorem isKept_of_isSlice {nal : List UInt8} (h : isSlice nal = true) : isKept nal = true := by
  rw [isSlice, Bool.or_eq_true, beq_iff_eq, beq_iff_eq] at h
  rcases h with h | h <;> rw [isKept, h] <;> rfl

/-! ## Payloads -/

/-- The second byte in front of a fragment: the ends of the unit, and its type. -/
def fuHeader (b : UInt8) (isStart isEnd : Bool) : UInt8 :=
  (if isStart then 0x80 else 0) ||| (if isEnd then 0x40 else 0) ||| (b &&& 0x1F)

theorem fuHeader_start (b : UInt8) (isStart isEnd : Bool) :
    fuHeader b isStart isEnd &&& 0x80 ≠ 0 ↔ isStart = true := by
  revert isStart isEnd
  exact forall_byte (by decide +kernel) b

theorem fuHeader_end (b : UInt8) (isStart isEnd : Bool) :
    fuHeader b isStart isEnd &&& 0x40 ≠ 0 ↔ isEnd = true := by
  revert isStart isEnd
  exact forall_byte (by decide +kernel) b

theorem fuHeader_type (b : UInt8) (isStart isEnd : Bool) :
    fuHeader b isStart isEnd &&& 0x1F = b &&& 0x1F := by
  revert isStart isEnd
  exact forall_byte (by decide +kernel) b

theorem fuIndicator_type (b : UInt8) : ((b &&& 0x60) ||| 28) &&& 0x1F = 28 :=
  forall_byte (by decide +kernel) b

/-- The two bytes hold the first byte of the unit, if its forbidden bit is off. -/
theorem fuIndicator_or_type {b : UInt8} (h : b &&& 0x80 = 0) :
    (((b &&& 0x60) ||| 28) &&& 0xE0) ||| (b &&& 0x1F) = b := by
  revert h
  exact forall_byte (by decide +kernel) b

namespace H264RtpIngest

/-- **One fragment**: it begins a buffer or goes on with one, and the last one gives it away. -/
theorem payloadFrame_fuA {fuIndicator : UInt8} (h : fuIndicator &&& 0x1F = 28) (fuHeader : UInt8)
    (piece : List UInt8) (d : H264RtpDepacketizer) (s : StreamId) (ts : UInt32) :
    payloadFrame d s ([fuIndicator, fuHeader] ++ piece) ts =
      match
        if fuHeader &&& 0x80 ≠ 0 then
          some (startCode ++ ((fuIndicator &&& 0xE0) ||| (fuHeader &&& 0x1F)) :: piece)
        else d.fuBuffer.map fun buffer => buffer ++ piece with
      | none => (d, none)
      | some buffer =>
        if fuHeader &&& 0x40 ≠ 0 then
          (⟨none⟩, some (h264Frame s ts (fuHeader &&& 0x1F == 5 || isKeyframeAnnexB buffer) buffer))
        else (⟨some buffer⟩, none) := by
  have htype : firstNalType ([fuIndicator, fuHeader] ++ piece) = 28 := h
  have hne : [fuIndicator, fuHeader] ++ piece ≠ [] := by simp
  have hlen : ¬ ([fuIndicator, fuHeader] ++ piece).length < 2 := by simp
  have hrange : ¬ ((1 : UInt8) ≤ 28 ∧ (28 : UInt8) ≤ 23) := by decide
  have hstap : (28 : UInt8) ≠ STAP_A := by decide
  have hparse : parseRtpH264 ([fuIndicator, fuHeader] ++ piece) = [] := by
    rw [parseRtpH264, if_neg hne, htype]
    dsimp only
    rw [if_neg hrange, if_neg hstap]
  have hidr : isIdrRtpPayload ([fuIndicator, fuHeader] ++ piece) = (fuHeader &&& 0x1F == 5) := by
    rw [isIdrRtpPayload, if_neg hne, htype]
    dsimp only
    rw [if_neg (by decide), if_neg hstap, if_pos ⟨rfl, by omega⟩]
    rfl
  have hpush : d.push ([fuIndicator, fuHeader] ++ piece) =
      d.pushFuA ([fuIndicator, fuHeader] ++ piece) := by
    rw [H264RtpDepacketizer.push, if_neg hne, htype]
    dsimp only
    exact (if_neg hrange).trans ((if_neg hstap).trans (if_pos (by rfl)))
  have hfirst : ([fuIndicator, fuHeader] ++ piece).getD 0 0 = fuIndicator := rfl
  have hsecond : ([fuIndicator, fuHeader] ++ piece).getD 1 0 = fuHeader := rfl
  have hrest : ([fuIndicator, fuHeader] ++ piece).drop 2 = piece := rfl
  rw [payloadFrame, hpush, H264RtpDepacketizer.pushFuA, if_neg hlen, hfirst, hsecond, hrest, hparse,
    hidr, annexBFromRtpPayload, hparse]
  have hcode : ([0, 0, 0, 1] : List UInt8) = startCode := rfl
  dsimp only
  rw [hcode]
  generalize (if fuHeader &&& 0x80 ≠ 0 then _ else _ : Option (List UInt8)) = buffer
  rcases buffer with _ | buffer
  · rfl
  · by_cases hend : fuHeader &&& 0x40 ≠ 0
    · simp only [if_pos hend]
      rfl
    · simp only [if_neg hend]

/-- The fragments of a unit that begins with the byte `b`: the first, one in the middle, and the
last. -/
theorem payloadFrame_first {b : UInt8} (h : b &&& 0x80 = 0) (piece : List UInt8)
    (d : H264RtpDepacketizer) (s : StreamId) (ts : UInt32) :
    payloadFrame d s ([(b &&& 0x60) ||| 28, fuHeader b true false] ++ piece) ts =
      (⟨some (startCode ++ b :: piece)⟩, none) := by
  rw [payloadFrame_fuA (fuIndicator_type b), if_pos ((fuHeader_start b true false).mpr rfl),
    fuHeader_type, fuIndicator_or_type h]
  exact if_neg (by rw [fuHeader_end]; exact Bool.false_ne_true)

theorem payloadFrame_next (b : UInt8) (piece buffer : List UInt8) (s : StreamId) (ts : UInt32) :
    payloadFrame ⟨some buffer⟩ s ([(b &&& 0x60) ||| 28, fuHeader b false false] ++ piece) ts =
      (⟨some (buffer ++ piece)⟩, none) := by
  rw [payloadFrame_fuA (fuIndicator_type b),
    if_neg (by rw [fuHeader_start]; exact Bool.false_ne_true)]
  exact if_neg (by rw [fuHeader_end]; exact Bool.false_ne_true)

theorem payloadFrame_last (b : UInt8) (piece buffer : List UInt8) (s : StreamId) (ts : UInt32) :
    payloadFrame ⟨some buffer⟩ s ([(b &&& 0x60) ||| 28, fuHeader b false true] ++ piece) ts =
      (⟨none⟩, some (h264Frame s ts
        (b &&& 0x1F == 5 || isKeyframeAnnexB (buffer ++ piece)) (buffer ++ piece))) := by
  rw [payloadFrame_fuA (fuIndicator_type b),
    if_neg (by rw [fuHeader_start]; exact Bool.false_ne_true), fuHeader_type]
  exact if_pos ((fuHeader_end b false true).mpr rfl)

/-- A NAL unit that is a payload of its own. -/
theorem payloadFrame_single {nal : List UInt8} (h : SendableNal nal) (d : H264RtpDepacketizer)
    (s : StreamId) (ts : UInt32) :
    payloadFrame d s nal ts =
      (d, some (h264Frame s ts (typeOf nal == some 5) (startCode ++ nal))) := by
  have hrange : 1 ≤ firstNalType nal ∧ firstNalType nal ≤ 23 := ⟨h.type_pos, h.type_le⟩
  have hlt := UInt8.le_iff_toNat_le.mp h.type_le
  have hstap : firstNalType nal ≠ STAP_A := by
    intro heq
    rw [heq] at hlt
    exact absurd hlt (by decide)
  have hfu : firstNalType nal ≠ FU_A := by
    intro heq
    rw [heq] at hlt
    exact absurd hlt (by decide)
  have hparse : parseRtpH264 nal = [⟨firstNalType nal, nal⟩] := by
    rw [parseRtpH264, if_neg h.ne_nil]
    exact if_pos hrange
  have hpush : d.push nal = (d, .ok (some (startCode ++ nal))) := by
    rw [H264RtpDepacketizer.push, if_neg h.ne_nil]
    apply (if_pos hrange).trans
    rw [nalusToAnnexB, List.flatMap_singleton]
    rfl
  have hidr : isIdrRtpPayload nal = (firstNalType nal == 5) := by
    rw [isIdrRtpPayload, if_neg h.ne_nil]
    dsimp only
    by_cases h5 : firstNalType nal = 5
    · rw [if_pos h5, h5]
      rfl
    · rw [if_neg h5, if_neg hstap, if_neg fun h => hfu h.1]
      exact (beq_eq_false_iff_ne.mpr h5).symm
  have hkey : isKeyframeAnnexB (startCode ++ nal) = (typeOf nal == some 5) := by
    rw [← annexB_singleton,
      isKeyframeAnnexB_annexB (List.cons_ne_nil _ _) (by simpa using h.toFindable)]
    simp
  have htype : (firstNalType nal == 5) = (typeOf nal == some 5) := by
    obtain ⟨b, rest, rfl⟩ := List.exists_cons_of_ne_nil h.ne_nil
    rfl
  have hidr' : containsIdr [⟨firstNalType nal, nal⟩] = (typeOf nal == some 5) := by
    rw [containsIdr, ← htype]
    simp
  rw [payloadFrame, hpush, hparse, hidr, htype, hidr']
  dsimp only
  rw [hkey, Bool.or_self, Bool.or_self]
  rfl

/-! ## NAL units -/

/-- One item. -/
def collectItem (ing : H264RtpIngest) (item : RtpItem) : H264RtpIngest × List MediaFrame :=
  ing.collectPayload item.payload item.timestamp item.marker

theorem collectPayload_of_none {ing : H264RtpIngest} {payload : List UInt8} {ts : UInt32}
    {marker : Bool} {d : H264RtpDepacketizer} (hne : payload ≠ [])
    (h : payloadFrame ing.depacketizer ing.streamId payload ts = (d, none)) :
    ing.collectPayload payload ts marker = ({ ing with depacketizer := d }, []) := by
  rw [collectPayload, if_neg hne, h]

theorem collectPayload_of_some {ing : H264RtpIngest} {payload : List UInt8} {ts : UInt32}
    {marker : Bool} {d : H264RtpDepacketizer} {frame : MediaFrame} (hne : payload ≠ [])
    (h : payloadFrame ing.depacketizer ing.streamId payload ts = (d, some frame)) :
    ing.collectPayload payload ts marker =
      ({ ing with depacketizer := d } : H264RtpIngest).collectFrame frame ts marker := by
  rw [collectPayload, if_neg hne, h]

variable {ing : H264RtpIngest} {ts : UInt32} {marker : Bool}

/-- The fragments behind the first give the unit at the last one. -/
theorem atLast_fuItems (ing : H264RtpIngest) (ts : UInt32) (marker : Bool) (b : UInt8)
    {buffer : List UInt8} {rest : List (List UInt8)} (hbuffer : ing.depacketizer = ⟨some buffer⟩)
    (hrest : rest ≠ []) :
    AtLast collectItem ing (fuItems ts marker ((b &&& 0x60) ||| 28) (b &&& 0x1F) false rest)
      (({ ing with depacketizer := ⟨none⟩ } : H264RtpIngest).collectFrame
        (h264Frame ing.streamId ts
          (b &&& 0x1F == 5 || isKeyframeAnnexB (buffer ++ rest.flatten)) (buffer ++ rest.flatten))
        ts marker) := by
  induction rest generalizing ing buffer with
  | nil => exact absurd rfl hrest
  | cons piece rest ih =>
    cases rest with
    | nil =>
      have hitems : fuItems ts marker ((b &&& 0x60) ||| 28) (b &&& 0x1F) false [piece] =
          [⟨[(b &&& 0x60) ||| 28, fuHeader b false true] ++ piece, ts, marker⟩] := by
        simp [fuItems, fuHeader]
      have hitem :
          collectItem ing ⟨[(b &&& 0x60) ||| 28, fuHeader b false true] ++ piece, ts, marker⟩ = _ :=
        collectPayload_of_some
          (by simp) (hbuffer ▸ payloadFrame_last b piece buffer ing.streamId ts)
      rw [List.flatten_singleton, hitems, ← hitem]
      exact AtLast.single _ _
    | cons next rest =>
      have hitems : fuItems ts marker ((b &&& 0x60) ||| 28)
        (b &&& 0x1F) false (piece :: next :: rest) =
          ⟨[(b &&& 0x60) ||| 28, fuHeader b false false] ++ piece, ts, false⟩ ::
            fuItems ts marker ((b &&& 0x60) ||| 28) (b &&& 0x1F) false (next :: rest) := by
        rw [fuItems]
        simp [fuHeader]
      have hitem :
        collectItem ing ⟨[(b &&& 0x60) ||| 28, fuHeader b false false] ++ piece, ts, false⟩ =
          ({ ing with depacketizer := ⟨some (buffer ++ piece)⟩ }, []) :=
        collectPayload_of_none
          (by simp) (hbuffer ▸ payloadFrame_next b piece buffer ing.streamId ts)
      rw [hitems, List.flatten_cons, ← List.append_assoc]
      exact AtLast.cons hitem (ih _ rfl (List.cons_ne_nil _ _))

theorem flatten_pieces {n : ℕ} (hn : 0 < n) (data : List UInt8) :
    (pieces n data).flatten = data := by
  induction hlen : data.length using Nat.strong_induction_on generalizing data with
  | _ len ih =>
    by_cases hne : data = []
    · rw [hne, pieces_nil, List.flatten_nil]
    · have hpos := List.length_pos_of_ne_nil hne
      rw [pieces_of_ne_nil hn hne, List.flatten_cons,
        ih _ (by rw [← hlen, List.length_drop]; omega) _ rfl, List.take_append_drop]

/-- The frame that the ingest builds of a NAL unit. -/
def nalFrame (s : StreamId) (ts : UInt32) (nal : List UInt8) : MediaFrame :=
  h264Frame s ts (typeOf nal == some 5) (startCode ++ nal)

/-- The fragments of a unit that is too long for a packet: the first, and the others **behind it**.
-/
theorem fuItems_pieces (ts : UInt32) (marker : Bool) (b : UInt8) {data : List UInt8}
    (h : UDP_RTP_MAX_PAYLOAD - 2 < data.length) :
    pieces (UDP_RTP_MAX_PAYLOAD - 2) (data.drop (UDP_RTP_MAX_PAYLOAD - 2)) ≠ [] ∧
      fuItems ts marker ((b &&& 0x60) ||| 28)
        (b &&& 0x1F) true (pieces (UDP_RTP_MAX_PAYLOAD - 2) data) =
        ⟨[(b &&& 0x60) ||| 28, fuHeader b true false] ++ data.take (UDP_RTP_MAX_PAYLOAD - 2), ts,
          false⟩ ::
          fuItems ts marker ((b &&& 0x60) ||| 28) (b &&& 0x1F) false
            (pieces (UDP_RTP_MAX_PAYLOAD - 2) (data.drop (UDP_RTP_MAX_PAYLOAD - 2))) := by
  have hdata : data ≠ [] := List.ne_nil_of_length_pos (by omega)
  have hpieces : pieces (UDP_RTP_MAX_PAYLOAD - 2) (data.drop (UDP_RTP_MAX_PAYLOAD - 2)) ≠ [] := by
    rw [Ne, pieces_eq_nil_iff, List.drop_eq_nil_iff]
    omega
  refine ⟨hpieces, ?_⟩
  rw [pieces_of_ne_nil (by decide) hdata, fuItems, if_neg hpieces,
    List.isEmpty_eq_false_iff.mpr hpieces, Bool.and_false]
  rfl

/-- The items of a NAL unit give the unit **at the last one**. -/
theorem atLast_nalItems (ing : H264RtpIngest) (ts : UInt32) (marker : Bool) {nal : List UInt8}
    (h : SendableNal nal) (hwhole : ing.depacketizer = ⟨none⟩) :
    AtLast collectItem ing (nalItems ts marker nal)
      (ing.collectFrame (nalFrame ing.streamId ts nal) ts marker) := by
  have hself : ({ ing with depacketizer := ⟨none⟩ } : H264RtpIngest) = ing := by
    rw [← hwhole]
  obtain ⟨b, data, rfl⟩ := List.exists_cons_of_ne_nil h.ne_nil
  rw [nalItems]
  split
  · have hitem : collectItem ing ⟨b :: data, ts, marker⟩ = _ :=
      collectPayload_of_some h.ne_nil (payloadFrame_single h ing.depacketizer ing.streamId ts)
    rw [hwhole, hself] at hitem
    rw [nalFrame, ← hitem]
    exact AtLast.single _ _
  · next hlong =>
    -- more than one piece: the first begins the buffer, the others go on with it
    have hmax : UDP_RTP_MAX_PAYLOAD = 1200 := rfl
    rw [List.length_cons] at hlong
    obtain ⟨hpieces, hitems⟩ :=
      fuItems_pieces ts marker b (show UDP_RTP_MAX_PAYLOAD - 2 < data.length by omega)
    have hitem : collectItem ing
        ⟨[(b &&& 0x60) ||| 28, fuHeader b true false] ++ data.take (UDP_RTP_MAX_PAYLOAD - 2), ts,
          false⟩ =
          ({ ing with depacketizer :=
            ⟨some (startCode ++ b :: data.take (UDP_RTP_MAX_PAYLOAD - 2))⟩ }, []) :=
      collectPayload_of_none (by simp) (payloadFrame_first h.forbidden _ _ _ _)
    have hbytes : startCode ++ b :: data.take (UDP_RTP_MAX_PAYLOAD - 2) ++
        (pieces (UDP_RTP_MAX_PAYLOAD - 2) (data.drop (UDP_RTP_MAX_PAYLOAD - 2))).flatten =
          startCode ++ b :: data := by
      rw [flatten_pieces (by decide), List.append_assoc, List.cons_append, List.take_append_drop]
    have hkey : (b &&& 0x1F == 5 || isKeyframeAnnexB (startCode ++ b :: data)) =
        (typeOf (b :: data) == some 5) := by
      rw [← annexB_singleton,
        isKeyframeAnnexB_annexB (List.cons_ne_nil _ _) (by simpa using h.toFindable)]
      simp [typeOf_cons]
    have hrest := atLast_fuItems
      { ing with depacketizer := ⟨some (startCode ++ b :: data.take (UDP_RTP_MAX_PAYLOAD - 2))⟩ }
      ts marker b rfl hpieces
    dsimp only at hrest
    rw [hbytes, hself, hkey] at hrest
    rw [hitems]
    exact AtLast.cons hitem hrest

/-! ## Access units -/

/-- The frame of an access unit: what is kept of it, and a key frame if **any** unit of it is an IDR
slice. -/
def unitFrame (s : StreamId) (ts : UInt32) (nals : List (List UInt8)) : MediaFrame :=
  h264Frame s ts (nals.any fun nal => typeOf nal == some 5) (annexB (nals.filter isKept))

/-- What is published of an access unit: nothing without a slice. -/
def unitFrames (s : StreamId) (ts : UInt32) (nals : List (List UInt8)) : List MediaFrame :=
  if nals.any isSlice then [unitFrame s ts nals] else []

/-- What the ingest holds after the units `nals` of an access unit. -/
structure Holds (ing : H264RtpIngest) (s : StreamId) (ts : UInt32) (nals : List (List UInt8)) :
    Prop where
  streamId : ing.streamId = s
  whole : ing.depacketizer = ⟨none⟩
  parts : ing.batch.parts = (nals.filter isKept).map fun nal => startCode ++ nal
  isKeyframe : ing.batch.isKeyframe = nals.any fun nal => typeOf nal == some 5
  timestamp : ing.batch.parts ≠ [] → ing.batch.timestamp = ts

/-- Without an access unit begun, any timestamp may come. -/
theorem Holds.retime {s : StreamId} {ts : UInt32} (h : Holds ing s ts []) (ts' : UInt32) :
    Holds ing s ts' [] :=
  { h with timestamp := fun hne => absurd h.parts hne }

theorem Holds.combined {s : StreamId} {ts : UInt32} {nals : List (List UInt8)}
    (h : Holds ing s ts nals) : ing.batch.parts.flatten = annexB (nals.filter isKept) := by
  rw [h.parts, annexB, List.flatMap_def]

variable {s : StreamId} {nals : List (List UInt8)} {nal : List UInt8}

theorem isParameterSetOnly_nalFrame (h : Findable nal) (s : StreamId) (ts : UInt32) :
    isParameterSetOnly (nalFrame s ts nal).data = !isKept nal := by
  have hdata : (nalFrame s ts nal).data = annexB [nal] := (annexB_singleton nal).symm
  rw [hdata, isParameterSetOnly_annexB (List.cons_ne_nil _ _) (by simpa using h), isKept,
    Bool.not_not]
  simp

theorem not_idr_of_dropped (h : isKept nal = false) : (typeOf nal == some 5) = false := by
  rw [isKept, Bool.not_eq_false', Bool.or_eq_true, Bool.or_eq_true, beq_iff_eq, beq_iff_eq,
    beq_iff_eq] at h
  rcases h with (h | h) | h <;> rw [h] <;> rfl

/-- The access unit so far is not given away by a payload of the same one. -/
theorem Holds.takeIf (h : Holds ing s ts nals) :
    ing.takeIf (ing.batch.parts ≠ [] ∧ ing.batch.timestamp ≠ ts) = (ing, []) := by
  have hnot : ¬ (ing.batch.parts ≠ [] ∧ ing.batch.timestamp ≠ ts) :=
    fun hc => hc.2 (h.timestamp hc.1)
  rw [decide_eq_false hnot]
  rfl

/-- A unit is added. -/
theorem Holds.addPart (h : Holds ing s ts nals) (hkept : isKept nal = true) :
    Holds (ing.addPart (nalFrame s ts nal) ts) s ts (nals ++ [nal]) where
  streamId := h.streamId
  whole := h.whole
  parts := by
    rw [List.filter_append, List.map_append, ← h.parts, List.filter_singleton, hkept]
    rfl
  isKeyframe := by
    rw [List.any_append, ← h.isKeyframe, List.any_cons, List.any_nil, Bool.or_false]
    rfl
  timestamp := by
    intro _
    change (if ing.batch.parts = [] then ts else ing.batch.timestamp) = ts
    split
    · rfl
    · next hne => exact h.timestamp hne

/-- A unit that is not the last of its access unit gives nothing. -/
theorem Holds.collectFrame (h : Holds ing s ts nals) (hnal : Findable nal) :
    ∃ ing', ing.collectFrame (nalFrame s ts nal) ts false = (ing', []) ∧
      Holds ing' s ts (nals ++ [nal]) := by
  rw [H264RtpIngest.collectFrame, isParameterSetOnly_nalFrame hnal]
  cases hkept : isKept nal with
  | false =>
    refine ⟨ing, if_pos rfl, { h with parts := ?_, isKeyframe := ?_ }⟩
    · rw [List.filter_append, List.filter_singleton, hkept, h.parts]
      simp
    · rw [List.any_append, ← h.isKeyframe]
      simp [not_idr_of_dropped hkept]
  | true =>
    refine ⟨ing.addPart (nalFrame s ts nal) ts, ?_, h.addPart hkept⟩
    rw [if_neg (by simp), h.takeIf]
    rfl

/-- The last unit gives the access unit away. -/
theorem Holds.collectFrame_marker (h : Holds ing s ts nals) (hnals : ∀ nal ∈ nals, Findable nal)
    (hnal : Findable nal) (hkept : isKept nal = true) :
    ∃ ing', ing.collectFrame (nalFrame s ts nal) ts true = (ing', unitFrames s ts (nals ++ [nal])) ∧
      Holds ing' s ts [] := by
  have hadd := h.addPart hkept
  generalize hing : ing.addPart (nalFrame s ts nal) ts = ing₁ at hadd
  have hfind : ∀ nal' ∈ (nals ++ [nal]).filter isKept, Findable nal' := by
    intro nal' hnal'
    rcases List.mem_append.mp (List.mem_filter.mp hnal').1 with hmem | hmem
    · exact hnals nal' hmem
    · exact List.mem_singleton.mp hmem ▸ hnal
  have hne : (nals ++ [nal]).filter isKept ≠ [] :=
    List.ne_nil_of_mem
      (List.mem_filter.mpr ⟨List.mem_append_right _ (List.mem_singleton_self _), hkept⟩)
  have hparts : ing₁.batch.parts ≠ [] := by
    rw [hadd.parts, Ne, List.map_eq_nil_iff]
    exact hne
  have hvcl : containsVclNalu ing₁.batch.parts.flatten = (nals ++ [nal]).any isSlice := by
    rw [hadd.combined, containsVclNalu_annexB hne hfind, Bool.eq_iff_iff, List.any_eq_true,
      List.any_eq_true]
    constructor
    · rintro ⟨nal', hmem, hslice⟩
      exact ⟨nal', (List.mem_filter.mp hmem).1, hslice⟩
    · rintro ⟨nal', hmem, hslice⟩
      exact ⟨nal', List.mem_filter.mpr ⟨hmem, isKept_of_isSlice hslice⟩, hslice⟩
  have hkey : (ing₁.batch.isKeyframe || isKeyframeAnnexB (annexB ((nals ++ [nal]).filter isKept))) =
      (nals ++ [nal]).any fun nal => typeOf nal == some 5 := by
    rw [hadd.isKeyframe, isKeyframeAnnexB_annexB hne hfind, Bool.or_eq_left_iff_imp,
      List.any_eq_true, List.any_eq_true]
    rintro ⟨nal', hnal', h5⟩
    exact ⟨nal', (List.mem_filter.mp hnal').1, h5⟩
  have hframe : ing₁.batchFrame = unitFrame s ts (nals ++ [nal]) := by
    rw [batchFrame, unitFrame, h264Frame, hadd.combined, hadd.streamId, hadd.timestamp hparts, hkey]
  have htake : ∃ ing', ing₁.takeUnit = (ing', unitFrames s ts (nals ++ [nal])) ∧
      Holds ing' s ts [] := by
    rw [takeUnit, if_neg hparts, hvcl, unitFrames, hframe]
    split
    · exact ⟨_, rfl, hadd.streamId, hadd.whole, rfl, rfl, fun hne => absurd rfl hne⟩
    · exact ⟨_, rfl, hadd.streamId, hadd.whole, rfl, rfl, fun hne => absurd rfl hne⟩
  obtain ⟨ing', htake, hholds⟩ := htake
  refine ⟨ing', ?_, hholds⟩
  rw [H264RtpIngest.collectFrame, isParameterSetOnly_nalFrame hnal, hkept, if_neg (by simp),
    h.takeIf]
  dsimp only
  rw [hing, H264RtpIngest.takeIf, if_pos rfl, htake]
  rfl

/-- The items of an access unit publish it **at the marker**, and nothing before. -/
theorem atLast_unitItems {rest : List (List UInt8)} (h : Holds ing s ts nals) (hrest : rest ≠ [])
    (hsend : ∀ nal ∈ nals ++ rest, SendableNal nal)
    (hlast : ∀ nal ∈ rest.getLast?, isKept nal = true) :
    ∃ ing', AtLast collectItem ing (unitItems ts rest) (ing', unitFrames s ts (nals ++ rest)) ∧
      Holds ing' s ts [] := by
  induction rest generalizing ing nals with
  | nil => exact absurd rfl hrest
  | cons nal rest ih =>
    have hnal : SendableNal nal := hsend nal (by simp)
    have hitems := atLast_nalItems ing ts rest.isEmpty hnal h.whole
    rw [h.streamId] at hitems
    rw [unitItems]
    by_cases hend : rest = []
    · obtain rfl := hend
      obtain ⟨ing', hcollect, hholds⟩ := h.collectFrame_marker
        (fun nal' hmem => (hsend nal' (List.mem_append_left _ hmem)).toFindable) hnal.toFindable
        (hlast nal rfl)
      rw [List.isEmpty_nil, hcollect] at hitems
      exact ⟨ing', by simpa [unitItems] using hitems, hholds⟩
    · obtain ⟨ing₁, hcollect, hholds⟩ := h.collectFrame hnal.toFindable
      rw [List.isEmpty_eq_false_iff.mpr hend, hcollect] at hitems
      have hassoc : nals ++ [nal] ++ rest = nals ++ nal :: rest := by
        rw [List.append_assoc, List.singleton_append]
      obtain ⟨ing', hrun, hholds'⟩ := ih hholds hend (by rwa [hassoc])
        (by rwa [List.getLast?_cons_of_ne_nil hend] at hlast)
      rw [hassoc] at hrun
      rw [List.isEmpty_eq_false_iff.mpr hend]
      exact ⟨ing', AtLast.append hitems hrun, hholds'⟩

end H264RtpIngest

end VcpMediaServer
