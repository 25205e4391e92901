import VcpMediaServer.H264RoundTrip

/-!
# Access units with packets missing

Packets that are lost, late or doubled. On a gap the ingest forgets the access unit so far, and
then takes the **rest** of it for a new one: what it holds begins with the packet behind the gap.

* `nalsFrom` — the NAL units of an access unit that begin behind its first packets.
* `atLast_dropItems` — the packets behind a gap publish exactly these, at the marker.
* `Stretch` — the packets in order that the ingest has seen last.
* `always_whole_iff` — every frame that is published has all slices of its access unit
  **exactly if** no marker ends a stretch that has some of them and misses others.
-/

namespace VcpMediaServer

open Mealy Lts

namespace H264RtpIngest

/-! ## Behind a gap -/

/-- The NAL units that begin behind the first `k` packets of an access unit. -/
def nalsFrom (ts : UInt32) : ℕ → List (List UInt8) → List (List UInt8)
  | _, [] => []
  | k, nal :: nals =>
    if k = 0 then nal :: nals else nalsFrom ts (k - (nalItems ts nals.isEmpty nal).length) nals

theorem nalsFrom_zero (ts : UInt32) (nals : List (List UInt8)) : nalsFrom ts 0 nals = nals := by
  cases nals with
  | nil => rfl
  | cons nal nals => exact if_pos rfl

theorem nalsFrom_suffix (ts : UInt32) (k : ℕ) (nals : List (List UInt8)) :
    nalsFrom ts k nals <:+ nals := by
  induction nals generalizing k with
  | nil => exact List.suffix_refl _
  | cons nal nals ih =>
    rw [nalsFrom]
    split
    · exact List.suffix_refl _
    · exact (ih _).trans (List.suffix_cons _ _)

variable {ing : H264RtpIngest} {s : StreamId} {ts : UInt32} {marker : Bool}

/-- A fragment without its beginning is dropped. -/
theorem collectPayload_of_continuation (hwhole : ing.depacketizer = ⟨none⟩) {payload : List UInt8}
    (h : isFuAContinuation payload = true) : ing.collectPayload payload ts marker = (ing, []) := by
  rw [isFuAContinuation] at h
  split at h
  · cases h
  · next hfu =>
    rw [not_or, not_not] at hfu
    obtain ⟨hlen, htype⟩ := hfu
    obtain ⟨a, b, piece, rfl⟩ : ∃ a b piece, payload = [a, b] ++ piece := by
      rcases payload with _ | ⟨a, _ | ⟨b, piece⟩⟩
      · exact absurd (Nat.zero_lt_two) hlen
      · exact absurd Nat.one_lt_two hlen
      · exact ⟨a, b, piece, rfl⟩
    have hb : ¬ (b &&& 0x80 ≠ 0) := not_not.mpr (beq_iff_eq.mp h)
    have hframe := payloadFrame_fuA (show a &&& 0x1F = 28 from htype) b piece ing.depacketizer
      ing.streamId ts
    have hbuffer : ing.depacketizer.fuBuffer = none := congrArg H264RtpDepacketizer.fuBuffer hwhole
    rw [if_neg hb, hbuffer] at hframe
    exact collectPayload_of_none (by simp) hframe

theorem drop_fuItems {fuIndicator nalType : UInt8} {isStart : Bool} {rest : List (List UInt8)}
    {k : ℕ} (hk : 0 < k) :
    (fuItems ts marker fuIndicator nalType isStart rest).drop k =
      fuItems ts marker fuIndicator nalType false (rest.drop k) := by
  induction rest generalizing isStart k with
  | nil => simp [fuItems]
  | cons piece rest ih =>
    obtain ⟨k, rfl⟩ : ∃ k', k = k' + 1 := ⟨k - 1, by omega⟩
    rw [fuItems, List.drop_succ_cons, List.drop_succ_cons]
    rcases Nat.eq_zero_or_pos k with rfl | hpos
    · rfl
    · exact ih hpos

theorem isFuAContinuation_of_fuItems {b : UInt8} {rest : List (List UInt8)} :
    ∀ item ∈ fuItems ts marker ((b &&& 0x60) ||| 28) (b &&& 0x1F) false rest,
      isFuAContinuation item.payload = true := by
  induction rest with
  | nil => simp [fuItems]
  | cons piece rest ih =>
    rw [fuItems]
    refine List.forall_mem_cons.mpr ⟨?_, ih⟩
    have hheader :
      ((if false = true then 0x80 else 0) ||| (if rest = [] then 0x40 else 0) ||| (b &&& 0x1F)) =
        fuHeader b false rest.isEmpty := by
      simp [fuHeader]
    have htype : firstNalType ([(b &&& 0x60) ||| 28, fuHeader b false rest.isEmpty] ++ piece) =
        FU_A :=
      fuIndicator_type b
    have hstart : fuHeader b false rest.isEmpty &&& 0x80 = 0 :=
      not_not.mp fun h => Bool.false_ne_true ((fuHeader_start b false rest.isEmpty).mp h)
    rw [hheader, isFuAContinuation, if_neg (by rw [htype]; simp)]
    exact beq_iff_eq.mpr hstart

/-- What is left of a NAL unit without its first packet is dropped. -/
theorem quiet_dropItems (hwhole : ing.depacketizer = ⟨none⟩) {nal : List UInt8} {k : ℕ}
    (hk : 0 < k) :
    ∀ item ∈ (nalItems ts marker nal).drop k, collectItem ing item = (ing, []) := by
  intro item hitem
  cases nal with
  | nil => simp [nalItems] at hitem
  | cons b data =>
    rw [nalItems] at hitem
    split at hitem
    · rw [List.drop_of_length_le (by rw [List.length_singleton]; exact hk)] at hitem
      cases hitem
    · rw [drop_fuItems hk] at hitem
      exact collectPayload_of_continuation hwhole (isFuAContinuation_of_fuItems item hitem)

/-- The packets behind a gap publish the units **that begin there**, at the marker. -/
theorem atLast_dropItems {nals : List (List UInt8)} (h : Holds ing s ts [])
    (hsend : ∀ nal ∈ nals, SendableNal nal) (hlast : ∀ nal ∈ nals.getLast?, isKept nal = true)
    {k : ℕ} (hk : k < (unitItems ts nals).length) :
    ∃ ing', AtLast collectItem ing ((unitItems ts nals).drop k)
        (ing', unitFrames s ts (nalsFrom ts k nals)) ∧ Holds ing' s ts [] := by
  induction nals generalizing k with
  | nil => exact absurd hk (Nat.not_lt_zero k)
  | cons nal nals ih =>
    obtain ⟨-, hsend'⟩ := List.forall_mem_cons.mp hsend
    have hlast' : ∀ nal ∈ nals.getLast?, isKept nal = true := by
      by_cases hend : nals = []
      · simp [hend]
      · rwa [List.getLast?_cons_of_ne_nil hend] at hlast
    rcases Nat.eq_zero_or_pos k with rfl | hpos
    · rw [nalsFrom_zero, List.drop_zero]
      exact atLast_unitItems h (List.cons_ne_nil _ _) hsend hlast
    · rw [nalsFrom, if_neg (by omega), unitItems, List.drop_append]
      rw [unitItems, List.length_append] at hk
      by_cases hin : k < (nalItems ts nals.isEmpty nal).length
      · -- in the middle of a unit: what is left of it is dropped
        have hquiet : AtLast collectItem ing ((nalItems ts nals.isEmpty nal).drop k) (ing, []) := by
          refine AtLast.of_quiet ?_ (quiet_dropItems h.whole hpos)
          rw [Ne, List.drop_eq_nil_iff]
          omega
        rw [Nat.sub_eq_zero_of_le (Nat.le_of_lt hin), List.drop_zero, nalsFrom_zero]
        by_cases hend : nals = []
        · obtain rfl := hend
          exact ⟨ing, by simpa [unitItems, unitFrames] using hquiet, h⟩
        · obtain ⟨ing', hrest, hholds⟩ := atLast_unitItems h hend hsend' hlast'
          exact ⟨ing', AtLast.append hquiet hrest, hholds⟩
      · rw [List.drop_of_length_le (by omega), List.nil_append]
        exact ih hsend' hlast' (by omega)

end H264RtpIngest

/-! ## Where a packet belongs -/

/-- What the packets of access units carry. -/
def itemsOf (units : List AccessUnit) : List RtpItem := units.flatMap AccessUnit.items

theorem itemsOf_cons (u : AccessUnit) (us : List AccessUnit) :
    itemsOf (u :: us) = u.items ++ itemsOf us :=
  List.flatMap_cons

theorem packetsOf_eq (payloadType : UInt8) (ssrc : UInt32) (seq : UInt16)
    (units : List AccessUnit) :
    packetsOf payloadType ssrc seq units = numbered payloadType ssrc seq (itemsOf units) := by
  induction units generalizing seq with
  | nil => rfl
  | cons u us ih => rw [packetsOf, u.packets_eq, ih, itemsOf_cons, numbered_append]

theorem getElem?_numbered (payloadType : UInt8) (ssrc : UInt32) (seq : UInt16)
    (items : List RtpItem) (j : ℕ) :
    (numbered payloadType ssrc seq items)[j]? = items[j]?.map fun item =>
      buildRtpPacket payloadType (seq + UInt16.ofNat j)
          item.timestamp ssrc item.marker item.payload := by
  induction items generalizing seq j with
  | nil => rfl
  | cons item items ih =>
    cases j with
    | zero => rw [numbered, List.getElem?_cons_zero, List.getElem?_cons_zero, Option.map_some,
        show UInt16.ofNat 0 = 0 from rfl, UInt16.add_zero]
    | succ j =>
      rw [numbered, List.getElem?_cons_succ, ih, List.getElem?_cons_succ, UInt16.ofNat_add,
        UInt16.add_assoc, UInt16.add_comm 1]
      rfl

/-- The access unit that a packet belongs to, and how many packets there are before the unit. -/
def locate : List AccessUnit → ℕ → Option (AccessUnit × ℕ)
  | [], _ => none
  | u :: us, j =>
    if j < u.items.length then some (u, 0)
    else (locate us (j - u.items.length)).map fun r => (r.1, r.2 + u.items.length)

theorem locate_of_length_le {units : List AccessUnit} {j : ℕ} (h : (itemsOf units).length ≤ j) :
    locate units j = none := by
  induction units generalizing j with
  | nil => rfl
  | cons u us ih =>
    rw [itemsOf_cons, List.length_append] at h
    rw [locate, if_neg (by omega), ih (by omega), Option.map_none]

namespace H264RtpIngest

/-- What packet `j` publishes at the end of a stretch that begins with packet `start`. -/
def framesAt (s : StreamId) (units : List AccessUnit) (start j : ℕ) : List MediaFrame :=
  match locate units j with
  | none => []
  | some (u, first) =>
    if j + 1 = first + u.items.length then
      unitFrames s u.timestamp (nalsFrom u.timestamp (start - first) u.nals)
    else []

variable {base ing : H264RtpIngest} {s : StreamId} {u : AccessUnit} {us units : List AccessUnit}
  {payloadType : UInt8} {ssrc : UInt32} {seq : UInt16} {start j : ℕ}

theorem framesAt_cons_of_lt (h : j < u.items.length) (s : StreamId) (us : List AccessUnit)
    (start : ℕ) :
    framesAt s (u :: us) start j =
      if j + 1 = u.items.length then unitFrames s u.timestamp (nalsFrom u.timestamp start u.nals)
      else [] := by
  rw [framesAt, locate, if_pos h]
  dsimp only
  rw [Nat.zero_add, Nat.sub_zero]

theorem framesAt_cons_of_le (h : u.items.length ≤ j) (s : StreamId) (us : List AccessUnit)
    (start : ℕ) :
    framesAt s (u :: us) start j =
      framesAt s us (start - u.items.length) (j - u.items.length) := by
  rw [framesAt, locate, if_neg (by omega), framesAt]
  rcases locate us (j - u.items.length) with _ | ⟨v, first⟩
  · rfl
  · have hlast : j + 1 = first + u.items.length + v.items.length ↔
        j - u.items.length + 1 = first + v.items.length := by omega
    have hbehind : start - (first + u.items.length) = start - u.items.length - first := by omega
    rw [Option.map_some]
    simp only [hlast, hbehind]

/-- Packet by packet, a stretch in order publishes the access units that it ends. -/
theorem getElem?_trace_drop (h : Holds base s 0 []) (hstart : start ≤ j)
    (hj : j < (itemsOf units).length) :
    (trace collectItem base ((itemsOf units).drop start))[j - start]? =
      some (framesAt s units start j) := by
  induction units generalizing base start j with
  | nil => exact absurd hj (Nat.not_lt_zero j)
  | cons u us ih =>
    rw [itemsOf_cons, List.length_append] at hj
    rw [itemsOf_cons, List.drop_append]
    by_cases hbegin : start < u.items.length
    · -- the stretch begins in this unit
      obtain ⟨base', hitems, hholds⟩ :=
        atLast_dropItems (h.retime u.timestamp) u.sendable u.last hbegin
      change AtLast collectItem base (u.items.drop start) _ at hitems
      have hlen : (u.items.drop start).length = u.items.length - start := List.length_drop
      rw [Nat.sub_eq_zero_of_le (Nat.le_of_lt hbegin), List.drop_zero, trace_append]
      by_cases hin : j < u.items.length
      · have hlast : j - start + 1 = u.items.length - start ↔ j + 1 = u.items.length := by omega
        rw [List.getElem?_append_left (by rw [length_trace, hlen]; omega),
          hitems.getElem? (by rw [hlen]; omega), framesAt_cons_of_lt hin, hlen]
        simp only [hlast]
      · have hrest := ih (hholds.retime 0) (Nat.zero_le (j - u.items.length)) (by omega)
        rw [List.drop_zero, Nat.sub_zero] at hrest
        rw [List.getElem?_append_right (by rw [length_trace, hlen]; omega), length_trace, hlen,
          hitems.final_eq, framesAt_cons_of_le (by omega),
          Nat.sub_eq_zero_of_le (Nat.le_of_lt hbegin), ← hrest]
        congr 1
        omega
    · have hrest := ih h (show start - u.items.length ≤ j - u.items.length by omega) (by omega)
      rw [List.drop_of_length_le (by omega), List.nil_append, framesAt_cons_of_le (by omega),
        ← hrest]
      congr 1
      omega

/-! ## Stretches -/

theorem collectItem_streamId (ing : H264RtpIngest) (item : RtpItem) :
    (collectItem ing item).1.streamId = ing.streamId :=
  (collectPayload_streamId ing _ _ _).1

/-- A packet behind a gap is taken for what it carries, by an ingest that has forgotten the access
unit so far. -/
theorem collect_gap (hpt : payloadType < 0x80) {item : RtpItem} (hne : item.payload ≠ [])
    {expected : UInt16} (hseq : ing.expectedSeq = some expected) (hgap : seq ≠ expected) :
    ing.collect (buildRtpPacket payloadType seq item.timestamp ssrc item.marker item.payload) =
      ((collectItem ing.discardPartialAccessUnit item).1.withSeq (some (seq + 1)),
        (collectItem ing.discardPartialAccessUnit item).2) := by
  have haccept : ing.acceptSequence seq item.payload =
      (ing.discardPartialAccessUnit.withSeq (some (seq + 1)), !isFuAContinuation item.payload) := by
    rw [acceptSequence, hseq]
    exact if_neg hgap
  rw [collect, rtpH264PacketInfo_build hpt seq item.timestamp ssrc item.marker hne]
  dsimp only
  rw [haccept]
  cases hcont : isFuAContinuation item.payload with
  | true =>
    have hdropped : collectItem ing.discardPartialAccessUnit item =
        (ing.discardPartialAccessUnit, []) :=
      collectPayload_of_continuation rfl hcont
    rw [hdropped]
    rfl
  | false => exact collectPayload_withSeq ing.discardPartialAccessUnit _ _ _ _

theorem holds_discard (h : ing.streamId = s) : Holds ing.discardPartialAccessUnit s 0 [] :=
  ⟨h, rfl, rfl, rfl, fun hne => absurd rfl hne⟩

/-- The packets in order that came last: from `start` on, and before `next`. -/
structure Stretch where
  /-- The first packet. -/
  start : ℕ
  /-- The packet to come. -/
  next : ℕ
  deriving DecidableEq, Repr

/-- A packet comes: it goes on with the stretch, or begins another. -/
def Stretch.deliver (j : ℕ) : Option Stretch → Stretch
  | none => ⟨j, j + 1⟩
  | some st => if j = st.next then ⟨st.start, j + 1⟩ else ⟨j, j + 1⟩

/-- One of `packets` comes, **any** of them; beside the ingest runs the stretch that it has seen. -/
def deliver (packets : List (List UInt8)) :
    H264RtpIngest × Option Stretch → ℕ → Option (H264RtpIngest × Option Stretch)
  | (ing, stretch), j =>
    packets[j]?.map fun rtp => ((ing.collect rtp).1, some (Stretch.deliver j stretch))

/-- The packet has the number of the packet to come only if it is that packet. -/
def NoAlias : H264RtpIngest × Option Stretch → ℕ → Prop
  | (_, none), _ => True
  | (_, some st), j => UInt16.ofNat j = UInt16.ofNat st.next → j = st.next

instance : (r : H264RtpIngest × Option Stretch) → (j : ℕ) → Decidable (NoAlias r j)
  | (_, none), _ => .isTrue trivial
  | (_, some st), j =>
    inferInstanceAs (Decidable (UInt16.ofNat j = UInt16.ofNat st.next → j = st.next))

/-- The ingest is where the items of its stretch lead to from an ingest that holds nothing. -/
def InStretch (s : StreamId) (seq : UInt16) (units : List AccessUnit) :
    H264RtpIngest × Option Stretch → Prop
  | (ing, none) => Holds ing s 0 [] ∧ ing.expectedSeq = none
  | (ing, some st) =>
    st.start ≤ st.next ∧ ∃ base, Holds base s 0 [] ∧
      ing =
        (final collectItem base (((itemsOf units).drop st.start).take (st.next - st.start))).withSeq
        (some (seq + UInt16.ofNat st.next))

theorem payload_ne_nil_of_itemsOf {item : RtpItem} (h : item ∈ itemsOf units) :
    item.payload ≠ [] := by
  obtain ⟨u, -, hitem⟩ := List.mem_flatMap.mp h
  exact payload_ne_nil_of_unitItems item hitem

theorem InStretch.start_deliver_le {stretch : Option Stretch}
    (h : InStretch s seq units (ing, stretch)) (j : ℕ) :
    (Stretch.deliver j stretch).start ≤ j ∧ (Stretch.deliver j stretch).next = j + 1 := by
  rcases stretch with _ | st
  · exact ⟨Nat.le_refl j, rfl⟩
  · rw [Stretch.deliver]
    split
    · next hj => exact ⟨hj ▸ h.1, rfl⟩
    · exact ⟨Nat.le_refl j, rfl⟩

/-- **One packet**: it is taken as the next of its stretch. -/
theorem collect_deliver (hpt : payloadType < 0x80) (ssrc : UInt32) {stretch : Option Stretch}
    (hI : InStretch s seq units (ing, stretch)) (hno : NoAlias (ing, stretch) j) {item : RtpItem}
    (hitem : (itemsOf units)[j]? = some item) :
    ∃ base mid, Holds base s 0 [] ∧
      mid = final collectItem base (((itemsOf units).drop (Stretch.deliver j stretch).start).take
        (j - (Stretch.deliver j stretch).start)) ∧
      ing.collect (buildRtpPacket payloadType (seq + UInt16.ofNat j) item.timestamp ssrc item.marker
        item.payload) =
          ((collectItem mid item).1.withSeq (some (seq + UInt16.ofNat j + 1)),
              (collectItem mid item).2) := by
  have hne := payload_ne_nil_of_itemsOf (List.mem_of_getElem? hitem)
  rcases stretch with _ | st
  · obtain ⟨hholds, hseq⟩ := hI
    refine ⟨ing, ing, hholds, ?_, collect_build hpt hne ing (.inl hseq)⟩
    rw [Stretch.deliver, Nat.sub_self, List.take_zero, final_nil]
  · obtain ⟨hle, base, hbase, rfl⟩ := hI
    rw [Stretch.deliver]
    by_cases hj : j = st.next
    · -- the packet goes on with the stretch
      rw [if_pos hj, ← hj]
      refine ⟨base, _, hbase, rfl, ?_⟩
      rw [collect_build hpt hne _ (.inr rfl), collectItem_withSeq]
      rfl
    · -- a gap, which the numbers show
      have hgap : seq + UInt16.ofNat j ≠ seq + UInt16.ofNat st.next := fun h =>
        hj (hno ((UInt16.add_right_inj _).mp h))
      rw [if_neg hj]
      have hs : (final collectItem base (((itemsOf units).drop st.start).take
          (st.next - st.start))).streamId = s :=
        final_inv (I := fun ing => ing.streamId = s)
          (fun ing item h => (collectItem_streamId ing item).trans h) hbase.streamId _
      generalize final collectItem base _ = last at hs
      refine ⟨(last.withSeq (some (seq + UInt16.ofNat st.next))).discardPartialAccessUnit, _,
        holds_discard hs, ?_, collect_gap hpt hne rfl hgap⟩
      rw [Nat.sub_self, List.take_zero, final_nil]

/-- A stretch stays one. -/
theorem InStretch.deliver (hpt : payloadType < 0x80) (ssrc : UInt32) {stretch : Option Stretch}
    (hI : InStretch s seq units (ing, stretch)) (hno : NoAlias (ing, stretch) j)
    {r : H264RtpIngest × Option Stretch}
    (hstep : deliver (packetsOf payloadType ssrc seq units) (ing, stretch) j = some r) :
    InStretch s seq units r := by
  rw [H264RtpIngest.deliver, packetsOf_eq, getElem?_numbered] at hstep
  obtain ⟨rtp, hrtp, rfl⟩ := Option.map_eq_some_iff.mp hstep
  obtain ⟨item, hitem, rfl⟩ := Option.map_eq_some_iff.mp hrtp
  obtain ⟨base, mid, hbase, rfl, hcollect⟩ := collect_deliver hpt ssrc hI hno hitem
  obtain ⟨hle, hnext⟩ := hI.start_deliver_le j
  refine ⟨by omega, base, hbase, ?_⟩
  rw [hcollect, hnext, Nat.sub_add_comm hle, List.take_add_one, List.getElem?_drop,
    Nat.add_sub_cancel' hle, hitem, Option.toList_some, final_append, UInt16.ofNat_add,
    UInt16.add_assoc]
  rfl

/-- What a packet publishes is what it ends. -/
theorem InStretch.frames (hpt : payloadType < 0x80) (ssrc : UInt32) {stretch : Option Stretch}
    (hI : InStretch s seq units (ing, stretch)) (hno : NoAlias (ing, stretch) j) {rtp : List UInt8}
    (hrtp : (packetsOf payloadType ssrc seq units)[j]? = some rtp) :
    (ing.collect rtp).2 = framesAt s units (Stretch.deliver j stretch).start j := by
  rw [packetsOf_eq, getElem?_numbered] at hrtp
  obtain ⟨item, hitem, rfl⟩ := Option.map_eq_some_iff.mp hrtp
  obtain ⟨base, mid, hbase, rfl, hcollect⟩ := collect_deliver hpt ssrc hI hno hitem
  obtain ⟨hle, -⟩ := hI.start_deliver_le j
  have htrace := getElem?_trace_drop hbase hle (List.getElem?_eq_some_iff.mp hitem).1
  rw [getElem?_trace, List.getElem?_drop, Nat.add_sub_cancel' hle, hitem, Option.map_some] at htrace
  rw [hcollect]
  exact Option.some.inj htrace

/-! ## Whole access units -/

/-- Every frame that a packet publishes is of the access unit of the packet, and has **all slices**
of it. -/
def Whole (packets : List (List UInt8)) (units : List AccessUnit) :
    H264RtpIngest × Option Stretch → ℕ → Prop
  | (ing, _), j => ∀ rtp, packets[j]? = some rtp → ∀ frame ∈ (ing.collect rtp).2,
    ∃ u first, locate units j = some (u, first) ∧ frame.timestamp = u.timestamp.toUInt64 ∧
      (u.nals.filter isSlice).Sublist (iterAnnexBNalRanges frame.data)

/-- If an access unit ends with the packet, all of its slices begin in the stretch, or none. -/
def Intact (units : List AccessUnit) : H264RtpIngest × Option Stretch → ℕ → Prop
  | (_, stretch), j => ∀ u ∈ locate units j, j + 1 = u.2 + u.1.items.length →
    let seen := nalsFrom u.1.timestamp ((Stretch.deliver j stretch).start - u.2) u.1.nals
    seen.filter isSlice = [] ∨ seen.filter isSlice = u.1.nals.filter isSlice

instance (units : List AccessUnit) :
    (r : H264RtpIngest × Option Stretch) → (j : ℕ) → Decidable (Intact units r j)
  | (_, stretch), j =>
    inferInstanceAs (Decidable (∀ u ∈ locate units j, j + 1 = u.2 + u.1.items.length →
      (nalsFrom u.1.timestamp ((Stretch.deliver j stretch).start - u.2) u.1.nals).filter isSlice =
        [] ∨
        (nalsFrom u.1.timestamp ((Stretch.deliver j stretch).start - u.2) u.1.nals).filter isSlice =
          u.1.nals.filter isSlice))

/-- A frame of some units of an access unit has the slices **among them**. -/
theorem slices_unitFrame {nals seen : List (List UInt8)} (hsend : ∀ nal ∈ nals, SendableNal nal)
    (hseen : seen <:+ nals) (hslice : seen.filter isSlice ≠ []) (s : StreamId) (ts : UInt32) :
    (nals.filter isSlice).Sublist (iterAnnexBNalRanges (unitFrame s ts seen).data) ↔
      seen.filter isSlice = nals.filter isSlice := by
  have hkept : (seen.filter isKept).filter isSlice = seen.filter isSlice := by
    rw [List.filter_filter]
    refine List.filter_congr fun nal _ => ?_
    cases hs : isSlice nal with
    | false => rfl
    | true => rw [isKept_of_isSlice hs, Bool.and_true]
  have hne : seen.filter isKept ≠ [] := by
    intro hnil
    rw [hnil] at hkept
    exact hslice hkept.symm
  have hdata : iterAnnexBNalRanges (unitFrame s ts seen).data = seen.filter isKept :=
    iterAnnexBNalRanges_annexB hne fun nal hnal =>
      (hsend nal (hseen.subset (List.mem_filter.mp hnal).1)).toFindable
  rw [hdata]
  constructor
  · intro h
    have hall := h.filter isSlice
    rw [List.filter_filter, hkept] at hall
    simp only [Bool.and_self] at hall
    exact (hseen.filter isSlice).sublist.antisymm hall
  · intro h
    rw [← h, ← hkept]
    exact List.filter_sublist

/-- The rule for **one packet**. -/
theorem InStretch.whole_iff (hpt : payloadType < 0x80) (ssrc : UInt32) {stretch : Option Stretch}
    (hI : InStretch s seq units (ing, stretch)) (hno : NoAlias (ing, stretch) j) :
    Whole (packetsOf payloadType ssrc seq units) units (ing, stretch) j ↔
      Intact units (ing, stretch) j := by
  rw [Whole, Intact]
  cases hrtp : (packetsOf payloadType ssrc seq units)[j]? with
  | none =>
    have hlen : (itemsOf units).length ≤ j := by
      rw [packetsOf_eq, getElem?_numbered, Option.map_eq_none_iff] at hrtp
      exact List.getElem?_eq_none_iff.mp hrtp
    rw [locate_of_length_le hlen]
    simp
  | some rtp =>
    have hframes := hI.frames hpt ssrc hno hrtp
    rw [framesAt] at hframes
    simp only [Option.some.injEq, forall_eq', hframes]
    rcases locate units j with _ | ⟨u, first⟩
    · simp
    · simp only [Option.some.injEq, Option.mem_def, forall_eq']
      by_cases hlast : j + 1 = first + u.items.length
      · have hseen := nalsFrom_suffix u.timestamp ((Stretch.deliver j stretch).start - first) u.nals
        generalize nalsFrom u.timestamp ((Stretch.deliver j stretch).start - first) u.nals =
          seen at hseen
        rw [if_pos hlast, unitFrames]
        by_cases hslice : seen.filter isSlice = []
        · have hany : seen.any isSlice = false := by
            rw [← Bool.not_eq_true, List.any_eq_true]
            rintro ⟨nal, hmem, hnal⟩
            exact List.not_mem_nil (hslice ▸ List.mem_filter.mpr ⟨hmem, hnal⟩)
          simp [hany, hslice]
        · have hany : seen.any isSlice = true := by
            obtain ⟨nal, hmem⟩ := List.exists_mem_of_ne_nil _ hslice
            exact List.any_eq_true.mpr ⟨nal, List.mem_filter.mp hmem⟩
          have hslices := slices_unitFrame u.sendable hseen hslice s u.timestamp
          rw [if_pos hany, List.forall_mem_singleton]
          constructor
          · rintro ⟨_, _, heq, -, hsub⟩ _
            cases heq
            exact .inr (hslices.mp hsub)
          · intro h
            exact ⟨u, first, rfl, rfl, hslices.mpr ((h hlast).resolve_left hslice)⟩
      · simp [hlast]

end H264RtpIngest

section

open H264RtpIngest

variable {s : StreamId} {units : List AccessUnit} {payloadType : UInt8} {ssrc : UInt32}
    {seq : UInt16}

/-- Packets lost, doubled or in another order: while the numbers tell the packets apart, every frame
that is published has all slices of its access unit **exactly if** no access unit ends a stretch in
which some of its slices begin and others do not. -/
theorem always_whole_iff (hpt : payloadType < 0x80) {js : List ℕ}
    (hno : Always (deliver (packetsOf payloadType ssrc seq units)) NoAlias (.new s, none) js) :
    Always (deliver (packetsOf payloadType ssrc seq units))
        (Whole (packetsOf payloadType ssrc seq units) units) (.new s, none) js ↔
      Always (deliver (packetsOf payloadType ssrc seq units)) (Intact units) (.new s, none) js := by
  have hnew : InStretch s seq units (.new s, none) := ⟨holds_new s, rfl⟩
  exact always_iff_of_always (fun _ _ hI hno => hI.whole_iff hpt ssrc hno)
    (fun _ _ _ hI hno _ hstep => hI.deliver hpt ssrc hno hstep) hnew hno

/-- An access unit of two slices. -/
def twoSlices : AccessUnit where
  timestamp := 90000
  nals := [[0x41, 1], [0x41, 2]]
  sendable := by
    refine List.forall_mem_cons.mpr ⟨?_, List.forall_mem_singleton.mpr ?_⟩
    · exact ⟨⟨by decide, by decide⟩, by decide, by decide, by decide⟩
    · exact ⟨⟨by decide, by decide⟩, by decide, by decide, by decide⟩
  slice := ⟨[0x41, 1], by decide, by decide⟩
  last := by decide

/-- Of two access units, the first is lost but for its first packet, and the second comes twice. -/
theorem whole_of_lost_marker :
    Always (deliver (packetsOf 96 1 65535 [twoSlices, twoSlices]))
      (Whole (packetsOf 96 1 65535 [twoSlices, twoSlices]) [twoSlices, twoSlices])
      (.new "cam", none) [0, 2, 3, 2, 3] :=
  (always_whole_iff (by decide) (by decide)).mpr (by decide)

/-- After a whole access unit the first packet of the next is lost, and what the second one
publishes is **half** of the access unit. -/
theorem not_whole_of_lost_slice :
    ¬ Always (deliver (packetsOf 96 1 0 [twoSlices, twoSlices]))
      (Whole (packetsOf 96 1 0 [twoSlices, twoSlices]) [twoSlices, twoSlices]) (.new "cam", none)
      [0, 1, 3] := by
  intro h
  obtain ⟨u, first, hu, -, hslices⟩ := always_iff.mp h [0, 1] 3 (List.prefix_refl _) _ rfl _ rfl
    (unitFrame "cam" 90000 [[0x41, 2]]) (by decide)
  obtain ⟨rfl, -⟩ := Prod.mk.inj (Option.some.inj hu)
  exact absurd hslices (by decide)

end

end VcpMediaServer
