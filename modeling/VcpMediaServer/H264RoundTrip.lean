import VcpMediaServer.H264Assemble

/-!
# H264 over RTP, there and back

Access units are cut into packets with one **running number** and fed to a new ingest.

* `AccessUnit` — a well formed access unit.
* `atLast_numbered` — the number in a packet does not matter while it is the expected one.
* `trace_packets` — every access unit is given at its last packet, the one with the marker.
* `publishesUnits_iff` — every access unit is published exactly once, at the marker, **exactly
  if** the ring of the stream can take them: the push of a frame into a ring whose newest GOP
  does not fit never returns.
-/

namespace VcpMediaServer

open Mealy Lts

/-! ## Access units -/

/-- An access unit: NAL units that can be sent, a slice among them, with one that is kept at the
end. -/
structure AccessUnit where
  /-- The timestamp of the access unit. -/
  timestamp : UInt32
  /-- Its NAL units. -/
  nals : List (List UInt8)
  sendable : ∀ nal ∈ nals, SendableNal nal
  slice : ∃ slice ∈ nals, isSlice slice = true
  last : ∀ nal ∈ nals.getLast?, isKept nal = true

namespace AccessUnit

variable (u : AccessUnit)

theorem nals_ne_nil : u.nals ≠ [] := by
  obtain ⟨slice, hmem, -⟩ := u.slice
  exact List.ne_nil_of_mem hmem

/-- The frame of the access unit: its units but for SPS, PPS and delimiters, with its timestamp. -/
def frame (s : StreamId) : MediaFrame := H264RtpIngest.unitFrame s u.timestamp u.nals

/-- What its packets carry. -/
def items : List RtpItem := unitItems u.timestamp u.nals

/-- Its packets from `seq` on, and the number to come. -/
def packets (payloadType : UInt8) (ssrc : UInt32) (seq : UInt16) : List (List UInt8) × UInt16 :=
  packetizeH264AccessUnitForRtp (annexB u.nals) payloadType seq u.timestamp ssrc

theorem packets_eq (payloadType : UInt8) (ssrc : UInt32) (seq : UInt16) :
    u.packets payloadType ssrc seq =
      (numbered payloadType ssrc seq u.items, seq + UInt16.ofNat u.items.length) :=
  packetizeAccessUnit_eq u.nals_ne_nil (fun nal hnal => (u.sendable nal hnal).toFindable) seq

end AccessUnit

/-- The packets of access units, with one running number. -/
def packetsOf (payloadType : UInt8) (ssrc : UInt32) : UInt16 → List AccessUnit → List (List UInt8)
  | _, [] => []
  | seq, u :: us =>
    (u.packets payloadType ssrc seq).1 ++
      packetsOf payloadType ssrc (u.packets payloadType ssrc seq).2 us

/-- What is to be published, packet by packet: the frame of each access unit at its last packet. -/
def framesOf (payloadType : UInt8) (ssrc : UInt32) (s : StreamId) :
    UInt16 → List AccessUnit → List (List MediaFrame)
  | _, [] => []
  | seq, u :: us =>
    List.replicate ((u.packets payloadType ssrc seq).1.length - 1) [] ++ [u.frame s] ::
      framesOf payloadType ssrc s (u.packets payloadType ssrc seq).2 us

theorem flatten_framesOf (payloadType : UInt8) (ssrc : UInt32) (s : StreamId) (seq : UInt16)
    (units : List AccessUnit) :
    (framesOf payloadType ssrc s seq units).flatten = units.map fun u => u.frame s := by
  induction units generalizing seq with
  | nil => rfl
  | cons u us ih =>
    rw [framesOf, List.flatten_append, List.flatten_replicate_nil, List.flatten_cons, ih]
    rfl

/-! ## Numbers -/

namespace H264RtpIngest

/-- Another number to come. -/
def withSeq (ing : H264RtpIngest) (expectedSeq : Option UInt16) : H264RtpIngest :=
  { ing with expectedSeq }

/-- The packet with the number `seq` is the next. -/
def Expects (ing : H264RtpIngest) (seq : UInt16) : Prop :=
  ing.expectedSeq = none ∨ ing.expectedSeq = some seq

variable {ing : H264RtpIngest} {seq : UInt16} {payloadType : UInt8} {ssrc : UInt32}

theorem takeUnit_withSeq (ing : H264RtpIngest) (e : Option UInt16) :
    (ing.withSeq e).takeUnit = (ing.takeUnit.1.withSeq e, ing.takeUnit.2) := by
  rw [takeUnit, takeUnit]
  change (if ing.batch.parts = [] then _ else if containsVclNalu ing.batch.parts.flatten then _
    else _) = _
  split
  · rfl
  · split <;> rfl

theorem takeIf_withSeq (ing : H264RtpIngest) (e : Option UInt16) (ends : Bool) :
    (ing.withSeq e).takeIf ends = ((ing.takeIf ends).1.withSeq e, (ing.takeIf ends).2) := by
  cases ends with
  | false => rfl
  | true => exact takeUnit_withSeq ing e

theorem collectFrame_withSeq (ing : H264RtpIngest) (e : Option UInt16) (frame : MediaFrame)
    (ts : UInt32) (marker : Bool) :
    (ing.withSeq e).collectFrame frame ts marker =
      ((ing.collectFrame frame ts marker).1.withSeq e, (ing.collectFrame frame ts marker).2) := by
  have hbatch : (ing.withSeq e).batch = ing.batch := rfl
  have hadd : ∀ i : H264RtpIngest, (i.withSeq e).addPart frame ts =
      (i.addPart frame ts).withSeq e :=
    fun _ => rfl
  rw [collectFrame, collectFrame]
  split
  · rfl
  · simp only [hbatch, takeIf_withSeq, hadd]

theorem collectPayload_withSeq (ing : H264RtpIngest) (e : Option UInt16) (payload : List UInt8)
    (ts : UInt32) (marker : Bool) :
    (ing.withSeq e).collectPayload payload ts marker =
      ((ing.collectPayload payload ts marker).1.withSeq e,
        (ing.collectPayload payload ts marker).2) := by
  have hframe : payloadFrame (ing.withSeq e).depacketizer (ing.withSeq e).streamId payload ts =
      payloadFrame ing.depacketizer ing.streamId payload ts := rfl
  rw [collectPayload, collectPayload, hframe]
  split
  · rfl
  · rcases payloadFrame ing.depacketizer ing.streamId payload ts with ⟨d, _ | frame⟩
    · rfl
    · exact collectFrame_withSeq { ing with depacketizer := d } e frame ts marker

theorem collectItem_withSeq (ing : H264RtpIngest) (e : Option UInt16) (item : RtpItem) :
    (ing.withSeq e).collectItem item =
      ((ing.collectItem item).1.withSeq e, (ing.collectItem item).2) :=
  collectPayload_withSeq ing e _ _ _

/-- The packet that is the next is taken for what it carries. -/
theorem collect_build (hpt : payloadType < 0x80) {item : RtpItem} (hne : item.payload ≠ [])
    (ing : H264RtpIngest) (h : ing.Expects seq) :
    ing.collect (buildRtpPacket payloadType seq item.timestamp ssrc item.marker item.payload) =
      ((ing.collectItem item).1.withSeq (some (seq + 1)), (ing.collectItem item).2) := by
  have haccept : ing.acceptSequence seq item.payload = (ing.withSeq (some (seq + 1)), true) := by
    rw [acceptSequence]
    rcases h with h | h
    · rw [h]
      rfl
    · rw [h]
      exact if_pos rfl
  rw [collect, rtpH264PacketInfo_build hpt seq item.timestamp ssrc item.marker hne]
  dsimp only
  rw [haccept]
  exact collectPayload_withSeq ing _ _ _ _

/-- The number in a packet **does not matter** while it is the expected one. -/
theorem run_numbered (hpt : payloadType < 0x80) {items : List RtpItem}
    (hne : ∀ item ∈ items, item.payload ≠ []) (ing : H264RtpIngest) {e : Option UInt16}
    (he : e = none ∨ e = some seq) :
    trace collect (ing.withSeq e) (numbered payloadType ssrc seq items) =
      trace collectItem ing items ∧
      (items ≠ [] → final collect (ing.withSeq e) (numbered payloadType ssrc seq items) =
        (final collectItem ing items).withSeq (some (seq + UInt16.ofNat items.length))) := by
  induction items generalizing ing seq e with
  | nil => exact ⟨rfl, fun h => absurd rfl h⟩
  | cons item items ih =>
    obtain ⟨hitem, hitems⟩ := List.forall_mem_cons.mp hne
    have hstep : (ing.withSeq e).collect
        (buildRtpPacket payloadType seq item.timestamp ssrc item.marker item.payload) =
          ((ing.collectItem item).1.withSeq (some (seq + 1)), (ing.collectItem item).2) := by
      rw [collect_build hpt hitem (ing.withSeq e) he, collectItem_withSeq]
      rfl
    obtain ⟨htrace, hfinal⟩ := ih hitems (ing.collectItem item).1 (e := some (seq + 1)) (.inr rfl)
    refine ⟨?_, fun _ => ?_⟩
    · rw [numbered, trace_cons, hstep, htrace, trace_cons]
    · rw [numbered, final_cons, hstep, final_cons]
      by_cases hend : items = []
      · rw [hend]
        rfl
      · rw [hfinal hend, List.length_cons, UInt16.ofNat_add, UInt16.add_assoc, UInt16.add_comm 1]
        rfl

/-- The items of a run, in packets that are numbered on. -/
theorem atLast_numbered (hpt : payloadType < 0x80) {items : List RtpItem}
    {r : H264RtpIngest × List MediaFrame} (h : ing.Expects seq)
    (hne : ∀ item ∈ items, item.payload ≠ []) (hitems : AtLast collectItem ing items r) :
    AtLast collect ing (numbered payloadType ssrc seq items)
      (r.1.withSeq (some (seq + UInt16.ofNat items.length)), r.2) := by
  obtain ⟨htrace, hfinal⟩ := run_numbered hpt hne ing h
  have hself : ing.withSeq ing.expectedSeq = ing := rfl
  have hlen : (numbered payloadType ssrc seq items).length = items.length := by
    rw [← length_trace (ing.withSeq ing.expectedSeq), htrace, length_trace]
  rw [hself] at htrace hfinal
  exact ⟨by rw [htrace, hitems.trace_eq, hlen], by rw [hfinal hitems.ne_nil, hitems.final_eq]⟩

theorem payload_ne_nil_of_fuItems {ts : UInt32} {marker : Bool} {fuIndicator nalType : UInt8}
    {isStart : Bool} {rest : List (List UInt8)} :
    ∀ item ∈ fuItems ts marker fuIndicator nalType isStart rest, item.payload ≠ [] := by
  induction rest generalizing isStart with
  | nil => simp [fuItems]
  | cons piece rest ih =>
    rw [fuItems]
    exact List.forall_mem_cons.mpr ⟨by simp, ih⟩

theorem payload_ne_nil_of_unitItems {ts : UInt32} {nals : List (List UInt8)} :
    ∀ item ∈ unitItems ts nals, item.payload ≠ [] := by
  induction nals with
  | nil => simp [unitItems]
  | cons nal nals ih =>
    intro item hitem
    rw [unitItems, List.mem_append] at hitem
    rcases hitem with hitem | hitem
    · cases nal with
      | nil => simp [nalItems] at hitem
      | cons b data =>
        rw [nalItems] at hitem
        split at hitem
        · rw [List.mem_singleton.mp hitem]
          exact List.cons_ne_nil _ _
        · exact payload_ne_nil_of_fuItems item hitem
    · exact ih item hitem

/-! ## Runs -/

variable {s : StreamId}

/-- **One access unit** after whole ones: it is given at its last packet, and nothing before. -/
theorem atLast_packets (hpt : payloadType < 0x80) (ssrc : UInt32) (u : AccessUnit)
    (hseq : ing.Expects seq) {ts : UInt32} (h : Holds ing s ts []) :
    ∃ ing', AtLast collect ing (u.packets payloadType ssrc seq).1 (ing', [u.frame s]) ∧
      Holds ing' s ts [] ∧ ing'.Expects (u.packets payloadType ssrc seq).2 := by
  obtain ⟨ing', hitems, hholds⟩ := atLast_unitItems (h.retime u.timestamp) u.nals_ne_nil u.sendable
    u.last
  have hframes : unitFrames s u.timestamp ([] ++ u.nals) = [u.frame s] :=
    if_pos (List.any_eq_true.mpr u.slice)
  rw [hframes] at hitems
  have hholds := hholds.retime ts
  refine ⟨ing'.withSeq (some (seq + UInt16.ofNat u.items.length)), ?_,
    ⟨hholds.streamId, hholds.whole, hholds.parts, hholds.isKeyframe, hholds.timestamp⟩, ?_⟩
  · rw [u.packets_eq]
    exact atLast_numbered hpt hseq payload_ne_nil_of_unitItems hitems
  · rw [u.packets_eq]
    exact .inr rfl

/-- Access units one after the other: **each** is given at its last packet. -/
theorem trace_packetsOf (hpt : payloadType < 0x80) (units : List AccessUnit)
    (hseq : ing.Expects seq) {ts : UInt32} (h : Holds ing s ts []) :
    trace collect ing (packetsOf payloadType ssrc seq units) =
      framesOf payloadType ssrc s seq units := by
  induction units generalizing ing seq with
  | nil => rfl
  | cons u us ih =>
    obtain ⟨ing', hunit, hholds, hseq'⟩ := atLast_packets hpt ssrc u hseq h
    rw [packetsOf, trace_append, hunit.trace_eq, hunit.final_eq, ih hseq' hholds, framesOf,
      List.append_assoc]
    rfl

theorem holds_new (s : StreamId) : Holds (new s) s 0 [] :=
  ⟨rfl, rfl, rfl, rfl, fun h => absurd rfl h⟩

end H264RtpIngest

/-! ## In the ring -/

/-- Fed to a new ingest, the packets of the access units publish **each of them once**: after every
packet, the ring of the stream is what it was with the frames of the access units pushed that
are complete. -/
def PublishesUnits (m : StreamManager) (s : StreamId) (payloadType : UInt8) (ssrc : UInt32)
    (seq : UInt16) (units : List AccessUnit) : Prop :=
  ∀ k ≤ (packetsOf payloadType ssrc seq units).length, ∃ m' ing',
    exec H264RtpIngest.feed (m, .new s) ((packetsOf payloadType ssrc seq units).take k) =
      some (m', ing') ∧
      exec pushInto (m.ring s) ((framesOf payloadType ssrc s seq units).take k).flatten =
        some (m'.ring s)

variable {m : StreamManager} {s : StreamId} {hub : StreamHub} {payloadType : UInt8}

/-- The access units are published as soon as the pushes return. -/
theorem publishesUnits_iff_exec (hhub : m.getHub s = some hub) (hpt : payloadType < 0x80)
    (ssrc : UInt32) (seq : UInt16) (units : List AccessUnit) :
    PublishesUnits m s payloadType ssrc seq units ↔
      (exec FrameRing.push hub.ring (units.map fun u => u.frame s)).isSome := by
  have hring : m.ring s = some hub.ring := by rw [StreamManager.ring, hhub, Option.map_some]
  have htrace : trace H264RtpIngest.collect (.new s) (packetsOf payloadType ssrc seq units) =
      framesOf payloadType ssrc s seq units :=
    H264RtpIngest.trace_packetsOf hpt units (.inl rfl) (H264RtpIngest.holds_new s)
  have hflat := flatten_framesOf payloadType ssrc s seq units
  have hlen : (framesOf payloadType ssrc s seq units).length =
      (packetsOf payloadType ssrc seq units).length := by
    rw [← htrace, length_trace]
  constructor
  · intro h
    obtain ⟨m', ing', -, hpush⟩ := h _ (Nat.le_refl _)
    rw [List.take_of_length_le (Nat.le_of_eq hlen), hflat, hring, exec_pushInto] at hpush
    exact Option.isSome_map .. ▸ Option.isSome_of_eq_some hpush
  · intro h k hk
    -- the frames so far are an initial part of a run that gets to its end
    have hsome : ∃ r, exec FrameRing.push hub.ring
        ((framesOf payloadType ssrc s seq units).take k).flatten = some r := by
      have hsplit : units.map (fun u => u.frame s) =
          ((framesOf payloadType ssrc s seq units).take k).flatten ++
            ((framesOf payloadType ssrc s seq units).drop k).flatten := by
        rw [← List.flatten_append, List.take_append_drop, hflat]
      rw [hsplit, exec_append] at h
      obtain ⟨r, hr⟩ := Option.isSome_iff_exists.mp h
      obtain ⟨r', hr', -⟩ := Option.bind_eq_some_iff.mp hr
      exact ⟨r', hr'⟩
    obtain ⟨r, hr⟩ := hsome
    have hfeed := H264RtpIngest.exec_feed m (.new s) ((packetsOf payloadType ssrc seq units).take k)
    rw [trace_take, htrace] at hfeed
    change Option.map (fun r : StreamManager × H264RtpIngest => (r.1.ring s, r.2)) _ = _ at hfeed
    change _ = Option.map _ (exec pushInto (m.ring s) _) at hfeed
    rw [hring, exec_pushInto, hr, Option.map_some, Option.map_some] at hfeed
    obtain ⟨⟨m', ing'⟩, hexec, heq⟩ := Option.map_eq_some_iff.mp hfeed
    refine ⟨m', ing', hexec, ?_⟩
    rw [hring, exec_pushInto, hr, Option.map_some]
    exact congrArg some (congrArg Prod.fst heq).symm

/-- An access unit of one slice. -/
def sliceUnit (idr : Bool) : AccessUnit where
  timestamp := 0
  nals := [[if idr then 0x65 else 0x41]]
  sendable := by
    cases idr <;> exact List.forall_mem_singleton.mpr
      ⟨⟨by decide, by decide⟩, by decide, by decide, by decide⟩
  slice := by
    cases idr <;> exact ⟨_, List.mem_singleton_self _, rfl⟩
  last := by
    cases idr <;> simp [isKept] <;> decide

/-- **Round trip**: after the history of the ring, every access unit is published once, at its last
packet and with its frame, exactly if the newest GOP fits with every access unit. -/
theorem publishesUnits_iff {history : List MediaFrame} (hhub : m.getHub s = some hub)
    (hhistory : exec FrameRing.push FrameRing.new history = some hub.ring)
    (hpt : payloadType < 0x80) (ssrc : UInt32) (seq : UInt16) (units : List AccessUnit) :
    PublishesUnits m s payloadType ssrc seq units ↔
      ∀ pre, pre <+: units → pre ≠ [] →
        NewestGopFits DEFAULT_CAPACITY_FRAMES DEFAULT_CAPACITY_BYTES
          (history ++ pre.map fun u => u.frame s) := by
  rw [publishesUnits_iff_exec hhub hpt, exec_push_isSome_iff hhistory]
  constructor
  · intro h pre hpre hne
    exact h _ (hpre.map _) (by simpa using hne)
  · intro h pre hpre hne
    obtain ⟨pre, hpre', rfl⟩ := List.prefix_map_iff.mp hpre
    exact h pre hpre' (by simpa using hne)

/-- Two access units on a stream just made, with numbers that wrap around. -/
theorem publishesUnits_of_two :
    PublishesUnits (StreamManager.new.createStream "cam" .push .rtsp none).1 "cam" 96 1 65535
      [sliceUnit true, sliceUnit false] := by
  have hhub : (StreamManager.new.createStream "cam" .push .rtsp none).1.getHub "cam" =
      some (StreamHub.withStream ((StreamManager.new.createStream "cam" .push .rtsp none).2)) := rfl
  apply (publishesUnits_iff hhub (Lts.exec_nil FrameRing.new) (by decide) 1 65535 _).mpr
  intro pre hpre hne
  rcases pre with _ | ⟨u, pre⟩
  · exact absurd rfl hne
  obtain ⟨rfl, htail⟩ := List.cons_prefix_cons.mp hpre
  rcases pre with _ | ⟨v, pre⟩
  · decide
  obtain ⟨rfl, hnil⟩ := List.cons_prefix_cons.mp htail
  obtain rfl := List.prefix_nil.mp hnil
  decide

/-! ## Long groups of pictures -/

theorem keySeqs_replicate {key p : MediaFrame} (hkey : isVideoKeyframe key = true)
    (hp : isVideoKeyframe p = false) (n : ℕ) : keySeqs (key :: List.replicate n p) = [0] := by
  induction n with
  | zero => exact (keySeqs_concat [] key).trans (by rw [hkey]; rfl)
  | succ n ih =>
    rw [List.replicate_succ', ← List.cons_append, keySeqs_concat, ih, hp]
    rfl

/-- A flagged key frame with more frames behind it than the ring has room for. -/
theorem not_newestGopFits {key p : MediaFrame} (hkey : isVideoKeyframe key = true)
    (hflag : key.isFlaggedKeyframe = true) (hp : isVideoKeyframe p = false) {cf n : ℕ}
    (hn : cf ≤ n) (hpos : 0 < n) (cb : ℕ) :
    ¬ NewestGopFits cf cb (key :: List.replicate n p) := by
  have hgop : newestGop (key :: List.replicate n p) = key :: List.replicate n p := by
    rw [newestGop, keySeqs_replicate hkey hp]
    rfl
  rw [NewestGopFits, hgop, List.length_cons, List.length_replicate]
  rintro (hshort | hunflagged | ⟨hlong, -⟩)
  · omega
  · rw [List.head?_cons, Option.any_some, hflag] at hunflagged
    cases hunflagged
  · omega

/-- An IDR picture and 512 others on a stream just made: the last is **not** published. -/
theorem not_publishesUnits_of_long_gop :
    ¬ PublishesUnits (StreamManager.new.createStream "cam" .push .rtsp none).1 "cam" 96 1 0
      (sliceUnit true :: List.replicate 512 (sliceUnit false)) := by
  intro h
  have hhub : (StreamManager.new.createStream "cam" .push .rtsp none).1.getHub "cam" =
      some (StreamHub.withStream ((StreamManager.new.createStream "cam" .push .rtsp none).2)) := rfl
  rw [publishesUnits_iff_exec hhub (by decide)] at h
  have hfits := (exec_push_isSome_iff (Lts.exec_nil FrameRing.new) _).mp h _ (List.prefix_refl _)
    (List.cons_ne_nil _ _)
  rw [List.nil_append, List.map_cons, List.map_replicate] at hfits
  exact not_newestGopFits (by decide) (by decide) (by decide) (Nat.le_refl 512) (by decide) _ hfits

end VcpMediaServer
