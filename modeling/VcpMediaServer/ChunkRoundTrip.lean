import VcpMediaServer.ChunkWire
import VcpMediaServer.FuelLoop

/-!
# Messages that are read back

The sending half of `rtmp/chunk.rs`: a message is one chunk of type 0, and then chunks of type
3, all with the chunk size of the sender.

* `encodeMessage` — the bytes of a message. The loop moves on by the chunk size, and never ends
  if that is zero.
* `messageChunks` — the same bytes, **chunk by chunk**.
* `takeAll_interleaved` — the messages of any chunk streams, their chunks interleaved in any
  way, are read back in the order in which they are completed.
-/

namespace VcpMediaServer

/-! ## Encoding -/

/-- `encode_basic_header`. -/
def encodeBasicHeader (fmt : UInt8) (csId : ℕ) : List UInt8 :=
  if csId < 64 then [(fmt <<< 6) ||| UInt8.ofNat csId]
  else if csId < 320 then [(fmt <<< 6) ||| 0, UInt8.ofNat (csId - 64)]
  else [(fmt <<< 6) ||| 1, UInt8.ofNat (csId - 64), UInt8.ofNat ((csId - 64) / 256)]

/-- `encode_type0_header`. -/
def encodeType0Header (timestamp : UInt32) (msgLength : ℕ) (msgType : UInt8)
    (msgStreamId : UInt32) : List UInt8 :=
  (if 0xFFFFFF ≤ timestamp then [0xFF, 0xFF, 0xFF] else toBe 3 timestamp.toNat) ++
    (toBe 3 msgLength ++ (msgType :: toLe 4 msgStreamId.toNat)) ++
    (if 0xFFFFFF ≤ timestamp then toBe 4 timestamp.toNat else [])

/-- The variables of the loop of `encode_message`. -/
structure EncodeLoop where
  /-- What of the payload is written. -/
  offset : ℕ
  /-- No chunk is written yet. -/
  first : Bool
  /-- What is written. -/
  output : List UInt8

/-- A turn of the loop of `encode_message`. -/
def encodeStep (msg : RtmpMessage) (chunkSize csId : ℕ) (loop : EncodeLoop) :
    Option EncodeLoop :=
  if loop.offset < msg.payload.length then
    let dataLen := min chunkSize (msg.payload.length - loop.offset)
    let header :=
      if loop.first then
        encodeBasicHeader 0 csId ++
          encodeType0Header msg.timestamp msg.payload.length msg.msgType msg.streamId
      else encodeBasicHeader 3 csId
    some
      { offset := loop.offset + dataLen
        first := false
        output := loop.output ++ header ++ slice msg.payload loop.offset dataLen }
  else none

/-- `encode_message`, with fuel for the turns of its loop. -/
def encodeMessage (fuel : ℕ) (msg : RtmpMessage) (chunkSize csId : ℕ) : Option (List UInt8) :=
  match FuelLoop.run (encodeStep msg chunkSize csId) fuel ⟨0, true, []⟩ with
  | none => none
  | some loop =>
    if msg.payload.isEmpty then
      some (loop.output ++ encodeBasicHeader 0 csId ++
        encodeType0Header msg.timestamp 0 msg.msgType msg.streamId)
    else some loop.output

/-! ## Chunk by chunk -/

/-- The form that `encode_basic_header` chooses. -/
def formOf (csId : ℕ) : BasicForm :=
  if csId < 64 then .oneByte else if csId < 320 then .twoBytes else .threeBytes

theorem formOf_fits {csId : ℕ} (hlow : 2 ≤ csId) (hhigh : csId < 65600) :
    (formOf csId).Fits csId := by
  unfold formOf
  split_ifs with h1 h2
  · exact ⟨hlow, h1⟩
  · exact ⟨by omega, h2⟩
  · exact ⟨by omega, hhigh⟩

theorem shift_or_eq_firstByte (fmt : ChunkFmt) {low : ℕ} (h : low < 64) :
    (UInt8.ofNat fmt.bits <<< 6) ||| UInt8.ofNat low = firstByte fmt low := by
  revert low
  cases fmt <;> decide

/-- The two top bits are those of the format. -/
theorem encodeBasicHeader_eq (fmt : ChunkFmt) (csId : ℕ) :
    encodeBasicHeader (UInt8.ofNat fmt.bits) csId = basicHeader fmt csId (formOf csId) := by
  unfold encodeBasicHeader formOf
  split_ifs with h1 h2
  · rw [shift_or_eq_firstByte fmt h1]
    rfl
  · rw [basicHeader, ← shift_or_eq_firstByte fmt (show 0 < 64 by decide)]
    rfl
  · rw [basicHeader, ← shift_or_eq_firstByte fmt (show 1 < 64 by decide)]
    rfl

theorem encodeType0Header_eq (msg : RtmpMessage) :
    encodeType0Header msg.timestamp msg.payload.length msg.msgType msg.streamId =
      messageHeader msg.timestamp msg .type0 ++ extendedTimestamp msg.timestamp := by
  have hle : 0xFFFFFF ≤ msg.timestamp ↔ 0xFFFFFF ≤ msg.timestamp.toNat := UInt32.le_iff_toNat_le
  rw [encodeType0Header, messageHeader, extendedTimestamp, shortTimestamp]
  by_cases hlarge : 0xFFFFFF ≤ msg.timestamp
  · rw [if_pos hlarge, if_pos hlarge, Nat.min_eq_right (hle.mp hlarge)]
    rfl
  · rw [if_neg hlarge, if_neg hlarge,
      Nat.min_eq_left (Nat.le_of_not_le fun h => hlarge (hle.mpr h))]

/-- The chunks of type 3, each with the message that it completes. -/
def laterChunks (csId : ℕ) (msg : RtmpMessage) :
    List (List UInt8) → List (List UInt8 × Option RtmpMessage)
  | [] => []
  | part :: parts =>
    (basicHeader .type3 csId (formOf csId) ++ part, if parts = [] then some msg else none) ::
      laterChunks csId msg parts

/-- The chunks of a message, each with the message that it completes. -/
def messageChunks (chunkSize csId : ℕ) (msg : RtmpMessage) :
    List (List UInt8 × Option RtmpMessage) :=
  let header := basicHeader .type0 csId (formOf csId) ++
    (messageHeader msg.timestamp msg .type0 ++ extendedTimestamp msg.timestamp)
  match pieces chunkSize msg.payload with
  | [] => [(header, none)]
  | part :: parts =>
    (header ++ part, if parts = [] then some msg else none) :: laterChunks csId msg parts

/-- The loop from its second turn on. -/
theorem run_encodeStep {chunkSize : ℕ} (hpos : 0 < chunkSize) (msg : RtmpMessage) (csId : ℕ)
    {offset : ℕ} {rest : List UInt8} (h : msg.payload.drop offset = rest) (output : List UInt8)
    (fuel : ℕ) (hfuel : rest.length < fuel) :
    ∃ offset', FuelLoop.run (encodeStep msg chunkSize csId) fuel ⟨offset, false, output⟩ =
      some ⟨offset', false,
        output ++ (laterChunks csId msg (pieces chunkSize rest)).flatMap Prod.fst⟩ := by
  induction fuel generalizing offset rest output with
  | zero => omega
  | succ fuel ih =>
    have hlen : rest.length = msg.payload.length - offset := by rw [← h, List.length_drop]
    by_cases hrest : rest = []
    · rw [hrest, List.length_nil] at hlen
      have hstop : encodeStep msg chunkSize csId ⟨offset, false, output⟩ = none :=
        if_neg (by dsimp only; omega)
      rw [FuelLoop.run_succ_none hstop, hrest, pieces_nil]
      exact ⟨offset, by rw [laterChunks, List.flatMap_nil, List.append_nil]⟩
    · have hpos' := List.length_pos_of_ne_nil hrest
      have hslice : slice msg.payload offset (min chunkSize rest.length) = rest.take chunkSize := by
        rw [slice, h, List.take_eq_take_iff, Nat.min_assoc, Nat.min_self]
      have hturn : encodeStep msg chunkSize csId ⟨offset, false, output⟩ =
          some ⟨offset + min chunkSize rest.length, false,
            output ++ basicHeader .type3 csId (formOf csId) ++ rest.take chunkSize⟩ := by
        rw [encodeStep, if_pos (by dsimp only; omega), ← hslice, hlen]
        dsimp only
        rw [if_neg Bool.false_ne_true, ← encodeBasicHeader_eq]
        rfl
      have hdrop : msg.payload.drop (offset + min chunkSize rest.length) = rest.drop chunkSize := by
        rw [← List.drop_drop, h, List.drop_eq_drop_iff, Nat.min_assoc, Nat.min_self]
      obtain ⟨offset', hrun⟩ := ih hdrop
        (output ++ basicHeader .type3 csId (formOf csId) ++ rest.take chunkSize)
        (by rw [List.length_drop]; omega)
      refine ⟨offset', ?_⟩
      rw [FuelLoop.run_succ_some hturn, hrun, pieces_of_ne_nil hpos hrest, laterChunks,
        List.flatMap_cons, List.append_assoc, List.append_assoc, List.append_assoc]

/-- `encode_message` returns if the chunk size is not zero, and puts out the chunks of the
message. -/
theorem encodeMessage_eq {chunkSize : ℕ} (hpos : 0 < chunkSize) (msg : RtmpMessage) (csId : ℕ)
    {fuel : ℕ} (hfuel : msg.payload.length < fuel) :
    encodeMessage fuel msg chunkSize csId =
      some ((messageChunks chunkSize csId msg).flatMap Prod.fst) := by
  obtain ⟨fuel, rfl⟩ : ∃ n, fuel = n + 1 := ⟨fuel - 1, by omega⟩
  have hbasic : encodeBasicHeader 0 csId = basicHeader .type0 csId (formOf csId) :=
    encodeBasicHeader_eq .type0 csId
  have hheader := encodeType0Header_eq msg
  rw [encodeMessage, messageChunks]
  by_cases hempty : msg.payload = []
  · have hstop : encodeStep msg chunkSize csId ⟨0, true, []⟩ = none :=
      if_neg (by rw [hempty]; exact Nat.lt_irrefl 0)
    rw [hempty, List.length_nil] at hheader
    rw [FuelLoop.run_succ_none hstop, hempty, pieces_nil]
    simp only [List.isEmpty_nil, if_true, List.nil_append, hbasic, hheader, List.flatMap_cons,
      List.flatMap_nil, List.append_nil]
  · have hpos' := List.length_pos_of_ne_nil hempty
    have hslice : slice msg.payload 0 (min chunkSize msg.payload.length) =
        msg.payload.take chunkSize := by
      rw [slice, List.drop_zero, List.take_eq_take_iff, Nat.min_assoc, Nat.min_self]
    have hturn : encodeStep msg chunkSize csId ⟨0, true, []⟩ =
        some ⟨0 + min chunkSize msg.payload.length, false,
          basicHeader .type0 csId (formOf csId) ++
            (messageHeader msg.timestamp msg .type0 ++ extendedTimestamp msg.timestamp) ++
            msg.payload.take chunkSize⟩ := by
      rw [encodeStep, if_pos hpos', ← hslice, ← hheader, ← hbasic]
      rfl
    have hdrop : msg.payload.drop (0 + min chunkSize msg.payload.length) =
        msg.payload.drop chunkSize := by
      rw [Nat.zero_add, List.drop_eq_drop_iff, Nat.min_assoc, Nat.min_self]
    obtain ⟨offset', hrun⟩ := run_encodeStep hpos msg csId hdrop
      (basicHeader .type0 csId (formOf csId) ++
        (messageHeader msg.timestamp msg .type0 ++ extendedTimestamp msg.timestamp) ++
        msg.payload.take chunkSize) fuel (by rw [List.length_drop]; omega)
    have hfull : msg.payload.isEmpty = false := by
      rw [List.isEmpty_eq_false_iff]
      exact hempty
    rw [FuelLoop.run_succ_some hturn, hrun, pieces_of_ne_nil hpos hempty]
    simp only [hfull, Bool.false_eq_true, if_false, List.flatMap_cons]

/-! ## Reading the chunks back -/

/-- A message as a sender can put it on the chunk stream. -/
structure Sendable (csId : ℕ) (msg : RtmpMessage) : Prop where
  low : 2 ≤ csId
  high : csId ≤ 65599
  payload : msg.payload ≠ []
  length : msg.payload.length < 2 ^ 24

/-- What is still to come on the chunk stream: the rest of a message, and then messages. -/
def Ready (chunkSize : ℕ) (state : ChunkState) (csId : ℕ)
    (chunks : List (List UInt8 × Option RtmpMessage)) : Prop :=
  ∃ msgs : List RtmpMessage, (∀ msg ∈ msgs, Sendable csId msg) ∧
    ((state.Idle csId ∧ chunks = msgs.flatMap (messageChunks chunkSize csId)) ∨
      ∃ msg rest, Sendable csId msg ∧ rest ≠ [] ∧ state.InProgress csId msg rest ∧
        chunks = laterChunks csId msg (pieces chunkSize rest) ++
          msgs.flatMap (messageChunks chunkSize csId))

namespace Ready

variable {chunkSize csId : ℕ} {state state' : ChunkState}
  {chunks : List (List UInt8 × Option RtmpMessage)} {chunk : List UInt8 × Option RtmpMessage}

theorem of_sameAt (h : Ready chunkSize state csId chunks)
    (hsame : ChunkState.SameAt csId state state') : Ready chunkSize state' csId chunks := by
  obtain ⟨msgs, hmsgs, ⟨hidle, hchunks⟩ | ⟨msg, rest, hmsg, hrest, hprogress, hchunks⟩⟩ := h
  · exact ⟨msgs, hmsgs, .inl ⟨hidle.of_sameAt hsame, hchunks⟩⟩
  · exact ⟨msgs, hmsgs, .inr ⟨msg, rest, hmsg, hrest, hprogress.of_sameAt hsame, hchunks⟩⟩

/-- The rest of a message, if there is any. -/
theorem of_inProgress {msg : RtmpMessage} {rest : List UInt8} {msgs : List RtmpMessage}
    (hmsg : Sendable csId msg) (hmsgs : ∀ msg ∈ msgs, Sendable csId msg)
    (h : state.InProgress csId msg rest) :
    Ready chunkSize state csId (laterChunks csId msg (pieces chunkSize rest) ++
      msgs.flatMap (messageChunks chunkSize csId)) := by
  by_cases hrest : rest = []
  · refine ⟨msgs, hmsgs, .inl ⟨h.idle hrest, ?_⟩⟩
    rw [hrest, pieces_nil, laterChunks, List.nil_append]
  · exact ⟨msgs, hmsgs, .inr ⟨msg, rest, hmsg, hrest, h, rfl⟩⟩

theorem completed_eq {msg : RtmpMessage} (hmsg : Sendable csId msg) (rest : List UInt8) :
    msg.completed rest = if pieces chunkSize rest = [] then some msg else none := by
  rw [RtmpMessage.completed]
  simp only [pieces_eq_nil_iff, and_iff_left hmsg.payload]

/-- The first chunk of a message. -/
theorem take_first (hpos : 0 < chunkSize) {msg : RtmpMessage} {msgs : List RtmpMessage}
    (hmsg : Sendable csId msg) (hmsgs : ∀ msg ∈ msgs, Sendable csId msg)
    (hidle : state.Idle csId)
    (h : chunk :: chunks =
      messageChunks chunkSize csId msg ++ msgs.flatMap (messageChunks chunkSize csId)) :
    ∃ state', Ready chunkSize state' csId chunks ∧
      (∀ csId', csId' ≠ csId → ChunkState.SameAt csId' state state') ∧
      ∀ more, state.takeChunk chunkSize (chunk.1 ++ more) = some (state', more, chunk.2) := by
  have hraw := readChunkHeader_encoded (formOf_fits hmsg.low (Nat.lt_succ_of_le hmsg.high))
    hmsg.length msg.timestamp .type0 (msg.payload.take chunkSize)
  obtain ⟨state', hprogress, hothers, htake⟩ := ChunkState.takeChunk_first hraw hidle
    (ChunkHeader.resolve_type0 rfl _) ⟨rfl, rfl, rfl, rfl⟩
  rw [messageChunks, pieces_of_ne_nil hpos hmsg.payload] at h
  obtain ⟨rfl, rfl⟩ := List.cons.inj h
  rw [completed_eq hmsg] at htake
  exact ⟨state', of_inProgress hmsg hmsgs hprogress, hothers, htake⟩

/-- A further chunk of a message. -/
theorem take_next (hpos : 0 < chunkSize) {msg : RtmpMessage} {msgs : List RtmpMessage}
    {rest : List UInt8} (hmsg : Sendable csId msg) (hmsgs : ∀ msg ∈ msgs, Sendable csId msg)
    (hrest : rest ≠ []) (hprogress : state.InProgress csId msg rest)
    (h : chunk :: chunks = laterChunks csId msg (pieces chunkSize rest) ++
      msgs.flatMap (messageChunks chunkSize csId)) :
    ∃ state', Ready chunkSize state' csId chunks ∧
      (∀ csId', csId' ≠ csId → ChunkState.SameAt csId' state state') ∧
      ∀ more, state.takeChunk chunkSize (chunk.1 ++ more) = some (state', more, chunk.2) := by
  have hraw := readChunkHeader_encoded (formOf_fits hmsg.low (Nat.lt_succ_of_le hmsg.high))
    hmsg.length 0 .type3 (rest.take chunkSize)
  have hnone : messageHeader 0 msg .type3 ++
      (if ChunkFmt.type3.hasTimestamp then extendedTimestamp 0 else []) = [] := rfl
  rw [hnone, List.append_nil] at hraw
  obtain ⟨state', hprogress', hothers, htake⟩ :=
    ChunkState.takeChunk_next hraw rfl hprogress hrest
  rw [pieces_of_ne_nil hpos hrest, laterChunks] at h
  obtain ⟨rfl, rfl⟩ := List.cons.inj h
  rw [completed_eq hmsg] at htake
  exact ⟨state', of_inProgress hmsg hmsgs hprogress', hothers, htake⟩

/-- **The next chunk** of a chunk stream is taken, and what comes after it is still to come. -/
theorem take (hpos : 0 < chunkSize) (h : Ready chunkSize state csId (chunk :: chunks)) :
    ∃ state', Ready chunkSize state' csId chunks ∧
      (∀ csId', csId' ≠ csId → ChunkState.SameAt csId' state state') ∧
      ∀ more, state.takeChunk chunkSize (chunk.1 ++ more) = some (state', more, chunk.2) := by
  obtain ⟨msgs, hmsgs, ⟨hidle, hchunks⟩ | ⟨msg, rest, hmsg, hrest, hprogress, hchunks⟩⟩ := h
  · cases msgs with
    | nil => cases hchunks
    | cons msg msgs =>
      rw [List.flatMap_cons] at hchunks
      exact take_first hpos (hmsgs msg List.mem_cons_self)
        (fun m hm => hmsgs m (List.mem_cons_of_mem msg hm)) hidle hchunks
  · exact take_next hpos hmsg hmsgs hrest hprogress hchunks

end Ready

/-! ## Interleaved chunks -/

/-- The messages that the chunks complete, each with its chunk stream. -/
def completions (chunks : List (ℕ × List UInt8 × Option RtmpMessage)) : List (ℕ × RtmpMessage) :=
  chunks.filterMap fun chunk => chunk.2.2.map (chunk.1, ·)

theorem laterChunks_completions (csId : ℕ) (msg : RtmpMessage) {parts : List (List UInt8)}
    (h : parts ≠ []) : (laterChunks csId msg parts).filterMap Prod.snd = [msg] := by
  induction parts with
  | nil => exact absurd rfl h
  | cons part parts ih =>
    rw [laterChunks]
    by_cases hlast : parts = []
    · rw [hlast]
      rfl
    · rw [if_neg hlast, List.filterMap_cons_none rfl, ih hlast]

theorem messageChunks_completions {chunkSize csId : ℕ} {msg : RtmpMessage}
    (hpos : 0 < chunkSize) (hmsg : Sendable csId msg) :
    (messageChunks chunkSize csId msg).filterMap Prod.snd = [msg] := by
  rw [messageChunks, pieces_of_ne_nil hpos hmsg.payload]
  by_cases hlast : pieces chunkSize (msg.payload.drop chunkSize) = []
  · rw [hlast]
    rfl
  · dsimp only
    rw [if_neg hlast, List.filterMap_cons_none rfl, laterChunks_completions csId msg hlast]

/-- What a chunk stream completes is what its chunks complete. -/
theorem fromSource_completions (chunks : List (ℕ × List UInt8 × Option RtmpMessage)) (csId : ℕ) :
    Incremental.fromSource (completions chunks) csId =
      (Incremental.fromSource chunks csId).filterMap Prod.snd := by
  induction chunks with
  | nil => rfl
  | cons chunk chunks ih =>
    obtain ⟨csId', bytes, _ | msg⟩ := chunk
    · have hnone : completions ((csId', bytes, none) :: chunks) = completions chunks := rfl
      rw [hnone, ih]
      by_cases hne : csId = csId'
      · rw [← hne, Incremental.fromSource_cons_self]
        rfl
      · rw [Incremental.fromSource_cons_ne hne]
    · have hsome : completions ((csId', bytes, some msg) :: chunks) =
          (csId', msg) :: completions chunks := rfl
      rw [hsome]
      by_cases hne : csId = csId'
      · rw [← hne, Incremental.fromSource_cons_self, Incremental.fromSource_cons_self, ih]
        rfl
      · rw [Incremental.fromSource_cons_ne hne, Incremental.fromSource_cons_ne hne, ih]

/-- **Round trip**: messages that are encoded on chunk streams, with their chunks interleaved in
any way, are read back in the order of their last chunks, to the last byte. -/
theorem takeAll_interleaved {chunkSize : ℕ} (hpos : 0 < chunkSize)
    {sent : List (ℕ × RtmpMessage)} (hsent : ∀ p ∈ sent, Sendable p.1 p.2)
    {chunks : List (ℕ × List UInt8 × Option RtmpMessage)}
    (hchunks : ∀ csId, Incremental.fromSource chunks csId =
      (Incremental.fromSource sent csId).flatMap (messageChunks chunkSize csId)) :
    (∀ p ∈ sent, encodeMessage (p.2.payload.length + 1) p.2 chunkSize p.1 =
        some ((messageChunks chunkSize p.1 p.2).flatMap Prod.fst)) ∧
      (∀ csId, Incremental.fromSource (completions chunks) csId =
        Incremental.fromSource sent csId) ∧
      ∃ state, (fixedSize chunkSize).takeAll ((), .new) (chunks.flatMap fun chunk => chunk.2.1) =
        ((completions chunks).map Prod.snd, state, []) := by
  have hsendable : ∀ csId, ∀ msg ∈ Incremental.fromSource sent csId, Sendable csId msg := by
    intro csId msg hmsg
    simp only [Incremental.fromSource, List.mem_map, List.mem_filter, decide_eq_true_eq] at hmsg
    obtain ⟨p, ⟨hp, rfl⟩, rfl⟩ := hmsg
    exact hsent p hp
  refine ⟨fun p _ => encodeMessage_eq hpos p.2 p.1 (Nat.lt_succ_self _), ?_, ?_⟩
  · intro csId
    rw [fromSource_completions, hchunks, List.filterMap_flatMap]
    conv_rhs => rw [← List.flatMap_singleton' (Incremental.fromSource sent csId)]
    exact List.flatMap_congr fun msg hmsg =>
      messageChunks_completions hpos (hsendable csId msg hmsg)
  · have hready : ∀ csId, Ready chunkSize .new csId (Incremental.fromSource chunks csId) :=
      fun csId => ⟨_, hsendable csId, .inl ⟨by rintro assembler ⟨⟩, hchunks csId⟩⟩
    have hstep : ∀ (s : Unit × ChunkState) csId (chunk : List UInt8 × Option RtmpMessage) q,
        Ready chunkSize s.2 csId (chunk :: q) → ∃ s' : Unit × ChunkState,
          Ready chunkSize s'.2 csId q ∧
          (∀ csId', csId' ≠ csId → ∀ q', Ready chunkSize s.2 csId' q' →
            Ready chunkSize s'.2 csId' q') ∧
          ∀ more, (fixedSize chunkSize).step s (chunk.1 ++ more) =
            some (s', more, chunk.2.toList) := by
      intro s csId chunk q h
      obtain ⟨state', hready', hothers, htake⟩ := h.take hpos
      refine ⟨((), state'), hready', fun csId' hne q' h' => h'.of_sameAt (hothers csId' hne), ?_⟩
      intro more
      rw [ReadLoop.step_of_some _ (htake more)]
    obtain ⟨s, -, hdrain⟩ := Incremental.drain_interleaved (fixedSize chunkSize).step_consumes
      (R := fun s csId q => Ready chunkSize s.2 csId q) hstep (s := ((), .new)) hready
    have hitems : (chunks.flatMap fun chunk => chunk.2.2.toList) =
        (completions chunks).map Prod.snd := by
      rw [completions, List.map_filterMap, ← List.filterMap_eq_flatMap_toList]
      congr 1
      funext chunk
      cases chunk.2.2 <;> rfl
    rw [hitems] at hdrain
    refine ⟨(s.1, s.2.seeHeader []), ?_⟩
    rw [ReadLoop.takeAll, ReadLoop.takeAllFuel_eq_drain _ _ _ (Nat.lt_succ_self _), hdrain]

theorem takeAll_interleaved_of_two :
    (∀ csId, Incremental.fromSource (completions
        [(3, [0x03, 0xFF, 0xFF, 0xFF, 0, 0, 3, 9, 1, 0, 0, 0, 1, 0, 0, 0, 1, 2], none),
          (70, [0x00, 6, 0, 0, 40, 0, 0, 1, 8, 1, 0, 0, 0, 7], some ⟨8, 40, 1, [7]⟩),
          (3, [0xC3, 3], some ⟨9, 0x1000000, 1, [1, 2, 3]⟩)]) csId =
      Incremental.fromSource [(3, ⟨9, 0x1000000, 1, [1, 2, 3]⟩), (70, ⟨8, 40, 1, [7]⟩)] csId) ∧
    ∃ state, (fixedSize 2).takeAll ((), .new)
        [0x03, 0xFF, 0xFF, 0xFF, 0, 0, 3, 9, 1, 0, 0, 0, 1, 0, 0, 0, 1, 2,
          0x00, 6, 0, 0, 40, 0, 0, 1, 8, 1, 0, 0, 0, 7, 0xC3, 3] =
      ([⟨8, 40, 1, [7]⟩, ⟨9, 0x1000000, 1, [1, 2, 3]⟩], state, []) := by
  have hsent : ∀ p ∈ [((3 : ℕ), (⟨9, 0x1000000, 1, [1, 2, 3]⟩ : RtmpMessage)),
      (70, ⟨8, 40, 1, [7]⟩)], Sendable p.1 p.2 := by
    intro p hp
    simp only [List.mem_cons, List.not_mem_nil, or_false] at hp
    obtain rfl | rfl := hp
    · exact ⟨by decide, by decide, by decide, by decide⟩
    · exact ⟨by decide, by decide, by decide, by decide⟩
  have hvideo : messageChunks 2 3 ⟨9, 0x1000000, 1, [1, 2, 3]⟩ =
      [([0x03, 0xFF, 0xFF, 0xFF, 0, 0, 3, 9, 1, 0, 0, 0, 1, 0, 0, 0, 1, 2], none),
        ([0xC3, 3], some ⟨9, 0x1000000, 1, [1, 2, 3]⟩)] := by
    have hpieces : pieces 2 [1, 2, 3] = [[1, 2], [3]] := by simp [pieces]
    rw [messageChunks, hpieces]
    decide
  have haudio : messageChunks 2 70 ⟨8, 40, 1, [7]⟩ =
      [([0x00, 6, 0, 0, 40, 0, 0, 1, 8, 1, 0, 0, 0, 7], some ⟨8, 40, 1, [7]⟩)] := by
    have hpieces : pieces 2 [7] = [[7]] := by simp [pieces]
    rw [messageChunks, hpieces]
    decide
  have hchunks : ∀ csId, Incremental.fromSource
        [(3, [0x03, 0xFF, 0xFF, 0xFF, 0, 0, 3, 9, 1, 0, 0, 0, 1, 0, 0, 0, 1, 2], none),
          (70, [0x00, 6, 0, 0, 40, 0, 0, 1, 8, 1, 0, 0, 0, 7], some ⟨8, 40, 1, [7]⟩),
          (3, [0xC3, 3], some ⟨9, 0x1000000, 1, [1, 2, 3]⟩)] csId =
      (Incremental.fromSource [(3, ⟨9, 0x1000000, 1, [1, 2, 3]⟩), (70, ⟨8, 40, 1, [7]⟩)]
        csId).flatMap (messageChunks 2 csId) := by
    intro csId
    by_cases h3 : csId = 3
    · simp [h3, Incremental.fromSource, hvideo]
    · by_cases h70 : csId = 70
      · simp [h70, Incremental.fromSource, haudio]
      · simp [Incremental.fromSource, Ne.symm h3, Ne.symm h70]
  have hread := takeAll_interleaved (show 0 < 2 by decide) hsent hchunks
  exact ⟨hread.2.1, hread.2.2⟩

end VcpMediaServer
