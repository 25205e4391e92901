import VcpMediaServer.ChunkReassembly

/-!
# Chunks on the wire

The bytes of a chunk, and what the parser makes of them.

* `basicHeader`, `messageHeader` — the headers. A chunk stream may be written in one, two or
  three bytes, and a timestamp that does not fit into three bytes is put behind the header.
* `readChunkHeader_encoded` — such a header is read back, **except** that nothing behind a
  header of type 3 is taken for a timestamp.
* `ChunkState.InProgress` — what the parser has recorded of a chunk stream in the middle of a
  message.
* `ChunkState.takeChunk_part` — the next part of a message is taken, and other chunk streams
  are not disturbed.
-/

namespace VcpMediaServer

/-! ## Headers -/

/-- The two top bits of a basic header. -/
def ChunkFmt.bits : ChunkFmt → ℕ
  | .type0 => 0
  | .type1 => 1
  | .type2 => 2
  | .type3 => 3

/-- The ways to write a chunk stream. -/
inductive BasicForm where
  | oneByte
  | twoBytes
  | threeBytes

/-- The chunk stream can be written so. -/
def BasicForm.Fits : BasicForm → ℕ → Prop
  | .oneByte, csId => 2 ≤ csId ∧ csId < 64
  | .twoBytes, csId => 64 ≤ csId ∧ csId < 320
  | .threeBytes, csId => 64 ≤ csId ∧ csId < 65600

/-- The first byte of a chunk. -/
def firstByte (fmt : ChunkFmt) (low : ℕ) : UInt8 := UInt8.ofNat (fmt.bits * 64 + low)

/-- The little-endian bytes of a number. -/
def toLe (n v : ℕ) : List UInt8 := (toBe n v).reverse

/-- The basic header. -/
def basicHeader (fmt : ChunkFmt) (csId : ℕ) : BasicForm → List UInt8
  | .oneByte => [firstByte fmt csId]
  | .twoBytes => [firstByte fmt 0, UInt8.ofNat (csId - 64)]
  | .threeBytes => firstByte fmt 1 :: toLe 2 (csId - 64)

/-- The timestamp of a header, as far as it fits into three bytes. -/
def shortTimestamp (field : UInt32) : List UInt8 := toBe 3 (min field.toNat 0xFFFFFF)

/-- The extended timestamp. -/
def extendedTimestamp (field : UInt32) : List UInt8 :=
  if 0xFFFFFF ≤ field then toBe 4 field.toNat else []

/-- The message header: what the format says of the message. -/
def messageHeader (field : UInt32) (msg : RtmpMessage) : ChunkFmt → List UInt8
  | .type0 =>
    shortTimestamp field ++
      (toBe 3 msg.payload.length ++ (msg.msgType :: toLe 4 msg.streamId.toNat))
  | .type1 => shortTimestamp field ++ (toBe 3 msg.payload.length ++ [msg.msgType])
  | .type2 => shortTimestamp field
  | .type3 => []

/-- The header that the parser reads. -/
def rawHeader (csId : ℕ) (field : UInt32) (msg : RtmpMessage) (fmt : ChunkFmt) : ChunkHeader :=
  { fmt, chunkStreamId := csId
    timestamp := if fmt.hasTimestamp then field else 0
    msgLength := if fmt.hasLength then msg.payload.length else 0
    msgTypeId := if fmt.hasLength then msg.msgType else 0
    msgStreamId := if fmt.hasStreamId then msg.streamId else 0
    hasExtendedTimestamp := fmt.hasTimestamp && decide (0xFFFFFF ≤ field) }

/-! ## Reading a header back -/

theorem length_toLe (n v : ℕ) : (toLe n v).length = n := by
  rw [toLe, List.length_reverse, length_toBe]

theorem leNat_toLe_of_lt {n v : ℕ} (h : v < 256 ^ n) : leNat (toLe n v) = v := by
  rw [leNat, toLe, List.reverse_reverse, beNat_toBe_of_lt h]

/-- What stands in the first byte. -/
theorem firstByte_fields (fmt : ChunkFmt) {low : ℕ} (h : low < 64) :
    ChunkFmt.ofByte (firstByte fmt low) = fmt ∧ (firstByte fmt low &&& 0x3F) = UInt8.ofNat low := by
  revert low
  cases fmt <;> decide

theorem readBasicHeader_basicHeader {form : BasicForm} {csId : ℕ} (h : form.Fits csId)
    (fmt : ChunkFmt) (rest : List UInt8) :
    readBasicHeader (basicHeader fmt csId form ++ rest) =
      some (fmt, (basicHeader fmt csId form).length, csId) := by
  cases form with
  | oneByte =>
    obtain ⟨hlow, hlt⟩ := h
    obtain ⟨hfmt, hbits⟩ := firstByte_fields fmt hlt
    have hnat : (UInt8.ofNat csId).toNat = csId := toNat_ofNat_byte (by omega)
    have hne : ∀ b : UInt8, b.toNat < 2 → UInt8.ofNat csId ≠ b := by
      rintro b hb rfl
      omega
    simp only [basicHeader, List.cons_append, readBasicHeader, hfmt, hbits, hnat]
    rw [if_neg (hne 0 (by decide)), if_neg (hne 1 (by decide))]
    rfl
  | twoBytes =>
    obtain ⟨hlow, hlt⟩ := h
    obtain ⟨hfmt, hbits⟩ := firstByte_fields fmt (show 0 < 64 by decide)
    have hnat : (UInt8.ofNat (csId - 64)).toNat = csId - 64 :=
      toNat_ofNat_byte (by omega)
    simp only [basicHeader, List.cons_append, readBasicHeader, hfmt, hbits, hnat]
    rw [if_pos (by decide), Nat.add_sub_cancel' hlow]
    rfl
  | threeBytes =>
    obtain ⟨hlow, hlt⟩ := h
    obtain ⟨hfmt, hbits⟩ := firstByte_fields fmt (show 1 < 64 by decide)
    have hlo : (UInt8.ofNat (csId - 64)).toNat = (csId - 64) % 256 := UInt8.toNat_ofNat'
    have hhi : (UInt8.ofNat ((csId - 64) / 256)).toNat = (csId - 64) / 256 :=
      toNat_ofNat_byte (by omega)
    simp only [basicHeader, toLe, toBe, List.nil_append, List.cons_append, List.reverse_cons,
      List.reverse_nil, readBasicHeader, hfmt, hbits, hlo, hhi]
    rw [if_neg (by decide), if_pos (by decide), Nat.add_assoc, Nat.mul_comm, Nat.mod_add_div,
      Nat.add_sub_cancel' hlow]
    rfl

theorem length_shortTimestamp (field : UInt32) : (shortTimestamp field).length = 3 :=
  length_toBe 3 _

theorem length_messageHeader (field : UInt32) (msg : RtmpMessage) (fmt : ChunkFmt) :
    (messageHeader field msg fmt).length = fmt.msgHeaderSize := by
  cases fmt <;>
    simp only [messageHeader, List.length_append, List.length_cons, List.length_nil,
      length_shortTimestamp, length_toBe, length_toLe] <;>
    rfl

/-- What the parser reads of the message header, before it looks for an extended timestamp. -/
theorem readMsgHeader_messageHeader {msg : RtmpMessage} (hlen : msg.payload.length < 2 ^ 24)
    (csId : ℕ) (field : UInt32) (fmt : ChunkFmt) :
    readMsgHeader fmt csId (messageHeader field msg fmt) =
      { rawHeader csId field msg fmt with
        timestamp := if fmt.hasTimestamp then .ofNat (min field.toNat 0xFFFFFF) else 0
        hasExtendedTimestamp := false } := by
  have hstamp : beNat (shortTimestamp field) = min field.toNat 0xFFFFFF :=
    beNat_toBe_of_lt (by omega)
  have hlength : beNat (toBe 3 msg.payload.length) = msg.payload.length := beNat_toBe_of_lt hlen
  have hstream : UInt32.ofNat (leNat (toLe 4 msg.streamId.toNat)) = msg.streamId := by
    rw [leNat_toLe_of_lt msg.streamId.toNat_lt, UInt32.ofNat_toNat]
  cases fmt with
  | type0 =>
    have htime : slice (messageHeader field msg .type0) 0 3 = shortTimestamp field := rfl
    have hlength' : slice (messageHeader field msg .type0) 3 3 = toBe 3 msg.payload.length := rfl
    have hstream' : slice (messageHeader field msg .type0) 7 4 = toLe 4 msg.streamId.toNat := rfl
    rw [readMsgHeader, htime, hlength', hstream', hstamp, hlength, hstream]
    rfl
  | type1 =>
    have htime : slice (messageHeader field msg .type1) 0 3 = shortTimestamp field := rfl
    have hlength' : slice (messageHeader field msg .type1) 3 3 = toBe 3 msg.payload.length := rfl
    rw [readMsgHeader, htime, hlength', hstamp, hlength]
    rfl
  | type2 =>
    have htime : slice (messageHeader field msg .type2) 0 3 = shortTimestamp field := rfl
    rw [readMsgHeader, htime, hstamp]
    rfl
  | type3 => rfl

/-- The timestamp is in the three bytes, or they are all `FF`. -/
theorem shortTimestamp_eq_max_iff (field : UInt32) :
    UInt32.ofNat (min field.toNat 0xFFFFFF) = 0xFFFFFF ↔ 0xFFFFFF ≤ field := by
  rw [← UInt32.toNat_inj, UInt32.le_iff_toNat_le, UInt32.toNat_ofNat_of_lt' (by
    rw [UInt32.size]
    omega)]
  simp only [UInt32.reduceToNat]
  omega

/-- A header is read back. A header of type 3 has **no** timestamp: what follows it is not
looked at. -/
theorem readChunkHeader_encoded {form : BasicForm} {csId : ℕ} (hform : form.Fits csId)
    {msg : RtmpMessage} (hlen : msg.payload.length < 2 ^ 24) (field : UInt32) (fmt : ChunkFmt)
    (rest : List UInt8) :
    readChunkHeader (basicHeader fmt csId form ++ (messageHeader field msg fmt ++
        (if fmt.hasTimestamp then extendedTimestamp field else [])) ++ rest) =
      some (rawHeader csId field msg fmt, (basicHeader fmt csId form ++
        (messageHeader field msg fmt ++
          (if fmt.hasTimestamp then extendedTimestamp field else []))).length) := by
  rw [List.append_assoc, List.append_assoc, List.length_append, List.length_append,
    length_messageHeader]
  have hbasic := readBasicHeader_basicHeader hform fmt (messageHeader field msg fmt ++
    ((if fmt.hasTimestamp then extendedTimestamp field else []) ++ rest))
  generalize hbuf : basicHeader fmt csId form ++ _ = buf at hbasic ⊢
  have hmsg : buf.drop (basicHeader fmt csId form).length = messageHeader field msg fmt ++
      ((if fmt.hasTimestamp then extendedTimestamp field else []) ++ rest) := by
    rw [← hbuf, List.drop_left' rfl]
  have hext := drop_of_drop hmsg
  have hfields := slice_eq_of_drop hmsg
  have hsize : buf.length = (basicHeader fmt csId form).length + (fmt.msgHeaderSize +
      ((if fmt.hasTimestamp then extendedTimestamp field else []).length + rest.length)) := by
    rw [← hbuf, List.length_append, List.length_append, length_messageHeader, List.length_append]
  rw [length_messageHeader] at hext hfields
  rw [readChunkHeader, hbasic]
  dsimp only
  rw [if_neg (by omega), hfields, readMsgHeader_messageHeader hlen, ← Nat.add_assoc]
  dsimp only [rawHeader]
  cases hstamp : fmt.hasTimestamp with
  | false => rfl
  | true =>
    simp only [hstamp, if_true] at hext hsize ⊢
    by_cases hlarge : 0xFFFFFF ≤ field
    · have hfull : extendedTimestamp field = toBe 4 field.toNat := if_pos hlarge
      rw [hfull] at hext hsize
      have hvalue := slice_eq_of_drop hext
      rw [length_toBe] at hsize hvalue
      rw [if_pos ((shortTimestamp_eq_max_iff field).mpr hlarge), if_neg (by omega), hvalue, hfull,
        beNat_toBe_of_lt field.toNat_lt, UInt32.ofNat_toNat, decide_eq_true hlarge, length_toBe]
      rfl
    · have hnone : extendedTimestamp field = [] := if_neg hlarge
      have hmin : min field.toNat 0xFFFFFF = field.toNat := by
        rw [UInt32.le_iff_toNat_le] at hlarge
        exact Nat.min_eq_left (by simpa using Nat.le_of_lt (Nat.lt_of_not_le hlarge))
      rw [if_neg fun h => hlarge ((shortTimestamp_eq_max_iff field).mp h), hmin, hnone,
        UInt32.ofNat_toNat, decide_eq_false hlarge]
      rfl

/-! ## Parts of a message -/

/-- What the header says of the message is right. -/
structure ChunkHeader.Describes (header : ChunkHeader) (msg : RtmpMessage) : Prop where
  timestamp : header.timestamp = msg.timestamp
  msgLength : header.msgLength = msg.payload.length
  msgTypeId : header.msgTypeId = msg.msgType
  msgStreamId : header.msgStreamId = msg.streamId

theorem ChunkHeader.resolve_type1 {raw : ChunkHeader} (hf : raw.fmt = .type1) (last : ChunkHeader) :
    raw.resolve (some last) =
      some { raw with
        timestamp := raw.timestamp + last.timestamp
        msgStreamId := last.msgStreamId } := by
  simp [resolve, hf]

theorem ChunkHeader.resolve_type2 {raw : ChunkHeader} (hf : raw.fmt = .type2) (last : ChunkHeader) :
    raw.resolve (some last) =
      some { raw with
        timestamp := raw.timestamp + last.timestamp
        msgLength := last.msgLength
        msgTypeId := last.msgTypeId
        msgStreamId := last.msgStreamId } := by
  simp [resolve, hf]

theorem ChunkHeader.resolve_type3 {raw : ChunkHeader} (hf : raw.fmt = .type3) (last : ChunkHeader) :
    raw.resolve (some last) =
      some { raw with
        timestamp := last.timestamp
        msgLength := last.msgLength
        msgTypeId := last.msgTypeId
        msgStreamId := last.msgStreamId } := by
  simp [resolve, hf]

/-- All of the message has arrived but `rest`. -/
structure ChunkAssembler.Awaits (assembler : ChunkAssembler) (msg : RtmpMessage)
    (rest : List UInt8) : Prop where
  received : assembler.received = assembler.buffer.length
  buffer : assembler.buffer ++ rest = msg.payload

/-- The message that the last part completes. An empty message is **never** completed. -/
def RtmpMessage.completed (msg : RtmpMessage) (rest : List UInt8) : Option RtmpMessage :=
  if rest = [] ∧ msg.payload ≠ [] then some msg else none

namespace ChunkAssembler.Awaits

variable {assembler : ChunkAssembler} {msg : RtmpMessage} {part rest : List UInt8}
  {header : ChunkHeader}

theorem length_payload (h : assembler.Awaits msg (part ++ rest)) :
    msg.payload.length = assembler.received + part.length + rest.length := by
  rw [← h.buffer, h.received, List.length_append, List.length_append, Nat.add_assoc]

/-- A part that is not the last. -/
theorem extend_part (h : assembler.Awaits msg (part ++ rest)) (hheader : header.Describes msg)
    (hrest : rest ≠ []) :
    ∃ assembler', assembler.extend header part = (assembler', none) ∧
      assembler'.msgLength = msg.payload.length ∧ assembler'.Awaits msg rest := by
  have hlen := h.length_payload
  have hpos := List.length_pos_of_ne_nil hrest
  obtain ⟨-, hlength, -, -⟩ := hheader
  rw [ChunkAssembler.extend]
  dsimp only
  rw [if_neg (by omega)]
  refine ⟨_, rfl, hlength, ?_, ?_⟩
  · dsimp only
    rw [h.received, List.length_append]
  · dsimp only
    rw [List.append_assoc, h.buffer]

/-- The last part. -/
theorem extend_last (h : assembler.Awaits msg part) (hheader : header.Describes msg) :
    ∃ assembler', assembler.extend header part = (assembler', msg.completed []) ∧
      assembler'.msgLength = 0 ∧ assembler'.received = 0 ∧ assembler'.buffer = [] := by
  rw [← List.append_nil part] at h
  have hlen := h.length_payload
  have hbuffer := h.buffer
  have hreceived := h.received
  rw [List.append_nil] at hbuffer
  obtain ⟨htime, hlength, htype, hstream⟩ := hheader
  rw [ChunkAssembler.extend, RtmpMessage.completed]
  dsimp only
  by_cases hempty : msg.payload = []
  · rw [hempty, List.length_nil] at hlen hlength
    rw [List.append_eq_nil_iff.mp (hbuffer.trans hempty) |>.1] at hreceived
    rw [if_neg (by omega), if_neg (fun hc => hc.2 hempty)]
    exact ⟨_, rfl, hlength, by dsimp only; omega, hbuffer.trans hempty⟩
  · have hpos := List.length_pos_of_ne_nil hempty
    rw [if_pos (by simp only [List.length_nil] at hlen; omega), if_pos ⟨rfl, hempty⟩]
    refine ⟨{ assembler with
      timestamp := header.timestamp, msgLength := 0, msgTypeId := header.msgTypeId,
      msgStreamId := header.msgStreamId, received := 0, buffer := [] }, ?_, rfl, rfl, rfl⟩
    rw [htime, htype, hstream, hbuffer]

end ChunkAssembler.Awaits

namespace ChunkState

/-- No message has begun. -/
def Idle (state : ChunkState) (csId : ℕ) : Prop :=
  ∀ assembler, state.assemblers.lookup csId = some assembler →
    assembler.msgLength = 0 ∧ assembler.received = 0 ∧ assembler.buffer = []

/-- The last header is that of the message, and all of it has arrived but `rest`. -/
structure InProgress (state : ChunkState) (csId : ℕ) (msg : RtmpMessage) (rest : List UInt8) :
    Prop where
  header : ∃ header, state.headers.lookup csId = some header ∧ header.Describes msg
  idle : rest = [] → state.Idle csId
  collecting : rest ≠ [] → ∃ assembler, state.assemblers.lookup csId = some assembler ∧
    assembler.msgLength = msg.payload.length ∧ assembler.Awaits msg rest

/-- The chunk stream is as it was. -/
structure SameAt (csId : ℕ) (state state' : ChunkState) : Prop where
  headers : state'.headers.lookup csId = state.headers.lookup csId
  assemblers : state'.assemblers.lookup csId = state.assemblers.lookup csId

variable {chunkSize csId : ℕ} {state state' : ChunkState} {msg : RtmpMessage}
  {bytes rest : List UInt8} {raw header : ChunkHeader}

theorem Idle.of_sameAt (h : state.Idle csId) (hsame : SameAt csId state state') :
    state'.Idle csId := by
  intro assembler ha
  rw [hsame.assemblers] at ha
  exact h assembler ha

theorem InProgress.of_sameAt (h : state.InProgress csId msg rest)
    (hsame : SameAt csId state state') : state'.InProgress csId msg rest where
  header := by
    rw [hsame.headers]
    exact h.header
  idle hrest := (h.idle hrest).of_sameAt hsame
  collecting := by
    rw [hsame.assemblers]
    exact h.collecting

/-- **The next part** of a message is taken off the front of the buffer, whatever follows it. -/
theorem takeChunk_part
    (hraw : readChunkHeader (bytes ++ rest.take chunkSize) = some (raw, bytes.length))
    (hresolve : raw.resolve (state.headers.lookup raw.chunkStreamId) = some header)
    (hheader : header.Describes msg) (hremaining : state.remainingMsg header = rest.length)
    (hawaits : ((state.assemblers.lookup raw.chunkStreamId).getD .default).Awaits msg rest) :
    ∃ state', state'.InProgress raw.chunkStreamId msg (rest.drop chunkSize) ∧
      (∀ csId, csId ≠ raw.chunkStreamId → SameAt csId state state') ∧
      ∀ more, state.takeChunk chunkSize (bytes ++ rest.take chunkSize ++ more) =
        some (state', more, msg.completed (rest.drop chunkSize)) := by
  suffices hnone : ∃ state', state'.InProgress raw.chunkStreamId msg (rest.drop chunkSize) ∧
      (∀ csId, csId ≠ raw.chunkStreamId → SameAt csId state state') ∧
      state.takeChunk chunkSize (bytes ++ rest.take chunkSize) =
        some (state', [], msg.completed (rest.drop chunkSize)) by
    obtain ⟨state', hprogress, hothers, htake⟩ := hnone
    exact ⟨state', hprogress, hothers, fun more => takeChunk_append htake more⟩
  have hcs := ChunkHeader.resolve_chunkStreamId hresolve
  have hpart : min chunkSize rest.length = (rest.take chunkSize).length := List.length_take.symm
  have hdrop : (bytes ++ rest.take chunkSize).drop bytes.length = rest.take chunkSize ++ [] := by
    rw [List.drop_left' rfl, List.append_nil]
  rw [takeChunk_of_resolve hraw hresolve, hremaining, hpart, slice_eq_of_drop hdrop,
    drop_of_drop hdrop, hcs, if_neg (by simp only [List.length_append]; omega)]
  have hothers : ∀ assembler csId, csId ≠ raw.chunkStreamId →
      SameAt csId state { assemblers := state.assemblers.insert raw.chunkStreamId assembler,
                          headers := state.headers.insert raw.chunkStreamId header } := by
    intro assembler csId hne
    exact ⟨AList.lookup_insert_ne hne, AList.lookup_insert_ne hne⟩
  by_cases hlast : rest.drop chunkSize = []
  · have hall : rest.take chunkSize = rest := by
      rw [← List.take_append_drop chunkSize rest, hlast, List.append_nil, List.take_take,
        Nat.min_self]
    rw [hall, hlast]
    obtain ⟨assembler', hextend, hidle⟩ := hawaits.extend_last hheader
    rw [hextend]
    refine ⟨_, ⟨⟨header, AList.lookup_insert _, hheader⟩, ?_, fun h => absurd rfl h⟩,
      hothers assembler', rfl⟩
    intro _ assembler ha
    rw [AList.lookup_insert] at ha
    obtain rfl := Option.some.inj ha
    exact hidle
  · rw [← List.take_append_drop chunkSize rest] at hawaits
    obtain ⟨assembler', hextend, hlength, hawaits'⟩ := hawaits.extend_part hheader hlast
    rw [hextend, RtmpMessage.completed, if_neg fun hc => hlast hc.1]
    exact ⟨_, ⟨⟨header, AList.lookup_insert _, hheader⟩, fun h => absurd h hlast,
      fun _ => ⟨assembler', AList.lookup_insert _, hlength, hawaits'⟩⟩, hothers assembler', rfl⟩

/-- The first part of a message. -/
theorem takeChunk_first
    (hraw : readChunkHeader (bytes ++ msg.payload.take chunkSize) = some (raw, bytes.length))
    (hidle : state.Idle raw.chunkStreamId)
    (hresolve : raw.resolve (state.headers.lookup raw.chunkStreamId) = some header)
    (hheader : header.Describes msg) :
    ∃ state', state'.InProgress raw.chunkStreamId msg (msg.payload.drop chunkSize) ∧
      (∀ csId, csId ≠ raw.chunkStreamId → SameAt csId state state') ∧
      ∀ more, state.takeChunk chunkSize (bytes ++ msg.payload.take chunkSize ++ more) =
        some (state', more, msg.completed (msg.payload.drop chunkSize)) := by
  have hcs := ChunkHeader.resolve_chunkStreamId hresolve
  refine takeChunk_part hraw hresolve hheader ?_ ?_
  · rw [remainingMsg, hcs, hheader.msgLength]
    rcases ha : state.assemblers.lookup raw.chunkStreamId with _ | assembler
    · rfl
    · dsimp only
      rw [if_neg (by rw [(hidle assembler ha).1]; exact Nat.lt_irrefl 0)]
  · rcases ha : state.assemblers.lookup raw.chunkStreamId with _ | assembler
    · exact ⟨rfl, rfl⟩
    · obtain ⟨-, hreceived, hbuffer⟩ := hidle assembler ha
      refine ⟨?_, ?_⟩
      · rw [Option.getD_some, hreceived, hbuffer, List.length_nil]
      · rw [Option.getD_some, hbuffer, List.nil_append]

/-- A further part of a message. -/
theorem takeChunk_next
    (hraw : readChunkHeader (bytes ++ rest.take chunkSize) = some (raw, bytes.length))
    (hfmt : raw.fmt = .type3) (hprogress : state.InProgress raw.chunkStreamId msg rest)
    (hrest : rest ≠ []) :
    ∃ state', state'.InProgress raw.chunkStreamId msg (rest.drop chunkSize) ∧
      (∀ csId, csId ≠ raw.chunkStreamId → SameAt csId state state') ∧
      ∀ more, state.takeChunk chunkSize (bytes ++ rest.take chunkSize ++ more) =
        some (state', more, msg.completed (rest.drop chunkSize)) := by
  obtain ⟨last, hlast, htime, hlength, htype, hstream⟩ := hprogress.header
  obtain ⟨assembler, ha, hmsg, hawaits⟩ := hprogress.collecting hrest
  have hsize : msg.payload.length = assembler.received + rest.length := by
    rw [← hawaits.buffer, hawaits.received, List.length_append]
  have hpos := List.length_pos_of_ne_nil hrest
  have hresolve := ChunkHeader.resolve_type3 hfmt last
  rw [← hlast] at hresolve
  refine takeChunk_part hraw hresolve ⟨htime, hlength, htype, hstream⟩ ?_ ?_
  · rw [remainingMsg]
    dsimp only
    rw [ha]
    dsimp only
    rw [if_pos (by omega), hmsg]
    omega
  · rwa [ha]

end ChunkState

end VcpMediaServer
