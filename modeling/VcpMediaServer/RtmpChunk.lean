import Mathlib.Data.List.AList
import VcpMediaServer.Bytes
import VcpMediaServer.Incremental
import VcpMediaServer.RtmpConnection

/-!
# RTMP chunks

The receiving half of `rtmp/chunk.rs` and the loop that calls it. A message
travels in chunks, and the chunks of several **chunk streams** are interleaved;
what a chunk header leaves out is that of the last one of its chunk stream.

* `parseChunkHeader` — the header at the front of the buffer. It is remembered
  at once, **before** it is known that the payload is complete.
* `parseChunks` — takes chunks off the buffer up to the first that completes a
  message.
* `ReadLoop` — a loop that appends what it reads to the buffer and takes all
  the messages there are. The server and the puller differ in what a message
  does to the size that later chunks are cut with.
* `ReadLoop.messages_eq_run` — such a loop is an **incremental parser**, a chunk
  a step, that remembers the header of an incomplete chunk.

Timestamps are added modulo `2 ^ 32`, as a release build does.
-/

namespace VcpMediaServer

/-! ## Headers -/

/-- `ChunkFmt`. -/
inductive ChunkFmt where
  | type0
  | type1
  | type2
  | type3
  deriving DecidableEq, Repr

namespace ChunkFmt

/-- The format of the two top bits. -/
def ofByte (b : UInt8) : ChunkFmt :=
  if b >>> 6 = 0 then .type0
  else if b >>> 6 = 1 then .type1
  else if b >>> 6 = 2 then .type2
  else .type3

/-- `msg_header_size`. -/
def msgHeaderSize : ChunkFmt → ℕ
  | .type0 => 11
  | .type1 => 7
  | .type2 => 3
  | .type3 => 0

/-- The header has a timestamp of its own. -/
def hasTimestamp (fmt : ChunkFmt) : Bool := fmt != .type3

/-- The header has a message length and a message type of its own. -/
def hasLength (fmt : ChunkFmt) : Bool := fmt == .type0 || fmt == .type1

/-- The header has a message stream id of its own. -/
def hasStreamId (fmt : ChunkFmt) : Bool := fmt == .type0

end ChunkFmt

/-- `ChunkHeader`. -/
structure ChunkHeader where
  /-- The format. -/
  fmt : ChunkFmt
  /-- The chunk stream. -/
  chunkStreamId : ℕ
  /-- The timestamp of the message. -/
  timestamp : UInt32
  /-- The length of the message. -/
  msgLength : ℕ
  /-- The type of the message. -/
  msgTypeId : UInt8
  /-- The message stream. -/
  msgStreamId : UInt32
  /-- The timestamp did not fit into three bytes. -/
  hasExtendedTimestamp : Bool
  deriving DecidableEq, Repr

/-- The basic header: the format, its size and the chunk stream. -/
def readBasicHeader : List UInt8 → Option (ChunkFmt × ℕ × ℕ)
  | [] => none
  | b :: rest =>
    if b &&& 0x3F = 0 then
      match rest with
      | [] => none
      | c :: _ => some (.ofByte b, 2, 64 + c.toNat)
    else if b &&& 0x3F = 1 then
      match rest with
      | c :: d :: _ => some (.ofByte b, 3, 64 + c.toNat + d.toNat * 256)
      | _ => none
    else some (.ofByte b, 1, (b &&& 0x3F).toNat)

/-- The little-endian number of the bytes. -/
def leNat (bytes : List UInt8) : ℕ := beNat bytes.reverse

/-- The fields of a message header, with zero for what its format leaves out. -/
def readMsgHeader (fmt : ChunkFmt) (chunkStreamId : ℕ) (fields : List UInt8) : ChunkHeader :=
  { fmt, chunkStreamId
    timestamp := if fmt.hasTimestamp then .ofNat (beNat (slice fields 0 3)) else 0
    msgLength := if fmt.hasLength then beNat (slice fields 3 3) else 0
    msgTypeId := if fmt.hasLength then fields.getD 6 0 else 0
    msgStreamId := if fmt.hasStreamId then .ofNat (leNat (slice fields 7 4)) else 0
    hasExtendedTimestamp := false }

/-- The first part of `parse_chunk_header`: the header as it stands in the
buffer, and its size. -/
def readChunkHeader (buf : List UInt8) : Option (ChunkHeader × ℕ) :=
  match readBasicHeader buf with
  | none => none
  | some (fmt, basicHeaderSize, chunkStreamId) =>
    let offset := basicHeaderSize + fmt.msgHeaderSize
    if buf.length < offset then none
    else
      let header := readMsgHeader fmt chunkStreamId (slice buf basicHeaderSize fmt.msgHeaderSize)
      if header.timestamp = 0xFFFFFF then
        if buf.length < offset + 4 then none
        else
          let timestamp := .ofNat (beNat (slice buf offset 4))
          some ({ header with timestamp, hasExtendedTimestamp := true }, offset + 4)
      else some (header, offset)

/-- The second part of `parse_chunk_header`: what the header leaves out is that
of the last one of its chunk stream. The timestamps of types 1 and 2 are
**deltas**. -/
def ChunkHeader.resolve (header : ChunkHeader) (last : Option ChunkHeader) : Option ChunkHeader :=
  match header.fmt, last with
  | .type0, _ => some header
  | _, none => none
  | .type1, some last =>
    some { header with
      timestamp := header.timestamp + last.timestamp
      msgStreamId := last.msgStreamId }
  | .type2, some last =>
    some { header with
      timestamp := header.timestamp + last.timestamp
      msgLength := last.msgLength
      msgTypeId := last.msgTypeId
      msgStreamId := last.msgStreamId }
  | .type3, some last =>
    some { header with
      timestamp := last.timestamp
      msgLength := last.msgLength
      msgTypeId := last.msgTypeId
      msgStreamId := last.msgStreamId }

/-- `chunk_message_headers`: the last header of each chunk stream. -/
abbrev ChunkHeaders := AList fun _ : ℕ => ChunkHeader

/-- `parse_chunk_header`: the header at the front, its size, and the headers
with this one among them. -/
def parseChunkHeader (buf : List UInt8) (headers : ChunkHeaders) :
    Option (ChunkHeader × ℕ × ChunkHeaders) :=
  match readChunkHeader buf with
  | none => none
  | some (raw, size) =>
    match raw.resolve (headers.lookup raw.chunkStreamId) with
    | none => none
    | some header => some (header, size, headers.insert header.chunkStreamId header)

/-! ## Messages -/

/-- `ChunkAssembler`: what has arrived of the message of a chunk stream. -/
structure ChunkAssembler where
  /-- The timestamp of the last chunk. -/
  timestamp : UInt32
  /-- The length of the message, zero between two messages. -/
  msgLength : ℕ
  /-- The type of the message. -/
  msgTypeId : UInt8
  /-- The message stream. -/
  msgStreamId : UInt32
  /-- The number of bytes that have arrived. -/
  received : ℕ
  /-- The bytes that have arrived. -/
  buffer : List UInt8
  deriving DecidableEq, Repr

namespace ChunkAssembler

/-- `ChunkAssembler::default`. -/
def default : ChunkAssembler :=
  { timestamp := 0, msgLength := 0, msgTypeId := 0, msgStreamId := 0, received := 0,
    buffer := [] }

/-- A chunk of the message arrives, and completes it or not. -/
def extend (header : ChunkHeader) (data : List UInt8) (assembler : ChunkAssembler) :
    ChunkAssembler × Option RtmpMessage :=
  let assembler : ChunkAssembler :=
    { timestamp := header.timestamp
      msgLength := header.msgLength
      msgTypeId := header.msgTypeId
      msgStreamId := header.msgStreamId
      received := assembler.received + data.length
      buffer := assembler.buffer ++ data }
  if assembler.msgLength ≤ assembler.received ∧ 0 < assembler.msgLength then
    ({ assembler with msgLength := 0, received := 0, buffer := [] },
      some { msgType := assembler.msgTypeId, timestamp := assembler.timestamp,
             streamId := assembler.msgStreamId, payload := assembler.buffer })
  else (assembler, none)

end ChunkAssembler

/-- What the parser keeps between two calls. -/
structure ChunkState where
  /-- `chunk_states`. -/
  assemblers : AList fun _ : ℕ => ChunkAssembler
  /-- `chunk_message_headers`. -/
  headers : ChunkHeaders

namespace ChunkState

/-- Nothing has arrived. -/
def new : ChunkState := { assemblers := ∅, headers := ∅ }

/-- `remaining_msg`: what is missing of the message that the header continues. -/
def remainingMsg (state : ChunkState) (header : ChunkHeader) : ℕ :=
  match state.assemblers.lookup header.chunkStreamId with
  | none => header.msgLength
  | some assembler =>
    if 0 < assembler.msgLength then assembler.msgLength - assembler.received
    else header.msgLength

/-- A turn of `parse_chunks` that takes a chunk: the state and the buffer after
it and the message it completes. `none` if the chunk is not complete. -/
def takeChunk (chunkSize : ℕ) (state : ChunkState) (buf : List UInt8) :
    Option (ChunkState × List UInt8 × Option RtmpMessage) :=
  match parseChunkHeader buf state.headers with
  | none => none
  | some (header, headerSize, headers) =>
    let dataSize := min chunkSize (state.remainingMsg header)
    if buf.length < headerSize + dataSize then none
    else
      let assembler := (state.assemblers.lookup header.chunkStreamId).getD .default
      let (assembler, msg) := assembler.extend header (slice buf headerSize dataSize)
      some ({ assemblers := state.assemblers.insert header.chunkStreamId assembler, headers },
        buf.drop (headerSize + dataSize), msg)

/-- A turn of `parse_chunks` that takes nothing: a header that could be read is
remembered. -/
def seeHeader (state : ChunkState) (buf : List UInt8) : ChunkState :=
  match parseChunkHeader buf state.headers with
  | none => state
  | some (_, _, headers) => { state with headers }

end ChunkState

/-- The loop of `parse_chunks`, for at most `fuel` turns. -/
def parseChunksFuel (chunkSize : ℕ) :
    ℕ → ChunkState → List UInt8 → Option RtmpMessage × ChunkState × List UInt8
  | 0, state, buf => (none, state, buf)
  | fuel + 1, state, buf =>
    match state.takeChunk chunkSize buf with
    | none => (none, state.seeHeader buf, buf)
    | some (state, rest, some msg) => (some msg, state, rest)
    | some (state, rest, none) => parseChunksFuel chunkSize fuel state rest

/-- `parse_chunks`. Every turn but the last takes a byte or more, so the fuel
suffices. -/
def parseChunks (chunkSize : ℕ) (state : ChunkState) (buf : List UInt8) :
    Option RtmpMessage × ChunkState × List UInt8 :=
  parseChunksFuel chunkSize (buf.length + 1) state buf

/-! ## Read loops -/

/-- A read loop, by what it does with its own variables. -/
structure ReadLoop (κ : Type) where
  /-- The size that chunks are cut with. -/
  chunkSize : κ → ℕ
  /-- A message has been taken. -/
  onMessage : κ → RtmpMessage → κ
  /-- No more messages are in the buffer. -/
  afterRead : κ → κ

namespace ReadLoop

variable {κ : Type}

/-- `while let Some(msg) = parse_chunks(..)`, for at most `fuel` messages. -/
def takeAllFuel (loop : ReadLoop κ) :
    ℕ → κ × ChunkState → List UInt8 → List RtmpMessage × (κ × ChunkState) × List UInt8
  | 0, s, buf => ([], s, buf)
  | fuel + 1, (vars, state), buf =>
    match parseChunks (loop.chunkSize vars) state buf with
    | (none, state, rest) => ([], (vars, state), rest)
    | (some msg, state, rest) =>
      let r := loop.takeAllFuel fuel (loop.onMessage vars msg, state) rest
      (msg :: r.1, r.2)

/-- All the messages in the buffer. Each takes a byte or more, so the fuel
suffices. -/
def takeAll (loop : ReadLoop κ) (s : κ × ChunkState) (buf : List UInt8) :
    List RtmpMessage × (κ × ChunkState) × List UInt8 :=
  loop.takeAllFuel (buf.length + 1) s buf

/-- The messages of the reads, one read after the other. -/
def messages (loop : ReadLoop κ) : κ × ChunkState → List UInt8 → List (List UInt8) →
    List RtmpMessage
  | _, _, [] => []
  | s, buf, read :: reads =>
    let r := loop.takeAll s (buf ++ read)
    r.1 ++ loop.messages (loop.afterRead r.2.1.1, r.2.1.2) r.2.2 reads

end ReadLoop

/-! ## What follows a chunk -/

/-- A basic header takes a byte or more, and all of them are there. -/
theorem readBasicHeader_size {buf : List UInt8} {fmt : ChunkFmt} {size csId : ℕ}
    (h : readBasicHeader buf = some (fmt, size, csId)) : 0 < size ∧ size ≤ buf.length := by
  unfold readBasicHeader at h
  split at h
  · cases h
  · split_ifs at h
    · split at h <;> cases h
      simp
    · split at h <;> cases h
      simp
    · cases h
      simp

theorem readBasicHeader_append {buf : List UInt8} {r : ChunkFmt × ℕ × ℕ}
    (h : readBasicHeader buf = some r) (more : List UInt8) :
    readBasicHeader (buf ++ more) = some r := by
  unfold readBasicHeader at h
  split at h
  · cases h
  · next b rest =>
    rw [List.cons_append]
    dsimp only [readBasicHeader]
    split_ifs at h ⊢
    · split at h <;> cases h
      rfl
    · split at h <;> cases h
      rfl
    · exact h

/-- A header takes a byte or more, and all of them are there. -/
theorem readChunkHeader_size {buf : List UInt8} {raw : ChunkHeader} {size : ℕ}
    (h : readChunkHeader buf = some (raw, size)) : 0 < size ∧ size ≤ buf.length := by
  unfold readChunkHeader at h
  split at h
  · cases h
  · next fmt basicHeaderSize csId hb =>
    obtain ⟨hpos, -⟩ := readBasicHeader_size hb
    dsimp only at h
    split_ifs at h <;> simp only [Option.some.injEq, Prod.mk.injEq] at h <;> omega

/-- A complete header is read the same, whatever follows it. -/
theorem readChunkHeader_append {buf : List UInt8} {r : ChunkHeader × ℕ}
    (h : readChunkHeader buf = some r) (more : List UInt8) :
    readChunkHeader (buf ++ more) = some r := by
  unfold readChunkHeader at h ⊢
  split at h
  · cases h
  · next fmt basicHeaderSize csId hb =>
    rw [readBasicHeader_append hb more]
    dsimp only at h ⊢
    have hlen : (buf ++ more).length = buf.length + more.length := List.length_append
    split_ifs at h with hshort hext hshort'
    · rw [if_neg (by omega), slice_append (by omega), if_pos hext, if_neg (by omega),
        slice_append (by omega)]
      exact h
    · rw [if_neg (by omega), slice_append (by omega), if_neg hext]
      exact h

/-- A header that is parsed was read. -/
theorem parseChunkHeader_eq_some {buf : List UInt8} {headers headers' : ChunkHeaders}
    {header : ChunkHeader} {size : ℕ}
    (h : parseChunkHeader buf headers = some (header, size, headers')) :
    ∃ raw, readChunkHeader buf = some (raw, size) ∧
      raw.resolve (headers.lookup raw.chunkStreamId) = some header ∧
      headers' = headers.insert header.chunkStreamId header := by
  unfold parseChunkHeader at h
  split at h
  · cases h
  · next raw size' hraw =>
    split at h
    · cases h
    · next header' hresolve =>
      simp only [Option.some.injEq, Prod.mk.injEq] at h
      obtain ⟨rfl, rfl, rfl⟩ := h
      exact ⟨raw, hraw, hresolve, rfl⟩

theorem parseChunkHeader_append {buf : List UInt8} {headers : ChunkHeaders}
    {r : ChunkHeader × ℕ × ChunkHeaders} (h : parseChunkHeader buf headers = some r)
    (more : List UInt8) : parseChunkHeader (buf ++ more) headers = some r := by
  obtain ⟨header, size, headers'⟩ := r
  obtain ⟨raw, hraw, hresolve, rfl⟩ := parseChunkHeader_eq_some h
  rw [parseChunkHeader, readChunkHeader_append hraw more]
  dsimp only
  rw [hresolve]

namespace ChunkState

variable {chunkSize : ℕ} {state state' : ChunkState} {buf rest : List UInt8}
  {msg : Option RtmpMessage}

/-- **What a chunk does**: its header and its payload are in the buffer, and both are
recorded. -/
theorem takeChunk_eq_some (h : state.takeChunk chunkSize buf = some (state', rest, msg)) :
    ∃ header headerSize headers assembler,
      parseChunkHeader buf state.headers = some (header, headerSize, headers) ∧
      headerSize + min chunkSize (state.remainingMsg header) ≤ buf.length ∧
      ((state.assemblers.lookup header.chunkStreamId).getD .default).extend header
        (slice buf headerSize (min chunkSize (state.remainingMsg header))) = (assembler, msg) ∧
      state' = { assemblers := state.assemblers.insert header.chunkStreamId assembler, headers } ∧
      rest = buf.drop (headerSize + min chunkSize (state.remainingMsg header)) := by
  unfold takeChunk at h
  split at h
  · cases h
  · next header headerSize headers hp =>
    dsimp only at h
    split_ifs at h with hshort
    simp only [Option.some.injEq, Prod.mk.injEq] at h
    obtain ⟨rfl, rfl, rfl⟩ := h
    exact ⟨header, headerSize, headers, _, hp, by omega, rfl, rfl, rfl⟩

/-- A chunk takes a byte or more. -/
theorem takeChunk_length (h : state.takeChunk chunkSize buf = some (state', rest, msg)) :
    rest.length < buf.length := by
  obtain ⟨header, headerSize, headers, assembler, hp, hlen, -, -, rfl⟩ := takeChunk_eq_some h
  obtain ⟨raw, hraw, -, -⟩ := parseChunkHeader_eq_some hp
  obtain ⟨hpos, -⟩ := readChunkHeader_size hraw
  rw [List.length_drop]
  omega

/-- A complete chunk is taken the same, whatever follows it. -/
theorem takeChunk_append (h : state.takeChunk chunkSize buf = some (state', rest, msg))
    (more : List UInt8) :
    state.takeChunk chunkSize (buf ++ more) = some (state', rest ++ more, msg) := by
  obtain ⟨header, headerSize, headers, assembler, hp, hlen, hextend, rfl, rfl⟩ :=
    takeChunk_eq_some h
  rw [takeChunk, parseChunkHeader_append hp more]
  dsimp only
  rw [List.length_append, if_neg (by omega), slice_append hlen, hextend,
    List.drop_append_of_le_length hlen]

end ChunkState

namespace ReadLoop

variable {κ : Type}

/-- The variables after a chunk. -/
def afterChunk (loop : ReadLoop κ) (vars : κ) : Option RtmpMessage → κ
  | none => vars
  | some msg => loop.onMessage vars msg

/-- A chunk as a step of an incremental parser: what it puts out is the message that it
completes. -/
def step (loop : ReadLoop κ) (s : κ × ChunkState) (buf : List UInt8) :
    Option ((κ × ChunkState) × List UInt8 × List RtmpMessage) :=
  match s.2.takeChunk (loop.chunkSize s.1) buf with
  | none => none
  | some (state, rest, msg) => some ((loop.afterChunk s.1 msg, state), rest, msg.toList)

/-- What is done when no more messages are in the buffer. -/
def touch (loop : ReadLoop κ) (s : κ × ChunkState) (buf : List UInt8) : κ × ChunkState :=
  (loop.afterRead s.1, s.2.seeHeader buf)

variable (loop : ReadLoop κ)

theorem step_of_none {s : κ × ChunkState} {buf : List UInt8}
    (h : s.2.takeChunk (loop.chunkSize s.1) buf = none) : loop.step s buf = none := by
  simp only [step, h]

theorem step_of_some {s : κ × ChunkState} {buf rest : List UInt8} {state : ChunkState}
    {msg : Option RtmpMessage}
    (h : s.2.takeChunk (loop.chunkSize s.1) buf = some (state, rest, msg)) :
    loop.step s buf = some ((loop.afterChunk s.1 msg, state), rest, msg.toList) := by
  simp only [step, h]

theorem step_consumes : Incremental.Consumes loop.step := by
  intro s buf s' rest out h
  rcases ht : s.2.takeChunk (loop.chunkSize s.1) buf with _ | ⟨state, rest', msg⟩
  · rw [loop.step_of_none ht] at h
    cases h
  · rw [loop.step_of_some ht] at h
    cases h
    exact ChunkState.takeChunk_length ht

theorem step_extends : Incremental.Extends loop.step := by
  intro s buf s' rest out h more
  rcases ht : s.2.takeChunk (loop.chunkSize s.1) buf with _ | ⟨state, rest', msg⟩
  · rw [loop.step_of_none ht] at h
    cases h
  · rw [loop.step_of_some ht] at h
    cases h
    exact loop.step_of_some (ChunkState.takeChunk_append ht more)

/-! ## The loops are incremental -/

/-- A call of `parse_chunks` that returns a message. -/
theorem drain_of_parse_some {fuel : ℕ} {vars : κ} {state state' : ChunkState}
    {buf rest : List UInt8} {msg : RtmpMessage}
    (h : parseChunksFuel (loop.chunkSize vars) fuel state buf = (some msg, state', rest)) :
    rest.length < buf.length ∧
      Incremental.drain loop.step (vars, state) buf =
        (msg :: (Incremental.drain loop.step (loop.onMessage vars msg, state') rest).1,
          (Incremental.drain loop.step (loop.onMessage vars msg, state') rest).2) := by
  induction fuel generalizing state buf with
  | zero =>
    rw [parseChunksFuel] at h
    cases h
  | succ fuel ih =>
    rw [parseChunksFuel] at h
    rcases ht : state.takeChunk (loop.chunkSize vars) buf with _ | ⟨state₁, rest₁, msg₁⟩
    · rw [ht] at h
      cases h
    · have hlt := ChunkState.takeChunk_length ht
      rw [ht] at h
      rw [Incremental.drain_of_some loop.step_consumes (loop.step_of_some (s := (vars, state)) ht)]
      cases msg₁ with
      | some msg₁ =>
        cases h
        exact ⟨hlt, rfl⟩
      | none =>
        obtain ⟨hlt', hdrain⟩ := ih h
        exact ⟨by omega, hdrain⟩

/-- A call of `parse_chunks` that returns without a message. -/
theorem drain_of_parse_none {fuel : ℕ} {vars : κ} {state state' : ChunkState}
    {buf rest : List UInt8} (hfuel : buf.length < fuel)
    (h : parseChunksFuel (loop.chunkSize vars) fuel state buf = (none, state', rest)) :
    ∃ state'', Incremental.drain loop.step (vars, state) buf = ([], (vars, state''), rest) ∧
      state' = state''.seeHeader rest := by
  induction fuel generalizing state buf with
  | zero => omega
  | succ fuel ih =>
    rw [parseChunksFuel] at h
    rcases ht : state.takeChunk (loop.chunkSize vars) buf with _ | ⟨state₁, rest₁, msg₁⟩
    · rw [ht] at h
      cases h
      exact ⟨state, Incremental.drain_of_none (loop.step_of_none (s := (vars, state)) ht), rfl⟩
    · have hlt := ChunkState.takeChunk_length ht
      rw [ht] at h
      rw [Incremental.drain_of_some loop.step_consumes (loop.step_of_some (s := (vars, state)) ht)]
      cases msg₁ with
      | some msg₁ => cases h
      | none =>
        obtain ⟨state'', hdrain, hsee⟩ := ih (by omega) h
        refine ⟨state'', ?_, hsee⟩
        rw [show (loop.afterChunk vars none, state₁) = (vars, state₁) from rfl, hdrain]
        rfl

/-- All the messages in the buffer are those of its chunks. -/
theorem takeAllFuel_eq_drain {fuel : ℕ} (s : κ × ChunkState) (buf : List UInt8)
    (hfuel : buf.length < fuel) :
    loop.takeAllFuel fuel s buf =
      ((Incremental.drain loop.step s buf).1,
        ((Incremental.drain loop.step s buf).2.1.1,
          (Incremental.drain loop.step s buf).2.1.2.seeHeader
            (Incremental.drain loop.step s buf).2.2),
        (Incremental.drain loop.step s buf).2.2) := by
  induction fuel generalizing s buf with
  | zero => omega
  | succ fuel ih =>
    obtain ⟨vars, state⟩ := s
    rw [takeAllFuel]
    rcases hp : parseChunks (loop.chunkSize vars) state buf with ⟨_ | msg, state', rest⟩
    · obtain ⟨state'', hdrain, rfl⟩ := loop.drain_of_parse_none (Nat.lt_succ_self _) hp
      rw [hdrain]
    · obtain ⟨hlt, hdrain⟩ := loop.drain_of_parse_some hp
      dsimp only
      rw [hdrain, ih _ _ (by omega)]

/-- A read loop is an **incremental parser** that takes a chunk a step. -/
theorem messages_eq_run (s : κ × ChunkState) (buf : List UInt8) (reads : List (List UInt8)) :
    loop.messages s buf reads = (Incremental.run loop.step loop.touch s buf reads).1 := by
  induction reads generalizing s buf with
  | nil => rfl
  | cons read reads ih =>
    rw [messages, Incremental.run, takeAll,
      loop.takeAllFuel_eq_drain s (buf ++ read) (Nat.lt_succ_self _)]
    dsimp only
    rw [ih]
    rfl

end ReadLoop

end VcpMediaServer
