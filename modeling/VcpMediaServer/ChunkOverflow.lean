import VcpMediaServer.MessageBoundaries
import VcpMediaServer.RtmpPanics

/-!
# Overflows of the chunk parser

`parse_chunk_header` and `parse_chunks` again, in a build with **overflow checks**: every index,
slice and addition as the source has it, `none` where one panics.

* `Checked.parseChunkHeader_eq`, `Checked.takeChunk_eq` — all accesses are inside the buffer, and
  all sums are small, but for the timestamps of types 1 and 2, which are added to that of the last
  header.
* `SafeFront` — the condition on a front.
* `Checked.isSome_messages_iff` — a read loop does not panic **exactly if** every front that it
  looks at is safe.
-/

namespace VcpMediaServer

namespace Checked

/-! ## Sums -/

/-- `a + b` of the type `u32`. -/
def addU32 (a b : ℕ) : Option ℕ := if a + b < 2 ^ 32 then some (a + b) else none

/-- `a * b` of the type `u32`. -/
def mulU32 (a b : ℕ) : Option ℕ := if a * b < 2 ^ 32 then some (a * b) else none

/-- `timestamp += last_header.timestamp`. -/
def addTimestamp (a b : UInt32) : Option UInt32 :=
  if a.toNat + b.toNat < 2 ^ 32 then some (a + b) else none

/-- `buf[offset + k]`. -/
def byteAt (buf : List UInt8) (offset k : ℕ) : Option UInt8 := do
  let i ← addUsize offset k
  index buf i

/-- Three bytes at an offset, in big-endian order. -/
def be24At (buf : List UInt8) (offset : ℕ) : Option ℕ := do
  let a ← byteAt buf offset 0
  let b ← byteAt buf offset 1
  let c ← byteAt buf offset 2
  return beNat [a, b, c]

/-- Four bytes at an offset, as the code takes them one by one. -/
def fourAt (buf : List UInt8) (offset : ℕ) : Option (List UInt8) := do
  let a ← byteAt buf offset 0
  let b ← byteAt buf offset 1
  let c ← byteAt buf offset 2
  let d ← byteAt buf offset 3
  return [a, b, c, d]

/-! ## Headers -/

/-- The basic header: the format, its size and the chunk stream. -/
def readBasicHeader (buf : List UInt8) : Option (Option (ChunkFmt × ℕ × ℕ)) := do
  let b ← index buf 0
  let fmt := ChunkFmt.ofByte b
  if b &&& 0x3F = 0 then
    if buf.length < 2 then return none
    else do
      let c ← index buf 1
      let csId ← addU32 64 c.toNat
      return some (fmt, 2, csId)
  else if b &&& 0x3F = 1 then
    if buf.length < 3 then return none
    else do
      let c ← index buf 1
      let d ← index buf 2
      let low ← addU32 64 c.toNat
      let high ← mulU32 d.toNat 256
      let csId ← addU32 low high
      return some (fmt, 3, csId)
  else return some (fmt, 1, (b &&& 0x3F).toNat)

/-- The timestamp of a message header, and the offset behind it. -/
def timestampField (fmt : ChunkFmt) (buf : List UInt8) (offset : ℕ) : Option (ℕ × ℕ) :=
  if fmt.hasTimestamp then do
    let timestamp ← be24At buf offset
    let next ← addUsize offset 3
    return (timestamp, next)
  else return (0, offset)

/-- The length and the type. -/
def lengthField (fmt : ChunkFmt) (buf : List UInt8) (offset : ℕ) : Option ((ℕ × UInt8) × ℕ) :=
  if fmt.hasLength then do
    let msgLength ← be24At buf offset
    let msgTypeId ← byteAt buf offset 3
    let next ← addUsize offset 4
    return ((msgLength, msgTypeId), next)
  else return ((0, 0), offset)

/-- The message stream. -/
def streamIdField (fmt : ChunkFmt) (buf : List UInt8) (offset : ℕ) : Option (UInt32 × ℕ) :=
  if fmt.hasStreamId then do
    let bytes ← fourAt buf offset
    let next ← addUsize offset 4
    return (.ofNat (leNat bytes), next)
  else return (0, offset)

/-- The fields of a message header, and the offset behind them. -/
def readMsgHeader (fmt : ChunkFmt) (chunkStreamId : ℕ) (buf : List UInt8) (offset : ℕ) :
    Option (ChunkHeader × ℕ) := do
  let (timestamp, offset) ← timestampField fmt buf offset
  let ((msgLength, msgTypeId), offset) ← lengthField fmt buf offset
  let (msgStreamId, offset) ← streamIdField fmt buf offset
  return ({ fmt, chunkStreamId, timestamp := .ofNat timestamp, msgLength, msgTypeId, msgStreamId
            hasExtendedTimestamp := false }, offset)

/-- The first part of `parse_chunk_header`. -/
def readChunkHeader (buf : List UInt8) : Option (Option (ChunkHeader × ℕ)) :=
  if buf.isEmpty then return none
  else do
    let _preview ← range buf 0 (min 64 buf.length)
    match ← readBasicHeader buf with
    | none => return none
    | some (fmt, basicHeaderSize, chunkStreamId) =>
      let size ← addUsize basicHeaderSize fmt.msgHeaderSize
      if buf.length < size then return none
      else do
        let (header, offset) ← readMsgHeader fmt chunkStreamId buf basicHeaderSize
        if header.timestamp = 0xFFFFFF then do
          let next ← addUsize offset 4
          if buf.length < next then return none
          else do
            let bytes ← fourAt buf offset
            return some ({ header with
              timestamp := .ofNat (beNat bytes)
              hasExtendedTimestamp := true }, next)
        else return some (header, offset)

/-- The second part of `parse_chunk_header`. -/
def resolve (header : ChunkHeader) (last : Option ChunkHeader) : Option (Option ChunkHeader) :=
  match header.fmt, last with
  | .type0, _ => return some header
  | _, none => return none
  | .type1, some last => do
    let timestamp ← addTimestamp header.timestamp last.timestamp
    return some { header with timestamp, msgStreamId := last.msgStreamId }
  | .type2, some last => do
    let timestamp ← addTimestamp header.timestamp last.timestamp
    return some { header with
      timestamp
      msgLength := last.msgLength
      msgTypeId := last.msgTypeId
      msgStreamId := last.msgStreamId }
  | .type3, some last =>
    return some { header with
      timestamp := last.timestamp
      msgLength := last.msgLength
      msgTypeId := last.msgTypeId
      msgStreamId := last.msgStreamId }

/-- `parse_chunk_header`. -/
def parseChunkHeader (buf : List UInt8) (headers : ChunkHeaders) :
    Option (Option (ChunkHeader × ℕ × ChunkHeaders)) := do
  match ← readChunkHeader buf with
  | none => return none
  | some (raw, size) =>
    match ← resolve raw (headers.lookup raw.chunkStreamId) with
    | none => return none
    | some header => return some (header, size, headers.insert header.chunkStreamId header)

/-! ## Messages -/

/-- A turn of `parse_chunks`: the state after it, and if a chunk was taken the buffer and the
message that it completes. -/
def takeChunk (chunkSize : ℕ) (state : ChunkState) (buf : List UInt8) :
    Option (ChunkState × Option (List UInt8 × Option RtmpMessage)) := do
  match ← parseChunkHeader buf state.headers with
  | none => return (state, none)
  | some (header, headerSize, headers) =>
    let dataSize := min chunkSize (state.remainingMsg header)
    let size ← addUsize headerSize dataSize
    if buf.length < size then return ({ state with headers }, none)
    else do
      let data ← range buf headerSize size
      let _received ← addUsize (state.assembler header.chunkStreamId).received dataSize
      let rest ← rangeFrom buf size
      let (assembler, msg) := (state.assembler header.chunkStreamId).extend header data
      return ({ assemblers := state.assemblers.insert header.chunkStreamId assembler, headers },
        some (rest, msg))

/-- The loop of `parse_chunks`, for at most `fuel` turns. -/
def parseChunksFuel (chunkSize : ℕ) :
    ℕ → ChunkState → List UInt8 → Option (Option RtmpMessage × ChunkState × List UInt8)
  | 0, state, buf => return (none, state, buf)
  | fuel + 1, state, buf => do
    match ← takeChunk chunkSize state buf with
    | (state, none) => return (none, state, buf)
    | (state, some (rest, some msg)) => return (some msg, state, rest)
    | (state, some (rest, none)) => parseChunksFuel chunkSize fuel state rest

/-- `parse_chunks`. -/
def parseChunks (chunkSize : ℕ) (state : ChunkState) (buf : List UInt8) :
    Option (Option RtmpMessage × ChunkState × List UInt8) :=
  parseChunksFuel chunkSize (buf.length + 1) state buf

variable {κ : Type}

/-- `while let Some(msg) = parse_chunks(..)`, for at most `fuel` messages. -/
def takeAllFuel (loop : ReadLoop κ) :
    ℕ → κ × ChunkState → List UInt8 → Option (List RtmpMessage × (κ × ChunkState) × List UInt8)
  | 0, s, buf => return ([], s, buf)
  | fuel + 1, (vars, state), buf => do
    match ← parseChunks (loop.chunkSize vars) state buf with
    | (none, state, rest) => return ([], (vars, state), rest)
    | (some msg, state, rest) =>
      let r ← takeAllFuel loop fuel (loop.onMessage vars msg, state) rest
      return (msg :: r.1, r.2)

/-- The messages of the reads, one read after the other. -/
def messages (loop : ReadLoop κ) : κ × ChunkState → List UInt8 → List (List UInt8) →
    Option (List RtmpMessage)
  | _, _, [] => return []
  | s, buf, read :: reads => do
    let r ← takeAllFuel loop ((buf ++ read).length + 1) s (buf ++ read)
    let msgs ← messages loop (loop.afterRead r.2.1.1, r.2.1.2) r.2.2 reads
    return r.1 ++ msgs

/-! ## What is safe -/

section

variable {buf : List UInt8} {offset n k : ℕ}

theorem addU32_of_lt {a b : ℕ} (h : a + b < 2 ^ 32) : addU32 a b = some (a + b) := if_pos h

theorem mulU32_of_lt {a b : ℕ} (h : a * b < 2 ^ 32) : mulU32 a b = some (a * b) := if_pos h

/-- A byte inside the buffer. -/
theorem byteAt_of_lt (h : offset + k < buf.length) (hs : offset + k < 2 ^ 64) :
    byteAt buf offset k = some buf[offset + k] := by
  rw [byteAt, addUsize_of_lt hs]
  exact List.getElem?_eq_getElem h

theorem be24At_of_le (h : offset + 3 ≤ buf.length) (hs : offset + 3 < 2 ^ 64) :
    be24At buf offset = some (beNat (slice buf offset 3)) := by
  rw [be24At, byteAt_of_lt (by omega) (by omega), byteAt_of_lt (by omega) (by omega),
    byteAt_of_lt (by omega) (by omega), slice_succ (by omega), slice_succ (by omega),
    slice_succ (by omega)]
  simp [slice]

theorem fourAt_of_le (h : offset + 4 ≤ buf.length) (hs : offset + 4 < 2 ^ 64) :
    fourAt buf offset = some (slice buf offset 4) := by
  rw [fourAt, byteAt_of_lt (by omega) (by omega), byteAt_of_lt (by omega) (by omega),
    byteAt_of_lt (by omega) (by omega), byteAt_of_lt (by omega) (by omega), slice_succ (by omega),
    slice_succ (by omega), slice_succ (by omega), slice_succ (by omega)]
  simp [slice]

/-- A slice of a slice. -/
theorem slice_slice {a : ℕ} (h : a + k ≤ n) :
    slice (slice buf offset n) a k = slice buf (offset + a) k := by
  rw [slice, slice, slice, List.drop_take, List.drop_drop, List.take_take,
    Nat.min_eq_left (by omega)]

/-- A byte of a slice. -/
theorem getD_slice (h : k < n) (hlt : offset + k < buf.length) :
    (slice buf offset n).getD k 0 = buf[offset + k] := by
  rw [slice, List.getD_eq_getElem?_getD, List.getElem?_take_of_lt h, List.getElem?_drop,
    List.getElem?_eq_getElem hlt, Option.getD_some]

section Fields

variable {fmt : ChunkFmt}

theorem timestampField_of_le (hfmt : fmt.hasTimestamp = true) (h : offset + 3 ≤ buf.length)
    (hs : offset + 3 < 2 ^ 64) :
    timestampField fmt buf offset = some (beNat (slice buf offset 3), offset + 3) := by
  rw [timestampField, if_pos hfmt, be24At_of_le h hs, addUsize_of_lt hs]
  rfl

theorem lengthField_of_le (hfmt : fmt.hasLength = true) (h : offset + 4 ≤ buf.length)
    (hs : offset + 4 < 2 ^ 64) :
    lengthField fmt buf offset =
      some ((beNat (slice buf offset 3), (slice buf offset 4).getD 3 0), offset + 4) := by
  rw [lengthField, if_pos hfmt, be24At_of_le (by omega) (by omega),
    byteAt_of_lt (by omega) (by omega), addUsize_of_lt hs, getD_slice (by omega) (by omega)]
  rfl

theorem streamIdField_of_le (hfmt : fmt.hasStreamId = true) (h : offset + 4 ≤ buf.length)
    (hs : offset + 4 < 2 ^ 64) :
    streamIdField fmt buf offset = some (.ofNat (leNat (slice buf offset 4)), offset + 4) := by
  rw [streamIdField, if_pos hfmt, fourAt_of_le h hs, addUsize_of_lt hs]
  rfl

end Fields

/-- The basic header is inside the buffer. -/
theorem readBasicHeader_eq (h : buf ≠ []) :
    readBasicHeader buf = some (VcpMediaServer.readBasicHeader buf) := by
  obtain ⟨b, rest, rfl⟩ := List.exists_cons_of_ne_nil h
  unfold readBasicHeader VcpMediaServer.readBasicHeader
  simp only [index, List.getElem?_cons_zero, Option.bind_eq_bind, Option.bind_some]
  by_cases h0 : b &&& 0x3F = 0
  · rw [if_pos h0, if_pos h0]
    rcases rest with _ | ⟨c, rest⟩
    · rfl
    · have hc := c.toNat_lt
      rw [if_neg (by simp)]
      simp [addU32_of_lt (show 64 + c.toNat < 2 ^ 32 by omega)]
  rw [if_neg h0, if_neg h0]
  by_cases h1 : b &&& 0x3F = 1
  · rw [if_pos h1, if_pos h1]
    rcases rest with _ | ⟨c, _ | ⟨d, rest⟩⟩
    · rfl
    · rfl
    · have hc := c.toNat_lt
      have hd := d.toNat_lt
      rw [if_neg (by simp)]
      simp [addU32_of_lt (show 64 + c.toNat < 2 ^ 32 by omega),
        mulU32_of_lt (show d.toNat * 256 < 2 ^ 32 by omega),
        addU32_of_lt (show 64 + c.toNat + d.toNat * 256 < 2 ^ 32 by omega)]
  · rw [if_neg h1, if_neg h1]
    rfl

/-- The message header that is longest is that of type 0. -/
theorem msgHeaderSize_le (fmt : ChunkFmt) : fmt.msgHeaderSize ≤ 11 := by
  cases fmt with
  | type0 => exact le_rfl
  | _ => exact Nat.le_of_ble_eq_true rfl

/-- The fields are inside the buffer, if the header is. -/
theorem readMsgHeader_eq {fmt : ChunkFmt} (csId : ℕ) (h : offset + fmt.msgHeaderSize ≤ buf.length)
    (hs : offset + fmt.msgHeaderSize < 2 ^ 64) :
    readMsgHeader fmt csId buf offset =
      some (VcpMediaServer.readMsgHeader fmt csId (slice buf offset fmt.msgHeaderSize),
        offset + fmt.msgHeaderSize) := by
  cases fmt with
  | type0 =>
    change offset + 11 ≤ buf.length at h
    change offset + 11 < 2 ^ 64 at hs
    have ht := timestampField_of_le (show ChunkFmt.type0.hasTimestamp = true from rfl)
      (show offset + 3 ≤ buf.length by omega) (by omega)
    have hl := lengthField_of_le (show ChunkFmt.type0.hasLength = true from rfl)
      (show offset + 3 + 4 ≤ buf.length by omega) (by omega)
    have hi := streamIdField_of_le (show ChunkFmt.type0.hasStreamId = true from rfl)
      (show offset + 3 + 4 + 4 ≤ buf.length by omega) (by omega)
    have hbyte : (slice buf (offset + 3) 4).getD 3 0 = (slice buf offset 11).getD 6 0 := by
      rw [getD_slice (by omega) (by omega), getD_slice (by omega) (by omega)]
    simp only [readMsgHeader, ht, hl, hi, hbyte, Option.bind_eq_bind, Option.bind_some,
      Option.pure_def]
    change _ = some (VcpMediaServer.readMsgHeader .type0 csId (slice buf offset 11), offset + 11)
    rw [VcpMediaServer.readMsgHeader, slice_slice (by omega), slice_slice (by omega),
      slice_slice (by omega)]
    rfl
  | type1 =>
    change offset + 7 ≤ buf.length at h
    change offset + 7 < 2 ^ 64 at hs
    have ht := timestampField_of_le (show ChunkFmt.type1.hasTimestamp = true from rfl)
      (show offset + 3 ≤ buf.length by omega) (by omega)
    have hl := lengthField_of_le (show ChunkFmt.type1.hasLength = true from rfl)
      (show offset + 3 + 4 ≤ buf.length by omega) (by omega)
    have hbyte : (slice buf (offset + 3) 4).getD 3 0 = (slice buf offset 7).getD 6 0 := by
      rw [getD_slice (by omega) (by omega), getD_slice (by omega) (by omega)]
    simp only [readMsgHeader, ht, hl, hbyte, Option.bind_eq_bind, Option.bind_some, Option.pure_def]
    change _ = some (VcpMediaServer.readMsgHeader .type1 csId (slice buf offset 7), offset + 7)
    rw [VcpMediaServer.readMsgHeader, slice_slice (by omega), slice_slice (by omega)]
    rfl
  | type2 =>
    have ht := timestampField_of_le (show ChunkFmt.type2.hasTimestamp = true from rfl) h hs
    simp only [readMsgHeader, ht, Option.bind_eq_bind, Option.bind_some]
    change _ = some (VcpMediaServer.readMsgHeader .type2 csId (slice buf offset 3), offset + 3)
    rw [VcpMediaServer.readMsgHeader, slice_slice (by omega)]
    rfl
  | type3 => rfl

theorem readBasicHeader_le {fmt : ChunkFmt} {size csId : ℕ}
    (h : VcpMediaServer.readBasicHeader buf = some (fmt, size, csId)) : size ≤ 3 := by
  unfold VcpMediaServer.readBasicHeader at h
  split at h
  · cases h
  · split_ifs at h
    · split at h <;> cases h
      exact Nat.le_of_ble_eq_true rfl
    · split at h <;> cases h
      exact le_rfl
    · cases h
      exact Nat.le_of_ble_eq_true rfl

/-- A header is read inside the buffer: the first part **never** panics. -/
theorem readChunkHeader_eq (buf : List UInt8) :
    readChunkHeader buf = some (VcpMediaServer.readChunkHeader buf) := by
  by_cases hnil : buf = []
  · subst hnil
    rfl
  have hpreview : range buf 0 (min 64 buf.length) = some (slice buf 0 (min 64 buf.length)) := by
    rw [range, if_pos ⟨Nat.zero_le _, Nat.min_le_right _ _⟩, Nat.sub_zero]
  rw [readChunkHeader, if_neg (by simpa using hnil), hpreview, readBasicHeader_eq hnil]
  unfold VcpMediaServer.readChunkHeader
  simp only [Option.bind_eq_bind, Option.bind_some]
  rcases hbasic : VcpMediaServer.readBasicHeader buf with _ | ⟨fmt, size, csId⟩
  · rfl
  have hsize := readBasicHeader_le hbasic
  have hfmt := msgHeaderSize_le fmt
  dsimp only
  rw [addUsize_of_lt (show size + fmt.msgHeaderSize < 2 ^ 64 by omega), Option.bind_some]
  by_cases hshort : buf.length < size + fmt.msgHeaderSize
  · rw [if_pos hshort, if_pos hshort]
    rfl
  rw [if_neg hshort, if_neg hshort, readMsgHeader_eq csId (by omega) (by omega), Option.bind_some]
  dsimp only
  split
  · rw [addUsize_of_lt (show size + fmt.msgHeaderSize + 4 < 2 ^ 64 by omega), Option.bind_some]
    split
    · rfl
    · next hext =>
      rw [fourAt_of_le (by omega) (by omega), Option.bind_some]
      rfl
  · rfl

end

end Checked

/-! ## Timestamps that add up -/

/-- The timestamp of a header of type 1 or 2, added to that of the last one, fits into 32 bits. -/
def ChunkHeader.AddsUp (raw : ChunkHeader) (last : Option ChunkHeader) : Prop :=
  raw.fmt = .type1 ∨ raw.fmt = .type2 → ∀ l ∈ last, raw.timestamp.toNat + l.timestamp.toNat < 2 ^ 32

/-- The header at the front can be added to the last one of its chunk stream. -/
def SafeFront (state : ChunkState) (buf : List UInt8) : Prop :=
  ∀ raw size, readChunkHeader buf = some (raw, size) →
    raw.AddsUp (state.headers.lookup raw.chunkStreamId)

namespace Checked

theorem addTimestamp_of_lt {a b : UInt32} (h : a.toNat + b.toNat < 2 ^ 32) :
    addTimestamp a b = some (a + b) :=
  if_pos h

theorem addTimestamp_of_not_lt {a b : UInt32} (h : ¬ a.toNat + b.toNat < 2 ^ 32) :
    addTimestamp a b = none :=
  if_neg h

theorem resolve_of_addsUp {raw : ChunkHeader} {last : Option ChunkHeader} (h : raw.AddsUp last) :
    resolve raw last = some (raw.resolve last) := by
  unfold resolve ChunkHeader.resolve
  rcases hf : raw.fmt with _ | _ | _ | _
  · rfl
  · rcases last with _ | l
    · rfl
    · have hlt := h (.inl hf) l rfl
      simp [addTimestamp_of_lt hlt]
  · rcases last with _ | l
    · rfl
    · have hlt := h (.inr hf) l rfl
      simp [addTimestamp_of_lt hlt]
  · rcases last with _ | l
    · rfl
    · rfl

theorem resolve_of_not_addsUp {raw : ChunkHeader} {last : Option ChunkHeader}
    (h : ¬ raw.AddsUp last) :
    resolve raw last = none := by
  obtain ⟨hfmt, l, hl, hover⟩ : (raw.fmt = .type1 ∨ raw.fmt = .type2) ∧
      ∃ l ∈ last, ¬ raw.timestamp.toNat + l.timestamp.toNat < 2 ^ 32 := by
    simpa [ChunkHeader.AddsUp] using h
  obtain rfl := Option.mem_def.mp hl
  rcases hfmt with hfmt | hfmt
  · simp [resolve, hfmt, addTimestamp_of_not_lt hover]
  · simp [resolve, hfmt, addTimestamp_of_not_lt hover]

/-- The parser of a header panics **exactly if** its timestamp does not add up. -/
theorem parseChunkHeader_of_safe {state : ChunkState} {buf : List UInt8} (h : SafeFront state buf) :
    parseChunkHeader buf state.headers =
        some (VcpMediaServer.parseChunkHeader buf state.headers) := by
  rw [parseChunkHeader, readChunkHeader_eq, VcpMediaServer.parseChunkHeader]
  rcases hraw : VcpMediaServer.readChunkHeader buf with _ | ⟨raw, size⟩
  · rfl
  · simp only [Option.bind_eq_bind, Option.bind_some]
    rw [resolve_of_addsUp (h raw size hraw)]
    rcases raw.resolve (state.headers.lookup raw.chunkStreamId) with _ | header
    · rfl
    · rfl

theorem parseChunkHeader_of_not_safe {state : ChunkState} {buf : List UInt8}
    (h : ¬ SafeFront state buf) :
    parseChunkHeader buf state.headers = none := by
  obtain ⟨raw, size, hraw, hover⟩ : ∃ raw size, VcpMediaServer.readChunkHeader buf =
    some (raw, size) ∧
      ¬ raw.AddsUp (state.headers.lookup raw.chunkStreamId) := by
    simpa [SafeFront] using h
  rw [parseChunkHeader, readChunkHeader_eq, hraw]
  simp only [Option.bind_eq_bind, Option.bind_some]
  rw [resolve_of_not_addsUp hover]
  rfl

end Checked

/-! ## Lengths are small -/

/-- The lengths that the parser keeps have three bytes. -/
structure ChunkState.Small (state : ChunkState) : Prop where
  headers : ∀ csId, ∀ header ∈ state.headers.lookup csId, header.msgLength < 2 ^ 24
  assemblers : ∀ csId, (state.assembler csId).msgLength < 2 ^ 24 ∧
    (state.assembler csId).received < 2 ^ 24

namespace ChunkState

variable {state state' : ChunkState} {buf rest : List UInt8} {msg : Option RtmpMessage}
    {chunkSize : ℕ}

theorem Small.new : ChunkState.new.Small where
  headers := fun csId header h => by cases h
  assemblers := fun csId => ⟨Nat.two_pow_pos 24, Nat.two_pow_pos 24⟩

/-- The length in a header has three bytes. -/
theorem msgLength_lt_of_read {raw : ChunkHeader} {size : ℕ}
    (hraw : readChunkHeader buf = some (raw, size)) :
    raw.msgLength < 2 ^ 24 := by
  have hfields : ∀ fmt csId fields, (readMsgHeader fmt csId fields).msgLength < 2 ^ 24 := by
    intro fmt csId fields
    rw [readMsgHeader]
    dsimp only
    split
    · have hlen : (slice fields 3 3).length ≤ 3 := List.length_take_le _ _
      exact (beNat_lt _).trans_le
        ((Nat.pow_le_pow_right (by omega) hlen).trans (Nat.le_of_ble_eq_true rfl))
    · exact Nat.two_pow_pos 24
  unfold readChunkHeader at hraw
  split at hraw
  · cases hraw
  · next fmt basicHeaderSize csId _ =>
    dsimp only at hraw
    split_ifs at hraw
    · obtain ⟨rfl, -⟩ := Prod.mk.inj (Option.some.inj hraw)
      exact hfields fmt csId (slice buf basicHeaderSize fmt.msgHeaderSize)
    · obtain ⟨rfl, -⟩ := Prod.mk.inj (Option.some.inj hraw)
      exact hfields fmt csId (slice buf basicHeaderSize fmt.msgHeaderSize)

/-- The length of a message is that of its header, or of the last one. -/
theorem Small.msgLength_lt (hs : state.Small) {raw header : ChunkHeader} {size : ℕ}
    (hraw : readChunkHeader buf = some (raw, size))
    (h : raw.resolve (state.headers.lookup raw.chunkStreamId) = some header) :
    header.msgLength < 2 ^ 24 := by
  have hlt := msgLength_lt_of_read hraw
  have hlast := hs.headers raw.chunkStreamId
  unfold ChunkHeader.resolve at h
  split at h
  · exact Option.some.inj h ▸ hlt
  · cases h
  · exact Option.some.inj h ▸ hlt
  · next l _ hl => exact Option.some.inj h ▸ hlast l hl
  · next l _ hl => exact Option.some.inj h ▸ hlast l hl

theorem Small.insert_headers (hs : state.Small) {header : ChunkHeader}
    (h : header.msgLength < 2 ^ 24) :
    ∀ csId, ∀ last ∈ (state.headers.insert header.chunkStreamId header).lookup csId,
      last.msgLength < 2 ^ 24 := by
  intro csId last hlast
  by_cases hcs : csId = header.chunkStreamId
  · rw [hcs, AList.lookup_insert] at hlast
    exact Option.some.inj hlast ▸ h
  · rw [AList.lookup_insert_ne hcs] at hlast
    exact hs.headers csId last hlast

/-- A header that is remembered. -/
theorem Small.seeHeader (hs : state.Small) (buf : List UInt8) : (state.seeHeader buf).Small := by
  rcases hp : parseChunkHeader buf state.headers with _ | ⟨header, size, headers⟩
  · rw [ChunkState.seeHeader, hp]
    exact hs
  · obtain ⟨raw, hraw, hresolve, rfl⟩ := parseChunkHeader_eq_some hp
    rw [ChunkState.seeHeader, hp]
    exact ⟨hs.insert_headers (hs.msgLength_lt hraw hresolve), hs.assemblers⟩

/-- What has arrived is never more than a message has, or less than the next one has. -/
theorem Small.extend (hs : state.Small) {header : ChunkHeader} (h : header.msgLength < 2 ^ 24)
    {data : List UInt8}
    (hdata : data.length ≤ (state.assembler header.chunkStreamId).remaining header) :
    ((state.assembler header.chunkStreamId).extend header data).1.msgLength < 2 ^ 24 ∧
      ((state.assembler header.chunkStreamId).extend header data).1.received < 2 ^ 24 := by
  obtain ⟨hmsg, hreceived⟩ := hs.assemblers header.chunkStreamId
  rw [ChunkAssembler.remaining] at hdata
  by_cases hcomplete : 0 < header.msgLength ∧
      header.msgLength ≤ (state.assembler header.chunkStreamId).received + data.length
  · rw [ChunkAssembler.extend_complete hcomplete.1 hcomplete.2]
    exact ⟨Nat.two_pow_pos 24, Nat.two_pow_pos 24⟩
  · rw [ChunkAssembler.extend_incomplete (by omega)]
    refine ⟨h, ?_⟩
    dsimp only
    split at hdata
    · omega
    · omega

/-- A chunk that is taken. -/
theorem Small.takeChunk (hs : state.Small)
    (h : state.takeChunk chunkSize buf = some (state', rest, msg)) :
    state'.Small := by
  obtain ⟨header, size, headers, assembler, hp, -, hextend, rfl, -⟩ := takeChunk_eq_some h
  obtain ⟨raw, hraw, hresolve, rfl⟩ := parseChunkHeader_eq_some hp
  have hlt := hs.msgLength_lt hraw hresolve
  refine ⟨hs.insert_headers hlt, fun csId => ?_⟩
  by_cases hcs : csId = header.chunkStreamId
  · have hdata : (slice buf size (min chunkSize (state.remainingMsg header))).length ≤
        (state.assembler header.chunkStreamId).remaining header := by
      rw [← state.remainingMsg_eq header]
      exact (List.length_take_le _ _).trans (Nat.min_le_right _ _)
    have hsmall := hs.extend hlt hdata
    rw [show state.assembler header.chunkStreamId =
      (state.assemblers.lookup header.chunkStreamId).getD .default from rfl, hextend] at hsmall
    rw [ChunkState.assembler, hcs, AList.lookup_insert]
    exact hsmall
  · rw [ChunkState.assembler, AList.lookup_insert_ne hcs]
    exact hs.assemblers csId

end ChunkState

/-! ## Runs -/

namespace Checked

variable {state : ChunkState} {buf : List UInt8} {chunkSize : ℕ}

/-- A header takes eighteen bytes at most. -/
theorem readChunkHeader_le {raw : ChunkHeader} {size : ℕ}
    (h : VcpMediaServer.readChunkHeader buf = some (raw, size)) : size ≤ 18 := by
  unfold VcpMediaServer.readChunkHeader at h
  split at h
  · cases h
  · next fmt basicHeaderSize csId hb =>
    have hbasic := readBasicHeader_le hb
    have hfmt := msgHeaderSize_le fmt
    dsimp only at h
    split_ifs at h
    · obtain ⟨-, rfl⟩ := Prod.mk.inj (Option.some.inj h)
      omega
    · obtain ⟨-, rfl⟩ := Prod.mk.inj (Option.some.inj h)
      omega

/-- A turn of `parse_chunks` at a safe front: the sums and slices behind the header are **always**
safe. -/
theorem takeChunk_of_safe (hs : state.Small) (h : SafeFront state buf) :
    takeChunk chunkSize state buf =
      some (match state.takeChunk chunkSize buf with
        | none => (state.seeHeader buf, none)
        | some (state', rest, msg) => (state', some (rest, msg))) := by
  rw [takeChunk, parseChunkHeader_of_safe h, ChunkState.takeChunk, ChunkState.seeHeader]
  simp only [Option.bind_eq_bind, Option.bind_some]
  rcases hp : VcpMediaServer.parseChunkHeader buf state.headers with _ | ⟨header, size, headers⟩
  · rfl
  obtain ⟨raw, hraw, hresolve, -⟩ := parseChunkHeader_eq_some hp
  have hsize := readChunkHeader_le hraw
  have hlen := hs.msgLength_lt hraw hresolve
  obtain ⟨hmsg, hreceived⟩ := hs.assemblers header.chunkStreamId
  have hrem : state.remainingMsg header < 2 ^ 24 := by
    rw [ChunkState.remainingMsg_eq, ChunkAssembler.remaining]
    split
    · omega
    · exact hlen
  have hdata : min chunkSize (state.remainingMsg header) < 2 ^ 24 :=
    (Nat.min_le_right _ _).trans_lt hrem
  set dataSize := min chunkSize (state.remainingMsg header) with hdataSize
  dsimp only
  rw [addUsize_of_lt (show size + dataSize < 2 ^ 64 by omega), Option.bind_some]
  by_cases hshort : buf.length < size + dataSize
  · rw [if_pos hshort, if_pos hshort]
    rfl
  · rw [if_neg hshort, if_neg hshort, range_of_le (by omega), rangeFrom_of_le (by omega),
      addUsize_of_lt (show (state.assembler header.chunkStreamId).received + dataSize <
        2 ^ 64 by omega)]
    rfl

/-- Another front makes it panic. -/
theorem takeChunk_of_not_safe (h : ¬ SafeFront state buf) :
    takeChunk chunkSize state buf = none := by
  rw [takeChunk, parseChunkHeader_of_not_safe h]
  rfl

variable {κ : Type}

/-- All fronts from the buffer on are safe. -/
def SafeFronts (loop : ReadLoop κ) (s : κ × ChunkState) (buf : List UInt8) : Prop :=
  Incremental.AllFrontsN loop.step (fun s buf => SafeFront s.2 buf) buf.length s buf

variable (loop : ReadLoop κ) {vars : κ}

theorem safeFronts_of_none (h : state.takeChunk (loop.chunkSize vars) buf = none) :
    SafeFronts loop (vars, state) buf ↔ SafeFront state buf :=
  Incremental.allFrontsN_of_none (loop.step_of_none (s := (vars, state)) h) _

theorem safeFronts_of_some {state' : ChunkState} {rest : List UInt8} {msg : Option RtmpMessage}
    (h : state.takeChunk (loop.chunkSize vars) buf = some (state', rest, msg)) :
    SafeFronts loop (vars, state) buf ↔
      SafeFront state buf ∧ SafeFronts loop (loop.afterChunk vars msg, state') rest :=
  Incremental.allFrontsN_of_some loop.step_consumes (loop.step_of_some (s := (vars, state)) h)

/-- A call of `parse_chunks` panics at a front that is not safe, or returns what it returns without
the checks. -/
theorem parseChunksFuel_cases (vars : κ) {fuel : ℕ} (hfuel : buf.length < fuel) (hs : state.Small) :
    (parseChunksFuel (loop.chunkSize vars) fuel state buf = none ∧
      ¬ SafeFronts loop (vars, state) buf) ∨
      ∃ msg state' rest, VcpMediaServer.parseChunksFuel (loop.chunkSize vars) fuel state buf =
        (msg, state', rest) ∧
        parseChunksFuel (loop.chunkSize vars) fuel state buf = some (msg, state', rest) ∧
          state'.Small ∧
        (SafeFronts loop (vars, state) buf ↔
          ∀ m ∈ msg, SafeFronts loop (loop.onMessage vars m, state') rest) := by
  induction fuel generalizing state buf with
  | zero => omega
  | succ fuel ih =>
    rw [parseChunksFuel, VcpMediaServer.parseChunksFuel]
    by_cases hsafe : SafeFront state buf
    · rw [takeChunk_of_safe hs hsafe]
      simp only [Option.bind_eq_bind, Option.bind_some]
      rcases ht : state.takeChunk (loop.chunkSize vars) buf with _ | ⟨state₁, rest, msg⟩
      · refine .inr ⟨none, state.seeHeader buf, buf, rfl, rfl, hs.seeHeader buf, ?_⟩
        rw [safeFronts_of_none loop ht]
        exact iff_of_true hsafe fun m hm => by cases hm
      · have hlt := ChunkState.takeChunk_length ht
        have hs₁ := hs.takeChunk ht
        have hiff := safeFronts_of_some loop ht
        rw [and_iff_right hsafe] at hiff
        cases msg with
        | some m =>
          refine .inr ⟨some m, state₁, rest, rfl, rfl, hs₁, hiff.trans ?_⟩
          constructor
          · intro h m' hm'
            obtain rfl := Option.some.inj hm'
            exact h
          · exact fun h => h m rfl
        | none =>
          have hvars : loop.afterChunk vars none = vars := rfl
          rw [hvars] at hiff
          rw [hiff]
          exact ih (by omega) hs₁
    · rw [takeChunk_of_not_safe hsafe]
      refine .inl ⟨rfl, fun h => hsafe ?_⟩
      rcases ht : state.takeChunk (loop.chunkSize vars) buf with _ | ⟨state₁, rest, msg⟩
      · exact (safeFronts_of_none loop ht).mp h
      · exact ((safeFronts_of_some loop ht).mp h).1

/-- All messages in the buffer. -/
theorem takeAllFuel_cases {fuel : ℕ} {s : κ × ChunkState} (hfuel : buf.length < fuel)
    (hs : s.2.Small) :
    (takeAllFuel loop fuel s buf = none ∧ ¬ SafeFronts loop s buf) ∨
      (takeAllFuel loop fuel s buf = some (loop.takeAllFuel fuel s buf) ∧ SafeFronts loop s buf ∧
        (loop.takeAllFuel fuel s buf).2.1.2.Small) := by
  induction fuel generalizing s buf with
  | zero => omega
  | succ fuel ih =>
    obtain ⟨vars, state⟩ := s
    rw [takeAllFuel, ReadLoop.takeAllFuel]
    have hcases := parseChunksFuel_cases loop vars (Nat.lt_succ_self buf.length) hs
    rcases hcases with ⟨hnone, hunsafe⟩ | ⟨msg, state', rest, hplain, hchecked, hs', hiff⟩
    · rw [parseChunks, hnone]
      exact .inl ⟨rfl, hunsafe⟩
    · rw [parseChunks, VcpMediaServer.parseChunks, hchecked, hplain]
      cases msg with
      | none => exact .inr ⟨rfl, hiff.mpr fun m hm => (by cases hm), hs'⟩
      | some m =>
        obtain ⟨hlt, -⟩ := loop.drain_of_parse_some hplain
        have hiff' : SafeFronts loop (vars, state) buf ↔
            SafeFronts loop (loop.onMessage vars m, state') rest := by
          refine hiff.trans ⟨fun h => h m rfl, fun h m' hm' => ?_⟩
          obtain rfl := Option.some.inj hm'
          exact h
        rw [hiff']
        simp only [Option.bind_eq_bind, Option.bind_some]
        rcases ih (s := (loop.onMessage vars m, state')) (by omega : rest.length < fuel) hs' with
          ⟨hnone, hunsafe⟩ | ⟨hsome, hsafe, hsmall⟩
        · rw [hnone]
          exact .inl ⟨rfl, hunsafe⟩
        · rw [hsome]
          exact .inr ⟨rfl, hsafe, hsmall⟩

/-- The reads, one after the other. -/
theorem messages_cases {s : κ × ChunkState} (buf : List UInt8) (hs : s.2.Small)
    (reads : List (List UInt8)) :
    (messages loop s buf reads = none ∧
        ¬ Incremental.AllFronts loop.step loop.touch (fun s buf => SafeFront s.2 buf) s buf reads) ∨
      (messages loop s buf reads = some (loop.messages s buf reads) ∧
        Incremental.AllFronts loop.step loop.touch (fun s buf => SafeFront s.2 buf) s buf
          reads) := by
  induction reads generalizing s buf with
  | nil => exact .inr ⟨rfl, trivial⟩
  | cons read reads ih =>
    rw [messages, ReadLoop.messages, ReadLoop.takeAll, Incremental.AllFronts]
    rcases takeAllFuel_cases loop (Nat.lt_succ_self (buf ++ read).length) hs with
      ⟨hnone, hunsafe⟩ | ⟨hsome, hsafe, hsmall⟩
    · rw [hnone]
      exact .inl ⟨rfl, fun h => hunsafe h.1⟩
    · have hdrain := loop.takeAllFuel_eq_drain s (buf ++ read)
        (Nat.lt_succ_self (buf ++ read).length)
      rw [hdrain] at hsome hsmall
      rw [hsome, hdrain]
      set d := Incremental.drain loop.step s (buf ++ read)
      change ((messages loop (loop.touch d.2.1 d.2.2) d.2.2 reads).bind fun msgs =>
        some (d.1 ++ msgs)) = none ∧ _ ∨
        ((messages loop (loop.touch d.2.1 d.2.2) d.2.2 reads).bind fun msgs => some (d.1 ++ msgs)) =
          some (d.1 ++ loop.messages (loop.touch d.2.1 d.2.2) d.2.2 reads) ∧ _
      rcases ih (s := loop.touch d.2.1 d.2.2) d.2.2 hsmall with ⟨hnone, hunsafe⟩ | ⟨hrest, hall⟩
      · rw [hnone]
        exact .inl ⟨rfl, fun h => hunsafe h.2⟩
      · rw [hrest]
        exact .inr ⟨rfl, hsafe, hall⟩

/-- However a stream is cut into chunks and reads, and whatever is done to the chunk size in
between: the parser does not panic **exactly if** the timestamps of every front that it looks at add
up. -/
theorem isSome_messages_iff (loop : ReadLoop κ) (vars : κ) (reads : List (List UInt8)) :
    (messages loop (vars, .new) [] reads).isSome ↔
      Incremental.AllFronts loop.step loop.touch (fun s buf => SafeFront s.2 buf) (vars, .new)
          [] reads := by
  rcases messages_cases loop (s := (vars, .new))
    [] ChunkState.Small.new reads with ⟨h, hunsafe⟩ | ⟨h, hsafe⟩
  · rw [h]
    exact iff_of_false Bool.false_ne_true hunsafe
  · rw [h]
    exact iff_of_true rfl hsafe

/-- A message with the greatest timestamp, and one of type 1 that is a millisecond later. -/
theorem messages_overflow :
    messages (fixedSize 128) ((), .new) []
      [[0x03, 0xFF, 0xFF, 0xFF, 0, 0, 1, 8, 1, 0, 0, 0, 0xFF, 0xFF, 0xFF, 0xFF, 0xAA,
        0x43, 0, 0, 1, 0, 0, 1, 8, 0xBB]] = none := by
  decide

end Checked

end VcpMediaServer
