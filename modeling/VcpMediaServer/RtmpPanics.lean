import VcpMediaServer.Accesses
import VcpMediaServer.Pullers

/-!
# Panics of the RTMP handlers

The handlers of a message again, with every index, slice and `unwrap` as the source has it:
`none` is a **panic**. A length that is checked before is checked here too, and one that is not
is not.

* `parseCommand_eq`, `sequenceHeaderConfig_eq`, `avccLoop_eq`, `audioData_eq` — what stays
  inside the buffer it is given, whatever is in it.
* `handleRtmpMessage_eq`, `rtmpMessageToFrame_eq` — the two accesses that do **not**: the slice
  behind the tag header of a video message, and the first argument of `createStream`.
* `no_panic_iff` — a message is safe **exactly if** it is neither.
-/

namespace VcpMediaServer

namespace Checked

/-! ## AMF0 -/

/-- The test for the end of an object: three bytes, if there are three. -/
def atObjectEnd (data : List UInt8) (offset : ℕ) : Option Bool :=
  if offset + 3 ≤ data.length then do
    let a ← index data offset
    let b ← index data (offset + 1)
    let c ← index data (offset + 2)
    return a == 0x00 && b == 0x00 && c == 0x09
  else return false

/-- `decode_string`. -/
def decodeString (data : List UInt8) (offset : ℕ) : Option (Except String String × ℕ) :=
  if offset + 2 > data.length then return (.error "Not enough data for string length", offset)
  else do
    let len ← be16 data offset
    let offset := offset + 2
    if offset + len > data.length then
      return (.error ("Not enough data for string: need " ++ toString len ++ " but have " ++
        toString (data.length - offset)), offset)
    else do
      let text ← range data offset (offset + len)
      return (.ok (fromUtf8Lossy text), offset + len)

mutual

/-- `decode_value`. -/
def decodeValue : ℕ → List UInt8 → ℕ → Option (Except String Amf0Value × ℕ)
  | 0, _, offset => return (.error "Not enough data for AMF0 marker", offset)
  | fuel + 1, data, offset =>
    if offset ≥ data.length then return (.error "Not enough data for AMF0 marker", offset)
    else do
      let marker ← index data offset
      let offset := offset + 1
      match marker with
      | 0x00 =>
        if offset + 8 > data.length then return (.error "Not enough data for Number", offset)
        else do
          let bytes ← range data offset (offset + 8)
          return (.ok (.number (UInt64.ofNat (beNat bytes))), offset + 8)
      | 0x01 =>
        if offset + 1 > data.length then return (.error "Not enough data for Boolean", offset)
        else do
          let b ← index data offset
          return (.ok (.boolean (b != 0)), offset + 1)
      | 0x02 => do
        match ← decodeString data offset with
        | (.ok s, offset) => return (.ok (.string s), offset)
        | (.error e, offset) => return (.error e, offset)
      | 0x03 => decodeObjectInner fuel data offset false []
      | 0x05 => return (.ok .null, offset)
      | 0x06 => return (.ok .null, offset)
      | 0x08 =>
        if offset + 4 > data.length then
          return (.error "Not enough data for ECMA array count", offset)
        else decodeObjectInner fuel data (offset + 4) true []
      | _ =>
        return (.error ("Unsupported AMF0 type: 0x" ++ Amf0.hexByte marker ++ " at offset " ++
          toString (offset - 1)), offset)

/-- `decode_object_inner`. -/
def decodeObjectInner :
    ℕ → List UInt8 → ℕ → Bool → List (String × Amf0Value) → Option (Except String Amf0Value × ℕ)
  | 0, _, offset, _, _ => return (.error "Not enough data for property name", offset)
  | fuel + 1, data, offset, isEcma, props => do
    let finished : Amf0Value := if isEcma then .ecmaArray props else .object props
    if ← atObjectEnd data offset then return (.ok finished, offset + 3)
    else if offset + 2 > data.length then
      return (.error "Not enough data for property name", offset)
    else do
      let keyLen ← be16 data offset
      let offset := offset + 2
      if keyLen = 0 then
        if offset < data.length then do
          let b ← index data offset
          return (.ok finished, if b = 0x09 then offset + 1 else offset)
        else return (.ok finished, offset)
      else if offset + keyLen > data.length then
        return (.error "Not enough data for property name", offset)
      else do
        let text ← range data offset (offset + keyLen)
        match ← decodeValue fuel data (offset + keyLen) with
        | (.ok val, offset) =>
          decodeObjectInner fuel data offset isEcma (Amf0.insertProp (fromUtf8Lossy text) val props)
        | (.error _, offset) => return (.ok finished, offset)

end

theorem atObjectEnd_eq (data : List UInt8) (offset : ℕ) :
    atObjectEnd data offset = some (Amf0.atObjectEnd data offset) := by
  rw [atObjectEnd, Amf0.atObjectEnd]
  split
  · next h =>
    have ha : offset < data.length := by omega
    have hb : offset + 1 < data.length := by omega
    have hc : offset + 1 + 1 < data.length := by omega
    rw [index, index, index, List.getElem?_eq_getElem ha, List.getElem?_eq_getElem hb,
      List.getElem?_eq_getElem hc, slice_succ ha, slice_succ hb, slice_succ hc]
    simp [slice, Bool.and_assoc]
  · next h =>
    have hend : Amf0.atObjectEnd data offset = false :=
      Bool.eq_false_iff.mpr fun hend => h (Amf0.le_length_of_atObjectEnd hend)
    rw [Amf0.atObjectEnd] at hend
    rw [hend]
    rfl

theorem decodeString_eq (data : List UInt8) (offset : ℕ) :
    decodeString data offset = some (Amf0.decodeString data offset) := by
  rw [decodeString, Amf0.decodeString]
  split
  · rfl
  · next h =>
    rw [be16_of_le (by omega)]
    simp only [Option.bind_eq_bind, Option.bind_some]
    split
    · rfl
    · next h' =>
      rw [range_of_le (by omega)]
      rfl

/-- `decode_value` stays inside the buffer if the objects in it do. -/
theorem decodeValue_succ {fuel : ℕ}
    (ih : ∀ data offset isEcma props, decodeObjectInner fuel data offset isEcma props =
      some (Amf0.decodeObjectInner fuel data offset isEcma props))
    (data : List UInt8) (offset : ℕ) :
    decodeValue (fuel + 1) data offset = some (Amf0.decodeValue (fuel + 1) data offset) := by
  rw [decodeValue, Amf0.decodeValue]
  split
  · next h =>
    rw [List.getElem?_eq_none h]
    rfl
  · next h =>
    have hlt : offset < data.length := by omega
    rw [index, List.getElem?_eq_getElem hlt]
    simp only [Option.bind_eq_bind, Option.bind_some]
    generalize data[offset] = marker
    split
    · split
      · rfl
      · rw [range_of_le (by omega)]
        rfl
    · split
      · next h =>
        rw [List.getElem?_eq_none (by omega)]
        rfl
      · rw [index, List.getElem?_eq_getElem (by omega)]
        rfl
    · rw [decodeString_eq]
      rcases Amf0.decodeString data (offset + 1) with ⟨_ | s, offset'⟩ <;> rfl
    · exact ih data (offset + 1) false []
    · rfl
    · rfl
    · split
      · rfl
      · exact ih data (offset + 1 + 4) true []
    · -- the marker is none of those above, in the other function as well
      simp [*]

/-- `decode_object_inner` stays inside the buffer if what is in the object does. -/
theorem decodeObjectInner_succ {fuel : ℕ}
    (hvalue : ∀ data offset, decodeValue fuel data offset =
      some (Amf0.decodeValue fuel data offset))
    (hobject : ∀ data offset isEcma props, decodeObjectInner fuel data offset isEcma props =
      some (Amf0.decodeObjectInner fuel data offset isEcma props))
    (data : List UInt8) (offset : ℕ) (isEcma : Bool) (props : List (String × Amf0Value)) :
    decodeObjectInner (fuel + 1) data offset isEcma props =
      some (Amf0.decodeObjectInner (fuel + 1) data offset isEcma props) := by
  rw [decodeObjectInner, Amf0.decodeObjectInner, atObjectEnd_eq]
  simp only [Option.bind_eq_bind, Option.bind_some]
  split
  · rfl
  · split
    · rfl
    · rw [be16_of_le (by omega)]
      simp only [Option.bind_some]
      split
      · split
        · rw [index, List.getElem?_eq_getElem (by omega)]
          simp
        · rw [List.getElem?_eq_none (by omega)]
          rfl
      · split
        · rfl
        · rw [range_of_le (by omega), hvalue]
          simp only [Option.bind_some]
          rcases Amf0.decodeValue fuel data _ with ⟨_ | val, offset'⟩
          · rfl
          · exact hobject data offset' isEcma _

/-- What is read of a value stays inside the buffer, **however deep** its objects are. -/
theorem decode_eq_of_fuel (fuel : ℕ) :
    (∀ data offset, decodeValue fuel data offset = some (Amf0.decodeValue fuel data offset)) ∧
    ∀ data offset isEcma props, decodeObjectInner fuel data offset isEcma props =
      some (Amf0.decodeObjectInner fuel data offset isEcma props) := by
  induction fuel with
  | zero => exact ⟨fun _ _ => rfl, fun _ _ _ _ => rfl⟩
  | succ fuel ih =>
    obtain ⟨hvalue, hobject⟩ := ih
    exact ⟨decodeValue_succ hobject, decodeObjectInner_succ hvalue hobject⟩

theorem decodeValue_eq (fuel : ℕ) (data : List UInt8) (offset : ℕ) :
    decodeValue fuel data offset = some (Amf0.decodeValue fuel data offset) :=
  (decode_eq_of_fuel fuel).1 data offset

/-- The loop of `decode`. -/
def decodeLoop : ℕ → List UInt8 → ℕ → List Amf0Value →
    Option (Except String (List Amf0Value × ℕ))
  | 0, _, offset, values => return .ok (values, offset)
  | fuel + 1, data, offset, values =>
    if data.length ≤ offset then return .ok (values, offset)
    else do
      if ← atObjectEnd data offset then return .ok (values, offset + 3)
      else
        match ← decodeValue (data.length + 1) data offset with
        | (.ok val, offset) => decodeLoop fuel data offset (values ++ [val])
        | (.error e, offset) => return if values.isEmpty then .error e else .ok (values, offset)

/-- `parse_command`, with `values[0]` and `values[1..]`. -/
def parseCommand (payload : List UInt8) : Option (Except String (String × List Amf0Value)) := do
  match ← decodeLoop (payload.length + 1) payload 0 [] with
  | .error e => return .error e
  | .ok (values, _) =>
    if values.isEmpty then return .error "Empty AMF0 payload"
    else do
      match ← values[0]? with
      | .string s => if 1 ≤ values.length then return .ok (s, values.drop 1) else none
      | _ => return .error "First AMF0 value must be a string command name"

theorem decodeLoop_eq (fuel : ℕ) (data : List UInt8) (offset : ℕ) (values : List Amf0Value) :
    decodeLoop fuel data offset values = some (Amf0.decodeLoop fuel data offset values) := by
  induction fuel generalizing offset values with
  | zero => rfl
  | succ fuel ih =>
    rw [decodeLoop, Amf0.decodeLoop, atObjectEnd_eq, decodeValue_eq]
    simp only [Option.bind_eq_bind, Option.bind_some]
    split
    · rfl
    · split
      · rfl
      · rcases Amf0.decodeValue (data.length + 1) data offset with ⟨e | val, offset'⟩
        · rfl
        · exact ih offset' (values ++ [val])

/-- **No** payload makes `parse_command` leave the buffer. -/
theorem parseCommand_eq (payload : List UInt8) :
    parseCommand payload = some (Amf0.parseCommand payload) := by
  rw [parseCommand, decodeLoop_eq, Amf0.parseCommand, Amf0.decode]
  simp only [Option.bind_eq_bind, Option.bind_some]
  rcases Amf0.decodeLoop (payload.length + 1) payload 0 [] with e | ⟨_ | ⟨v, values⟩, offset⟩
  · rfl
  · rfl
  · cases v <;> rfl

/-! ## Media -/

/-- The loop over parameter sets. -/
def readParameterSets (config : List UInt8) : ℕ → ℕ → List UInt8 → Option (List UInt8 × ℕ)
  | 0, offset, last => return (last, offset)
  | n + 1, offset, last =>
    if offset + 2 > config.length then return (last, offset)
    else do
      let len ← be16 config offset
      let offset := offset + 2
      if offset + len > config.length then return (last, offset)
      else do
        let set ← range config offset (offset + len)
        readParameterSets config n (offset + len) set

/-- The PPS behind the SPS of a record. -/
def readPps (config : List UInt8) (offset : ℕ) : Option (List UInt8) :=
  if offset < config.length then do
    let numPps ← index config offset
    let (pps, _) ← readParameterSets config (numPps &&& 0x1F).toNat (offset + 1) []
    return pps
  else return []

/-- The parameter sets of an `AVCDecoderConfigurationRecord`, if it has an SPS. -/
def parameterSets (config : List UInt8) : Option (Option (List UInt8 × List UInt8)) :=
  if config.length > 7 then do
    let numSps ← index config 5
    let (sps, offset) ← readParameterSets config (numSps &&& 0x1F).toNat 6 []
    let pps ← readPps config offset
    return if sps = [] then none else some (sps, pps)
  else return none

/-- What a sequence header stores. -/
def sequenceHeaderConfig (data : List UInt8) : Option (Option (List UInt8 × List UInt8)) :=
  if data.length > 13 then do
    let config ← rangeFrom data 5
    parameterSets config
  else return none

/-- The loop that puts start codes in place of lengths, with its offset. -/
def avccLoop : ℕ → List UInt8 → ℕ → Option (List UInt8)
  | 0, _, _ => return []
  | fuel + 1, payload, offset =>
    if offset + 4 > payload.length then return []
    else do
      let len ← be32 payload offset
      let offset := offset + 4
      if offset + len > payload.length then return []
      else do
        let nalu ← range payload offset (offset + len)
        let rest ← avccLoop fuel payload (offset + len)
        return [0, 0, 0, 1] ++ nalu ++ rest

/-- The audio data behind the tag header. -/
def audioData (data : List UInt8) : Option (List UInt8) :=
  if data.length > 1 then do
    let a ← index data 0
    let b ← index data 1
    if a = 0xAF ∧ b = 0x01 then rangeFrom data 2 else rangeFrom data 1
  else return data

/-- The type of a video packet. -/
def avcPacketType (data : List UInt8) : Option UInt8 :=
  if data.length > 1 then index data 1 else return 0xFF

theorem readParameterSets_eq (config : List UInt8) (n offset : ℕ) (last : List UInt8) :
    readParameterSets config n offset last =
      some (RtmpConnection.readParameterSets config n offset last) := by
  induction n generalizing offset last with
  | zero => rfl
  | succ n ih =>
    rw [readParameterSets, RtmpConnection.readParameterSets]
    split
    · rfl
    · rw [be16_of_le (by omega)]
      simp only [Option.bind_eq_bind, Option.bind_some]
      split
      · rfl
      · rw [range_of_le (by omega)]
        exact ih _ _

/-- A sequence header is **never** read past its end. -/
theorem sequenceHeaderConfig_eq (data : List UInt8) :
    sequenceHeaderConfig data = some (RtmpConnection.sequenceHeaderConfig data) := by
  rw [sequenceHeaderConfig, RtmpConnection.sequenceHeaderConfig]
  split
  · rw [rangeFrom_of_le (by omega)]
    simp only [Option.bind_eq_bind, Option.bind_some, parameterSets]
    generalize data.drop 5 = config
    split
    · rw [index_of_lt (by omega), Option.bind_some, readParameterSets_eq]
      simp only [Option.bind_some]
      rcases RtmpConnection.readParameterSets config _ 6 [] with ⟨sps, offset⟩
      dsimp only
      rw [readPps]
      split
      · next h =>
        rw [index, List.getElem?_eq_getElem h]
        simp only [Option.bind_eq_bind, Option.bind_some, readParameterSets_eq]
        rfl
      · next h =>
        rw [List.getElem?_eq_none (by omega)]
        rfl
    · rfl
  · rfl

/-- The loop over NAL units is **never** led past the end by a length. -/
theorem avccLoop_eq (fuel : ℕ) (payload : List UInt8) (offset : ℕ) :
    avccLoop fuel payload offset = some (RtmpConnection.avccLoop fuel (payload.drop offset)) := by
  induction fuel generalizing offset with
  | zero => rfl
  | succ fuel ih =>
    rw [avccLoop, RtmpConnection.avccLoop, List.length_drop]
    by_cases h4 : offset + 4 > payload.length
    · rw [if_pos h4, if_pos (by omega)]
      rfl
    · rw [if_neg h4, if_neg (by omega), be32_of_le (by omega)]
      simp only [Option.bind_eq_bind, Option.bind_some, List.drop_drop, List.length_drop]
      rw [show (payload.drop offset).take 4 = slice payload offset 4 from rfl]
      generalize beNat (slice payload offset 4) = len
      by_cases hlen : offset + 4 + len > payload.length
      · rw [if_pos hlen, if_pos (by omega)]
        rfl
      · rw [if_neg hlen, if_neg (by omega), range_of_le (by omega), Option.bind_some, ih]
        rfl

theorem audioData_eq (data : List UInt8) :
    audioData data = some (RtmpConnection.audioData data) := by
  obtain _ | ⟨a, _ | ⟨b, data⟩⟩ := data
  · rfl
  · rfl
  · by_cases h : a = 0xAF ∧ b = 0x01 <;>
      simp [audioData, RtmpConnection.audioData, index, rangeFrom, h]

theorem avcPacketType_eq (data : List UInt8) :
    avcPacketType data = some (RtmpConnection.avcPacketType data) := by
  obtain _ | ⟨a, _ | ⟨b, data⟩⟩ := data <;> rfl

theorem avcPacketType_of_lt {data : List UInt8} (h : 1 < data.length) :
    RtmpConnection.avcPacketType data = data.getD 1 0 := by
  rw [RtmpConnection.avcPacketType, List.getD_eq_getElem?_getD, List.getD_eq_getElem?_getD,
    List.getElem?_eq_getElem h]
  rfl

/-- An audio message is a sequence header. -/
def isAudioHeader (data : List UInt8) : Option Bool :=
  if data.length > 1 then do
    let b ← index data 1
    return b == 0x00
  else return false

theorem isAudioHeader_eq (data : List UInt8) :
    isAudioHeader data = some (data.length > 1 && data.getD 1 0 == 0x00) := by
  obtain _ | ⟨a, _ | ⟨b, data⟩⟩ := data
  · rfl
  · rfl
  · simp [isAudioHeader, index]

/-- `data` is a video packet of NAL units that ends **inside** its tag header. -/
def IsCut (data : List UInt8) : Prop :=
  RtmpConnection.avcPacketType data = 0x01 ∧ data.length < 5

instance (data : List UInt8) : Decidable (IsCut data) := inferInstanceAs (Decidable (_ ∧ _))

theorem headD_eq_getD (data : List UInt8) : data.headD 0 = data.getD 0 0 := by
  rcases data with _ | ⟨a, l⟩ <;> rfl

/-- The branch for video. -/
def handleVideo (m : StreamManager) (conn : RtmpConnection) (msg : RtmpMessage) :
    Option (Option (StreamManager × RtmpConnection × RtmpOutcome)) :=
  if msg.payload = [] then return some (m, conn, .done [] none)
  else do
    let frameType ← index msg.payload 0
    let packetType ← avcPacketType msg.payload
    if packetType = 0x00 then do
      match ← sequenceHeaderConfig msg.payload with
      | none => return some (m, conn, .done [] none)
      | some (sps, pps) =>
        return some (m.setStreamSpsPps conn.streamId sps pps, conn, .done [] none)
    else if packetType = 0x01 then do
      let conn := { conn with framesReceived := conn.framesReceived + 1 }
      let avccPayload ← rangeFrom msg.payload 5
      if conn.isPublishing then do
        let annexB ← avccLoop avccPayload.length avccPayload 0
        if annexB = [] then return some (m, conn, .done [] none)
        else
          let frame := (MediaFrame.new conn.streamId 0 msg.timestamp.toUInt64 annexB
            (frameType &&& 0xF0 == 0x10) .h264).withClockRate MILLISECOND_CLOCK_RATE
          return (m.publishFrame frame).map fun m => (m, conn, .done [] none)
      else return some (m, conn, .done [] none)
    else return some (m, conn, .done [] none)

/-- The branch for audio. -/
def handleAudio (m : StreamManager) (conn : RtmpConnection) (msg : RtmpMessage) :
    Option (Option (StreamManager × RtmpConnection × RtmpOutcome)) :=
  if msg.payload = [] then return some (m, conn, .done [] none)
  else do
    -- the sound format, for the log
    let _ ← index msg.payload 0
    let isHeader ← isAudioHeader msg.payload
    let conn := { conn with framesReceived := conn.framesReceived + 1 }
    if conn.isPublishing && !isHeader then do
      let data ← audioData msg.payload
      let frame := (MediaFrame.new conn.streamId 1 msg.timestamp.toUInt64 data false
        .aac).withClockRate MILLISECOND_CLOCK_RATE
      return (m.publishFrame frame).map fun m => (m, conn, .done [] none)
    else return some (m, conn, .done [] none)

variable {m : StreamManager} {conn : RtmpConnection} {msg : RtmpMessage} {s : StreamId}

/-- The video branch panics on a packet that is cut, and on **no other**. -/
theorem handleVideo_eq (m : StreamManager) (conn : RtmpConnection) (msg : RtmpMessage) :
    handleVideo m conn msg =
      if IsCut msg.payload then none else some (RtmpConnection.handleVideo m conn msg) := by
  rw [handleVideo, RtmpConnection.handleVideo]
  by_cases hnil : msg.payload = []
  · simp [hnil, IsCut, RtmpConnection.avcPacketType]
  rw [if_neg hnil, if_neg hnil, index_of_lt (List.length_pos_of_ne_nil hnil), avcPacketType_eq]
  simp only [Option.bind_eq_bind, Option.bind_some]
  by_cases h0 : RtmpConnection.avcPacketType msg.payload = 0x00
  · rw [if_pos h0, if_pos h0, if_neg (by simp [IsCut, h0]), sequenceHeaderConfig_eq]
    simp only [Option.bind_some]
    rcases RtmpConnection.sequenceHeaderConfig msg.payload with _ | ⟨sps, pps⟩ <;> rfl
  rw [if_neg h0, if_neg h0]
  by_cases h1 : RtmpConnection.avcPacketType msg.payload = 0x01
  · rw [if_pos h1, if_pos h1]
    by_cases h5 : msg.payload.length < 5
    · rw [if_pos ⟨h1, h5⟩, rangeFrom, if_neg (by omega)]
      rfl
    · rw [if_neg fun h => h5 h.2, rangeFrom_of_le (by omega), if_neg h5]
      simp only [Option.bind_some, avccLoop_eq, List.drop_zero]
      rcases conn.isPublishing with _ | _
      · rfl
      · rw [if_pos rfl, if_pos rfl, RtmpConnection.videoFrame, RtmpConnection.avccToAnnexB,
          headD_eq_getD]
        by_cases hempty : RtmpConnection.avccLoop (msg.payload.drop 5).length (msg.payload.drop 5) =
          []
        · rw [if_pos hempty, if_pos hempty]
          rfl
        · rw [if_neg hempty, if_neg hempty]
          rfl
  · rw [if_neg h1, if_neg h1, if_neg fun h => h1 h.1]
    rfl

/-- The audio branch **never** panics. -/
theorem handleAudio_eq (m : StreamManager) (conn : RtmpConnection) (msg : RtmpMessage) :
    handleAudio m conn msg = some (RtmpConnection.handleAudio m conn msg) := by
  rw [handleAudio, RtmpConnection.handleAudio]
  by_cases hnil : msg.payload = []
  · rw [if_pos hnil, if_pos hnil]
    rfl
  · rw [if_neg hnil, if_neg hnil, index_of_lt (List.length_pos_of_ne_nil hnil), isAudioHeader_eq,
      audioData_eq]
    simp only [Option.bind_eq_bind, Option.bind_some]
    split <;> rfl

/-! ## Commands -/

/-- `build_avc_sequence_header`. -/
def buildAvcSequenceHeader (sps pps : List UInt8) : Option (List UInt8) := do
  let profile ←
    if sps.length ≥ 4 then do
      let a ← index sps 1
      let b ← index sps 2
      let c ← index sps 3
      pure [a, b, c]
    else pure [0x42, 0x00, 0x1F]
  return [0x17, 0x00, 0x00, 0x00, 0x00, 0x01] ++ profile ++ [0xFF, 0xE1] ++ toBe 2 sps.length ++
    sps ++ [0x01] ++ toBe 2 pps.length ++ pps

/-- A reply, once its bytes are built. -/
def built : RtmpReply → Option RtmpReply
  | .avcSequenceHeader sps pps => do
    let _ ← buildAvcSequenceHeader sps pps
    return .avcSequenceHeader sps pps
  | reply => return reply

/-- The `play` command. -/
def play (m : StreamManager) (conn : RtmpConnection) (args : List Amf0Value) (writeOk : Bool) :
    Option (RtmpConnection × RtmpOutcome) := do
  let (session, streamName) := conn.session.handlePlay args
  let replies ← (RtmpConnection.playReplies m session streamName).mapM built
  return ({ conn with session, streamId := streamName }, .answer writeOk replies)

/-- The `createStream` command: `args[0].as_f64().unwrap()`. -/
def createStream (conn : RtmpConnection) (args : List Amf0Value) (writeOk : Bool) :
    Option (RtmpConnection × RtmpOutcome) := do
  let (session, streamId) ← conn.session.handleCreateStream args
  return ({ conn with session },
    .answer writeOk [.createStreamResult session.transactionId streamId])

/-- `handle_amf0_command`: `play` and `createStream` have something to leave, the others do not. -/
def handleAmf0Command (m : StreamManager) (conn : RtmpConnection) (command : String)
    (args : List Amf0Value) (peerAddr : String) (writeOk : Bool) :
    Option (StreamManager × RtmpConnection × RtmpOutcome) :=
  match command with
  | "createStream" => (createStream conn args writeOk).map fun r => (m, r)
  | "play" => (play m conn args writeOk).map fun r => (m, r)
  | command => some (RtmpConnection.handleAmf0Command m conn command args peerAddr writeOk)

theorem built_eq (reply : RtmpReply) : built reply = some reply := by
  cases reply with
  | avcSequenceHeader sps pps =>
    rw [built, buildAvcSequenceHeader]
    split
    · rw [index_of_lt (by omega), index_of_lt (by omega), index_of_lt (by omega)]
      rfl
    · rfl
  | _ => rfl

theorem mapM_built (replies : List RtmpReply) : replies.mapM built = some replies := by
  induction replies with
  | nil => rfl
  | cons reply replies ih => simp [built_eq, ih]

theorem play_eq (m : StreamManager) (conn : RtmpConnection) (args : List Amf0Value) (w : Bool) :
    play m conn args w = some (RtmpConnection.play m conn args w) := by
  simp only [play, mapM_built]
  rfl

/-- The first argument of a `createStream` is a number, to answer with. -/
def HasTransaction (args : List Amf0Value) : Bool := (args[0]?.bind Amf0Value.asF64).isSome

/-- A command panics if it is a `createStream` without a transaction, and **only** then. -/
theorem handleAmf0Command_eq (m : StreamManager) (conn : RtmpConnection) (command : String)
    (args : List Amf0Value) (peerAddr : String) (w : Bool) :
    handleAmf0Command m conn command args peerAddr w =
      if command = "createStream" ∧ HasTransaction args = false then none
      else some (RtmpConnection.handleAmf0Command m conn command args peerAddr w) := by
  by_cases hcreate : command = "createStream"
  · subst hcreate
    have hchecked : handleAmf0Command m conn "createStream" args peerAddr w =
        (createStream conn args w).map fun r => (m, r) := rfl
    have htotal : RtmpConnection.handleAmf0Command m conn "createStream" args peerAddr w =
        (m, conn.createStream args w) := rfl
    rw [hchecked, htotal, createStream, RtmpConnection.createStream,
      RtmpSession.handleCreateStream, HasTransaction]
    rcases args[0]?.bind Amf0Value.asF64 with _ | id <;> rfl
  · rw [if_neg fun h => hcreate h.1]
    by_cases hplay : command = "play"
    · subst hplay
      have hchecked : handleAmf0Command m conn "play" args peerAddr w =
          (play m conn args w).map fun r => (m, r) := rfl
      rw [hchecked, play_eq]
      rfl
    · unfold handleAmf0Command
      split
      · contradiction
      · contradiction
      · rfl

/-! ## Messages -/

/-- The protocol control messages, whose numbers are only logged but for the chunk size. -/
def controlMessage (conn : RtmpConnection) (msg : RtmpMessage) :
    Option (RtmpConnection × RtmpOutcome) :=
  if msg.msgType = 0x01 ∧ 4 ≤ msg.payload.length then do
    let newSize ← be32 msg.payload 0
    return ({ conn with chunkSize := newSize }, .done [] (some newSize))
  else if msg.msgType = 0x05 ∧ 4 ≤ msg.payload.length then do
    let _ ← be32 msg.payload 0
    return (conn, .done [] none)
  else if msg.msgType = 0x06 ∧ 5 ≤ msg.payload.length then do
    let _ ← be32 msg.payload 0
    let _ ← index msg.payload 4
    return (conn, .done [] none)
  else return (conn, .done [] none)

/-- `handle_rtmp_message`. -/
def handleRtmpMessage (m : StreamManager) (conn : RtmpConnection) (msg : RtmpMessage)
    (peerAddr : String) (writeOk : Bool) :
    Option (Option (StreamManager × RtmpConnection × RtmpOutcome)) :=
  if msg.msgType = 0x14 ∨ msg.msgType = 0x12 then do
    match ← parseCommand msg.payload with
    | .error _ => return some (m, conn, .done [] none)
    | .ok (command, args) =>
      let r ← handleAmf0Command m conn command args peerAddr writeOk
      return some r
  else if msg.msgType = 0x09 then handleVideo m conn msg
  else if msg.msgType = 0x08 then handleAudio m conn msg
  else do
    let r ← controlMessage conn msg
    return some (m, r)

/-- `video_payload_to_frame`. -/
def videoPayloadToFrame (msg : RtmpMessage) (s : StreamId) : Option (Option MediaFrame) :=
  if msg.payload.length < 2 then return none
  else do
    let packetType ← index msg.payload 1
    if packetType = 0x01 then do
      let frameType ← index msg.payload 0
      let avccPayload ← rangeFrom msg.payload 5
      let annexB ← avccLoop avccPayload.length avccPayload 0
      return if annexB = [] then none
        else some ((MediaFrame.new s 0 msg.timestamp.toUInt64 annexB
          (frameType &&& 0xF0 == 0x10) .h264).withClockRate MILLISECOND_CLOCK_RATE)
    else return none

/-- `audio_payload_to_frame`. -/
def audioPayloadToFrame (msg : RtmpMessage) (s : StreamId) : Option (Option MediaFrame) :=
  if msg.payload = [] then return none
  else do
    if ← isAudioHeader msg.payload then return none
    else do
      let data ← audioData msg.payload
      return if data = [] then none
        else some ((MediaFrame.new s 1 msg.timestamp.toUInt64 data false
          .aac).withClockRate MILLISECOND_CLOCK_RATE)

/-- `rtmp_message_to_frame`. -/
def rtmpMessageToFrame (msg : RtmpMessage) (s : StreamId) : Option (Option MediaFrame) :=
  if msg.msgType = 0x09 then videoPayloadToFrame msg s
  else if msg.msgType = 0x08 then audioPayloadToFrame msg s
  else return none

/-- `extract_and_store_sps_pps`. -/
def extractAndStoreSpsPps (m : StreamManager) (s : StreamId) (data : List UInt8) :
    Option StreamManager := do
  let notHeader ←
    if data.length < 2 then pure true
    else do
      let packetType ← index data 1
      pure (packetType != 0x00)
  if notHeader || data.length ≤ 13 then return m
  else do
    let config ← rangeFrom data 5
    match ← parameterSets config with
    | none => return m
    | some (sps, pps) => return m.setStreamSpsPps s sps pps

/-- The message is a video packet that is cut. -/
def IsCutVideo (msg : RtmpMessage) : Prop := msg.msgType = 0x09 ∧ IsCut msg.payload

instance (msg : RtmpMessage) : Decidable (IsCutVideo msg) := inferInstanceAs (Decidable (_ ∧ _))

/-- The message is a `createStream` without a transaction. -/
def LacksTransaction (msg : RtmpMessage) : Bool :=
  match RtmpConnection.commandOf msg with
  | some ("createStream", args) => !HasTransaction args
  | _ => false

theorem controlMessage_eq (m : StreamManager) (conn : RtmpConnection) (msg : RtmpMessage) :
    (controlMessage conn msg).map (fun r => (m, r)) =
      some (if msg.msgType = 0x01 then (m, conn.setChunkSize msg.payload)
        else (m, conn, .done [] none)) := by
  rw [controlMessage, RtmpConnection.setChunkSize]
  by_cases h1 : msg.msgType = 0x01
  · by_cases h4 : 4 ≤ msg.payload.length
    · rw [if_pos ⟨h1, h4⟩, if_pos h1, if_pos h4, be32_of_le (by omega)]
      rfl
    · simp [h1, h4]
  · rw [if_neg fun h => h1 h.1, if_neg h1]
    split
    · rw [be32_of_le (by omega)]
      rfl
    · split
      · rw [be32_of_le (by omega), index_of_lt (by omega)]
        rfl
      · rfl

/-- The server panics on a video packet that is cut and on a `createStream` without a
transaction; on **every** other message it does what the total handler does. -/
theorem handleRtmpMessage_eq (m : StreamManager) (conn : RtmpConnection) (msg : RtmpMessage)
    (peerAddr : String) (w : Bool) :
    handleRtmpMessage m conn msg peerAddr w =
      if IsCutVideo msg ∨ LacksTransaction msg = true then none
      else some (RtmpConnection.handleRtmpMessage m conn msg peerAddr w) := by
  rw [handleRtmpMessage, RtmpConnection.handleRtmpMessage, LacksTransaction,
    RtmpConnection.commandOf]
  by_cases hcmd : msg.msgType = 0x14 ∨ msg.msgType = 0x12
  · have hcut : ¬ IsCutVideo msg := by
      rintro ⟨h9, -⟩
      rcases hcmd with h | h <;> simp [h] at h9
    simp only [if_pos hcmd, parseCommand_eq, Option.bind_eq_bind, Option.bind_some, hcut, false_or]
    rcases Amf0.parseCommand msg.payload with e | ⟨command, args⟩
    · rfl
    · simp only [handleAmf0Command_eq, Except.toOption]
      by_cases hcreate : command = "createStream"
      · subst hcreate
        rcases h : HasTransaction args <;> simp [h]
      · rw [if_neg fun h => hcreate h.1]
        simp [hcreate]
  · simp only [if_neg hcmd, Bool.false_eq_true, or_false]
    by_cases h9 : msg.msgType = 0x09
    · have hcut : IsCutVideo msg ↔ IsCut msg.payload := and_iff_right h9
      simp only [if_pos h9, handleVideo_eq, hcut]
    · have hcut : ¬ IsCutVideo msg := fun h => h9 h.1
      rw [if_neg h9, if_neg h9, if_neg hcut]
      by_cases h8 : msg.msgType = 0x08
      · rw [if_pos h8, if_pos h8, handleAudio_eq]
      · rw [if_neg h8, if_neg h8]
        have hcontrol := congrArg (Option.map some) (controlMessage_eq m conn msg)
        rw [Option.map_map] at hcontrol
        refine (?_ : _ = _).trans (hcontrol.trans ?_)
        · rcases controlMessage conn msg with _ | r <;> rfl
        · split <;> rfl

/-- The puller panics on the **same** packets as the server. -/
theorem rtmpMessageToFrame_eq (msg : RtmpMessage) (s : StreamId) :
    rtmpMessageToFrame msg s =
      if IsCutVideo msg then none else some (RtmpPull.rtmpMessageToFrame msg s) := by
  rw [rtmpMessageToFrame, RtmpPull.rtmpMessageToFrame]
  by_cases h9 : msg.msgType = 0x09
  · have hcut : IsCutVideo msg ↔ IsCut msg.payload := and_iff_right h9
    simp only [if_pos h9, hcut]
    rw [videoPayloadToFrame]
    by_cases h2 : msg.payload.length < 2
    · have hother : RtmpConnection.avcPacketType msg.payload ≠ 0x01 := by
        rw [RtmpConnection.avcPacketType, List.getD_eq_getElem?_getD,
          List.getElem?_eq_none (by omega)]
        decide
      rw [if_pos h2, if_neg fun h => hother h.1, if_neg hother]
      rfl
    · rw [if_neg h2, index_of_lt (by omega), index_of_lt (by omega)]
      simp only [Option.bind_eq_bind, Option.bind_some]
      rw [← avcPacketType_of_lt (by omega)]
      by_cases h1 : RtmpConnection.avcPacketType msg.payload = 0x01
      · rw [if_pos h1, if_pos h1]
        by_cases h5 : msg.payload.length < 5
        · rw [if_pos ⟨h1, h5⟩, rangeFrom, if_neg (by omega)]
          rfl
        · rw [if_neg fun h => h5 h.2, rangeFrom_of_le (by omega)]
          simp only [Option.bind_some, avccLoop_eq, List.drop_zero]
          rw [RtmpConnection.videoFrame, RtmpConnection.avccToAnnexB, headD_eq_getD]
          rfl
      · rw [if_neg h1, if_neg h1, if_neg fun h => h1 h.1]
        rfl
  · have hcut : ¬ IsCutVideo msg := fun h => h9 h.1
    rw [if_neg h9, if_neg h9, if_neg hcut]
    by_cases h8 : msg.msgType = 0x08
    · rw [if_pos h8, if_pos h8, audioPayloadToFrame, isAudioHeader_eq, audioData_eq]
      by_cases hnil : msg.payload = []
      · simp [hnil, RtmpConnection.audioData]
      · simp only [if_neg hnil, Option.bind_eq_bind, Option.bind_some, Bool.and_eq_true,
          decide_eq_true_eq, beq_iff_eq, RtmpConnection.audioFrame]
        split <;> rfl
    · rw [if_neg h8, if_neg h8]
      rfl

/-- A puller **never** reads a sequence header past its end. -/
theorem extractAndStoreSpsPps_eq (m : StreamManager) (s : StreamId) (data : List UInt8) :
    extractAndStoreSpsPps m s data = some (RtmpPull.extractAndStoreSpsPps m s data) := by
  rw [extractAndStoreSpsPps, RtmpPull.extractAndStoreSpsPps]
  by_cases h13 : data.length ≤ 13
  · -- too short for the total function as well, whatever the packet type
    have hnone : RtmpConnection.sequenceHeaderConfig data = none := by
      rw [RtmpConnection.sequenceHeaderConfig, if_neg (by omega)]
    rw [hnone]
    by_cases h2 : data.length < 2
    · simp [h2, h13]
    · simp [h2, h13, index_of_lt (show 1 < data.length by omega)]
  · have hconfig := sequenceHeaderConfig_eq data
    rw [sequenceHeaderConfig, if_pos (by omega), rangeFrom_of_le (by omega)] at hconfig
    simp only [Option.bind_eq_bind, Option.bind_some] at hconfig
    rw [if_neg (by omega), index_of_lt (by omega), rangeFrom_of_le (by omega),
      ← avcPacketType_of_lt (by omega)]
    simp only [Option.bind_eq_bind, Option.bind_some, hconfig]
    by_cases h0 : RtmpConnection.avcPacketType data = 0x00
    · simp only [h0, h13, bne_self_eq_false, decide_false, if_true]
      rcases RtmpConnection.sequenceHeaderConfig data with _ | ⟨sps, pps⟩ <;> rfl
    · simp [h0]

/-- A message makes **no** access that fails, in the server or in a puller, exactly if it is
neither a video packet that is cut nor a `createStream` without a transaction. -/
theorem no_panic_iff (m : StreamManager) (conn : RtmpConnection) (msg : RtmpMessage)
    (peerAddr : String) (writeOk : Bool) (s : StreamId) (data : List UInt8) :
    ((handleRtmpMessage m conn msg peerAddr writeOk).isSome ∧ (rtmpMessageToFrame msg s).isSome ∧
        (extractAndStoreSpsPps m s data).isSome) ↔
      ¬ IsCutVideo msg ∧ LacksTransaction msg = false := by
  rw [handleRtmpMessage_eq, rtmpMessageToFrame_eq, extractAndStoreSpsPps_eq]
  by_cases hcut : IsCutVideo msg
  · simp [hcut]
  · simp [hcut]

/-- Two bytes of video are enough for both sides, and a command without arguments for the
server. -/
theorem panics_of_two_bytes :
    let video : RtmpMessage :=
      { msgType := 0x09, timestamp := 0, streamId := 1, payload := [0x17, 0x01] }
    let command : RtmpMessage :=
      { msgType := 0x14, timestamp := 0, streamId := 0,
        payload := Amf0.encode [.string "createStream"] }
    handleRtmpMessage StreamManager.new RtmpConnection.new video "198.51.100.7:50000" true = none ∧
      rtmpMessageToFrame video "cam" = none ∧
      handleRtmpMessage StreamManager.new RtmpConnection.new command "198.51.100.7:50000" true =
        none := by
  refine ⟨rfl, rfl, ?_⟩
  rw [handleRtmpMessage_eq, if_pos (.inr rfl)]

end Checked

end VcpMediaServer
