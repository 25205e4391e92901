import VcpMediaServer.Bytes
import Mathlib.Data.List.Basic

/-!
# AMF0

The decoder and the encoder of `amf0.rs`, for RTMP commands. As in the source an
**offset** moves over the whole buffer; it stays where it got to when a value
goes wrong, and what is read up to there counts.

* `Amf0Value` — a double is its eight bytes; the map of an object is a list of
  its properties, each name once.
* `decode` — the values of a buffer and the bytes they take.
* `parseCommand` — the name of a command and its arguments.
* `encode` — the bytes of values.
-/

namespace VcpMediaServer

/-- `Amf0Value`. -/
inductive Amf0Value where
  | number (bits : UInt64)
  | boolean (b : Bool)
  | string (s : String)
  | object (props : List (String × Amf0Value))
  | null
  | undefined
  | ecmaArray (props : List (String × Amf0Value))

namespace Amf0Value

/-- `Amf0Value::as_str`. -/
def asStr : Amf0Value → Option String
  | string s => some s
  | _ => none

/-- `Amf0Value::as_f64`. -/
def asF64 : Amf0Value → Option UInt64
  | number n => some n
  | _ => none

/-- `Amf0Value::as_object`. -/
def asObject : Amf0Value → Option (List (String × Amf0Value))
  | object props => some props
  | ecmaArray props => some props
  | _ => none

end Amf0Value

namespace Amf0

/-- The marker that ends an object stands at `offset`. -/
def atObjectEnd (data : List UInt8) (offset : ℕ) : Bool := slice data offset 3 == [0x00, 0x00, 0x09]

/-- An end is three bytes. -/
theorem le_length_of_atObjectEnd {data : List UInt8} {offset : ℕ}
    (h : atObjectEnd data offset = true) :
    offset + 3 ≤ data.length := by
  have hlen := congrArg List.length (beq_iff_eq.mp h)
  simp only [slice, List.length_take, List.length_drop, List.length_cons, List.length_nil] at hlen
  omega

/-- `HashMap::insert`. -/
def insertProp (key : String) (val : Amf0Value) :
    List (String × Amf0Value) → List (String × Amf0Value)
  | [] => [(key, val)]
  | (k, v) :: props => if k = key then (key, val) :: props else (k, v) :: insertProp key val props

/-- `decode_string`: two bytes of length, then the text. -/
def decodeString (data : List UInt8) (offset : ℕ) : Except String String × ℕ :=
  if offset + 2 > data.length then (.error "Not enough data for string length", offset)
  else
    let len := beNat (slice data offset 2)
    let offset := offset + 2
    if offset + len > data.length then
      (.error ("Not enough data for string: need " ++ toString len ++ " but have " ++
        toString (data.length - offset)), offset)
    else (.ok (fromUtf8Lossy (slice data offset len)), offset + len)

/-- A digit of `{:02X}`. -/
def hexDigit (n : ℕ) : Char := if n < 10 then Char.ofNat (48 + n) else Char.ofNat (55 + n)

/-- `{:02X}` of a byte. -/
def hexByte (b : UInt8) : String :=
  String.ofList [hexDigit (b.toNat / 16), hexDigit (b.toNat % 16)]

mutual

/-- `decode_value`. Every turn of it and of `decodeObjectInner` moves the offset,
so that fuel above the number of bytes left is never used up. -/
def decodeValue : ℕ → List UInt8 → ℕ → Except String Amf0Value × ℕ
  | 0, _, offset => (.error "Not enough data for AMF0 marker", offset)
  | fuel + 1, data, offset =>
    match data[offset]? with
    | none => (.error "Not enough data for AMF0 marker", offset)
    | some marker =>
      let offset := offset + 1
      match marker with
      | 0x00 =>
        if offset + 8 > data.length then (.error "Not enough data for Number", offset)
        else (.ok (.number (UInt64.ofNat (beNat (slice data offset 8)))), offset + 8)
      | 0x01 =>
        match data[offset]? with
        | none => (.error "Not enough data for Boolean", offset)
        | some b => (.ok (.boolean (b != 0)), offset + 1)
      | 0x02 =>
        match decodeString data offset with
        | (.ok s, offset) => (.ok (.string s), offset)
        | (.error e, offset) => (.error e, offset)
      | 0x03 => decodeObjectInner fuel data offset false []
      | 0x05 => (.ok .null, offset)
      | 0x06 => (.ok .null, offset)
      | 0x08 =>
        if offset + 4 > data.length then (.error "Not enough data for ECMA array count", offset)
        -- the count is not looked at
        else decodeObjectInner fuel data (offset + 4) true []
      | _ =>
        (.error ("Unsupported AMF0 type: 0x" ++ hexByte marker ++ " at offset " ++
          toString (offset - 1)), offset)

/-- `decode_object_inner`, with the properties read so far. A value that goes
wrong ends the object; what came before it is kept. -/
def decodeObjectInner :
    ℕ → List UInt8 → ℕ → Bool → List (String × Amf0Value) → Except String Amf0Value × ℕ
  | 0, _, offset, _, _ => (.error "Not enough data for property name", offset)
  | fuel + 1, data, offset, isEcma, props =>
    let finished : Amf0Value := if isEcma then .ecmaArray props else .object props
    if atObjectEnd data offset then (.ok finished, offset + 3)
    else if offset + 2 > data.length then (.error "Not enough data for property name", offset)
    else
      let keyLen := beNat (slice data offset 2)
      let offset := offset + 2
      if keyLen = 0 then
        (.ok finished, if data[offset]? = some 0x09 then offset + 1 else offset)
      else if offset + keyLen > data.length then
        (.error "Not enough data for property name", offset)
      else
        let key := fromUtf8Lossy (slice data offset keyLen)
        match decodeValue fuel data (offset + keyLen) with
        | (.ok val, offset) => decodeObjectInner fuel data offset isEcma (insertProp key val props)
        | (.error _, offset) => (.ok finished, offset)

end

/-- The loop of `decode`, with the values read so far. -/
def decodeLoop : ℕ → List UInt8 → ℕ → List Amf0Value → Except String (List Amf0Value × ℕ)
  | 0, _, offset, values => .ok (values, offset)
  | fuel + 1, data, offset, values =>
    if data.length ≤ offset then .ok (values, offset)
    else if atObjectEnd data offset then .ok (values, offset + 3)
    else
      match decodeValue (data.length + 1) data offset with
      | (.ok val, offset) => decodeLoop fuel data offset (values ++ [val])
      | (.error e, offset) => if values.isEmpty then .error e else .ok (values, offset)

/-- `decode`: an error only if there is **no** value before it. -/
def decode (data : List UInt8) : Except String (List Amf0Value × ℕ) :=
  decodeLoop (data.length + 1) data 0 []

/-- `parse_command`. -/
def parseCommand (payload : List UInt8) : Except String (String × List Amf0Value) :=
  match decode payload with
  | .error e => .error e
  | .ok ([], _) => .error "Empty AMF0 payload"
  | .ok (.string s :: args, _) => .ok (s, args)
  | .ok (_ :: _, _) => .error "First AMF0 value must be a string command name"

/-- The length of a string in two bytes, then the string. A length of 65536 or
more is cut to its lower half. -/
def encodeString (s : String) : List UInt8 :=
  let bytes := s.toByteArray.data.toList
  toBe 2 bytes.length ++ bytes

mutual

/-- `encode_value`. -/
def encodeValue : Amf0Value → List UInt8
  | .number n => 0x00 :: toBe 8 n.toNat
  | .boolean b => [0x01, if b then 1 else 0]
  | .string s => 0x02 :: encodeString s
  | .object props => 0x03 :: (encodeObjectProperties props ++ [0x00, 0x00, 0x09])
  | .null => [0x05]
  | .undefined => [0x06]
  | .ecmaArray props =>
    0x08 :: (toBe 4 props.length ++ encodeObjectProperties props ++ [0x00, 0x00, 0x09])

/-- `encode_object_properties`, in the order of the list. -/
def encodeObjectProperties : List (String × Amf0Value) → List UInt8
  | [] => []
  | prop :: props => encodeProperty prop ++ encodeObjectProperties props

/-- One property: its name without a marker, then its value. -/
def encodeProperty : String × Amf0Value → List UInt8
  | (key, val) => encodeString key ++ encodeValue val

end

/-- `encode`. -/
def encode (values : List Amf0Value) : List UInt8 := values.flatMap encodeValue

/-- `get_string_prop`. -/
def getStringProp (val : Amf0Value) (key : String) : Option String :=
  (val.asObject.bind (List.lookup key)).bind Amf0Value.asStr

example : parseCommand (encode [.string "connect", .number 0x3FF0000000000000,
    .object [("app", .string "cam")]]) =
    .ok ("connect", [.number 0x3FF0000000000000, .object [("app", .string "cam")]]) := by
  rfl

end Amf0

end VcpMediaServer
