import VcpMediaServer.Bytes

/-!
# AAC framing

How AAC travels in RTP: `strip_mpeg4_generic_aac` takes the AU headers of RFC 3640
off a payload. Only the **first** access unit of a payload is looked at.
-/

namespace VcpMediaServer

/-- `AAC_HBR_SIZE_LENGTH`. -/
def AAC_HBR_SIZE_LENGTH : ℕ := 13

/-- `AAC_HBR_INDEX_LENGTH`. -/
def AAC_HBR_INDEX_LENGTH : ℕ := 3

/-- The bits of a byte, the highest first. -/
def byteBits (b : UInt8) : List Bool := (List.range 8).map fun i => b.toNat.testBit (7 - i)

/-- The number that the first `n` bits make, if there are that many. -/
def readBits (bits : List Bool) (n : ℕ) : Option ℕ :=
  if bits.length < n then none
  else some ((bits.take n).foldl (fun v b => 2 * v + b.toNat) 0)

/-- `read_aac_hbr_au_size`: the size of the first access unit, with an index
behind it. -/
def readAacHbrAuSize (auHeaderBytes : List UInt8) : Option ℕ :=
  let bits := auHeaderBytes.flatMap byteBits
  match readBits bits AAC_HBR_SIZE_LENGTH with
  | none => none
  | some size => (readBits (bits.drop AAC_HBR_SIZE_LENGTH) AAC_HBR_INDEX_LENGTH).map fun _ => size

/-- `strip_mpeg4_generic_aac`. -/
def stripMpeg4GenericAac (payload : List UInt8) : Option (List UInt8) :=
  if payload = [] then none
  else if 7 ≤ payload.length ∧ payload.getD 0 0 = 0xFF ∧ payload.getD 1 0 &&& 0xF0 = 0xF0 then
    some payload
  else if payload.length < 2 then none
  else
    let auHeadersLengthBits := beNat (slice payload 0 2)
    let auHeadersLengthBytes := (auHeadersLengthBits + 7) / 8
    let dataOffset := 2 + auHeadersLengthBytes
    if dataOffset > payload.length ∨ auHeadersLengthBytes = 0 then none
    else
      let auHeaderFieldBits := AAC_HBR_SIZE_LENGTH + AAC_HBR_INDEX_LENGTH
      if auHeadersLengthBits % auHeaderFieldBits ≠ 0 then none
      else
        match readAacHbrAuSize (slice payload 2 auHeadersLengthBytes) with
        | none => none
        | some auSize =>
          if auSize = 0 then none
          else if dataOffset + auSize ≤ payload.length then some (slice payload dataOffset auSize)
          -- a fragment is taken for the whole, where it is alone
          else if auHeadersLengthBits / auHeaderFieldBits = 1 ∧ dataOffset < payload.length then
            some (payload.drop dataOffset)
          else none

example : stripMpeg4GenericAac [0, 16, 0, 24, 1, 2, 3] = some [1, 2, 3] := by decide

end VcpMediaServer
