import VcpMediaServer.AacAggregation
import VcpMediaServer.InterleavedChannels
import VcpMediaServer.TsMuxer

/-!
# AAC there and back

Both framings of AAC write the length of the frame into 13 bits: RTP in front of the access unit,
ADTS in the middle of a header of seven bytes. What looks like ADTS is framed already.

* `HbrPayload.single` — what `PLAY` sends of a frame, as a payload with one unit.
* `adtsHeader` — the header that the muxer writes.
* `aac_framings_round_trip` — both are taken off again.
-/

namespace VcpMediaServer

/-! ## RTP -/

theorem HbrPayload.single_lt : (([] : List HbrUnit).length + 1) * 16 < 2 ^ 16 := by decide

/-- A payload with one unit, at index 0. -/
def HbrPayload.single (data : List UInt8) (hne : data ≠ []) (hlt : data.length < 2 ^ 13) :
    HbrPayload where
  first := ⟨0, data, Nat.two_pow_pos 3, hne, hlt⟩
  rest := []
  rest_lt := HbrPayload.single_lt

/-- A frame is sent as a payload with one unit. -/
theorem wrapMpeg4GenericAacHbr_eq {x : List UInt8} (hne : aacPayloadWithoutAdts x ≠ [])
    (hlt : (aacPayloadWithoutAdts x).length < 2 ^ 13) :
    wrapMpeg4GenericAacHbr x = (HbrPayload.single _ hne hlt).toBytes := by
  rw [wrapMpeg4GenericAacHbr]
  have hbytes : (HbrPayload.single _ hne hlt).toBytes = toBe 2 16 ++
      (toBe 2 ((aacPayloadWithoutAdts x).length * 2 ^ 3) ++ aacPayloadWithoutAdts x) := by
    simp [HbrPayload.toBytes, HbrPayload.headers, HbrPayload.units, HbrUnit.header,
      HbrPayload.single]
  rw [if_neg hne, List.append_assoc, hbytes]
  rfl

theorem stripMpeg4GenericAac_wrapMpeg4GenericAacHbr {x : List UInt8}
    (hne : aacPayloadWithoutAdts x ≠ []) (hlt : (aacPayloadWithoutAdts x).length < 2 ^ 13) :
    stripMpeg4GenericAac (wrapMpeg4GenericAacHbr x) = some (aacPayloadWithoutAdts x) := by
  have hstrip := stripMpeg4GenericAac_toBytes (HbrPayload.single _ hne hlt) []
  rw [List.append_nil] at hstrip
  rw [wrapMpeg4GenericAacHbr_eq hne hlt, hstrip]
  rfl

/-! ## ADTS -/

/-- The header of a frame of so many bytes, itself included. -/
def adtsHeader (frameLen : ℕ) : List UInt8 :=
  [0xFF, 0xF1, 0x10, 0x80 ||| UInt8.ofNat (frameLen / 2 ^ 11), UInt8.ofNat (frameLen / 2 ^ 3),
    (UInt8.ofNat (frameLen % 8) <<< 5) ||| 0x1F, 0xFC]

theorem wrapAacAdts_eq {x : List UInt8} (hne : x ≠ [])
    (hadts : ¬(2 ≤ x.length ∧ x.getD 0 0 = 0xFF ∧ x.getD 1 0 &&& 0xF0 = 0xF0)) :
    wrapAacAdts x = adtsHeader (x.length + 7) ++ x := by
  rw [wrapAacAdts, if_neg hne, if_neg hadts]
  rfl

/-- The two bits on top of the length are at the end of their byte. -/
theorem adts_length_high : ∀ n < 4, (0x80 ||| UInt8.ofNat n).toNat % 4 = n := by decide

/-- The three bits at its bottom are in front of theirs. -/
theorem adts_length_low : ∀ n < 8, ((UInt8.ofNat n <<< 5) ||| 0x1F).toNat / 32 = n := by decide

/-- A length of 13 bits is read from the header. -/
theorem adts_length {frameLen : ℕ} (hlt : frameLen < 2 ^ 13) :
    (0x80 ||| UInt8.ofNat (frameLen / 2 ^ 11)).toNat % 4 * 2048 +
      (UInt8.ofNat (frameLen / 2 ^ 3)).toNat * 8 +
      ((UInt8.ofNat (frameLen % 8) <<< 5) ||| 0x1F).toNat / 32 = frameLen := by
  have hmiddle : (UInt8.ofNat (frameLen / 2 ^ 3)).toNat = frameLen / 2 ^ 3 % 2 ^ 8 :=
    UInt8.toNat_ofNat'
  rw [adts_length_high _ (by omega), adts_length_low _ (by omega), hmiddle]
  omega

/-- Behind the header the frame is found. -/
theorem aacPayloadWithoutAdts_adtsHeader {x : List UInt8} (hne : x ≠ [])
    (hlt : x.length + 7 < 2 ^ 13) :
    aacPayloadWithoutAdts (adtsHeader (x.length + 7) ++ x) = x := by
  have hpos := List.length_pos_of_ne_nil hne
  have hlength : (adtsHeader (x.length + 7) ++ x).length = x.length + 7 := by
    rw [List.length_append, Nat.add_comm]
    rfl
  have hframe : ((adtsHeader (x.length + 7) ++ x).getD 3 0).toNat % 4 * 2048 +
      ((adtsHeader (x.length + 7) ++ x).getD 4 0).toNat * 8 +
      ((adtsHeader (x.length + 7) ++ x).getD 5 0).toNat / 32 = x.length + 7 := adts_length hlt
  have hdata : slice (adtsHeader (x.length + 7) ++ x) 7 x.length = x := by
    rw [slice, show (adtsHeader (x.length + 7) ++ x).drop 7 = x from rfl, List.take_length]
  have hsync : (0xF1 : UInt8) &&& 0xF0 = 0xF0 := by decide
  rw [aacPayloadWithoutAdts, if_pos ⟨by omega, rfl, hsync⟩]
  dsimp only
  rw [hframe, if_pos (by omega), Nat.add_sub_cancel, hdata]

/-- What carries the sync word is left as it is; to everything else the header is added that is
taken off. -/
theorem aacPayloadWithoutAdts_wrapAacAdts {x : List UInt8} (hne : x ≠ [])
    (hlt : x.length + 7 < 2 ^ 13) :
    aacPayloadWithoutAdts (wrapAacAdts x) = aacPayloadWithoutAdts x := by
  by_cases hadts : 2 ≤ x.length ∧ x.getD 0 0 = 0xFF ∧ x.getD 1 0 &&& 0xF0 = 0xF0
  · rw [wrapAacAdts, if_neg hne, if_pos hadts]
  · have hraw : aacPayloadWithoutAdts x = x := by
      rw [aacPayloadWithoutAdts, if_neg fun h => hadts ⟨by omega, h.2⟩]
    rw [wrapAacAdts_eq hne hadts, aacPayloadWithoutAdts_adtsHeader hne hlt, hraw]

/-! ## Both -/

/-- A frame whose raw payload has 1 to 8191 bytes comes back from its RTP payload; one of 1 to 8184
bytes has the same raw payload behind a header of ADTS as without it. -/
theorem aac_framings_round_trip (x : List UInt8) :
    (1 ≤ (aacPayloadWithoutAdts x).length → (aacPayloadWithoutAdts x).length ≤ 8191 →
      stripMpeg4GenericAac (wrapMpeg4GenericAacHbr x) = some (aacPayloadWithoutAdts x)) ∧
    (1 ≤ x.length → x.length ≤ 8184 →
      aacPayloadWithoutAdts (wrapAacAdts x) = aacPayloadWithoutAdts x) := by
  constructor
  · intro hpos hle
    exact stripMpeg4GenericAac_wrapMpeg4GenericAacHbr (List.ne_nil_of_length_pos hpos) (by omega)
  · intro hpos hle
    exact aacPayloadWithoutAdts_wrapAacAdts (List.ne_nil_of_length_pos hpos) (by omega)

/-- A frame that is framed by ADTS, with a byte behind it that the length leaves out. -/
theorem aac_framings_round_trip_adts :
    stripMpeg4GenericAac
      (wrapMpeg4GenericAacHbr [0xFF, 0xF1, 0x10, 0x80, 0x01, 0x3F, 0xFC, 1, 2, 3]) =
      some [1, 2] ∧
    aacPayloadWithoutAdts (wrapAacAdts [0xFF, 0xF1, 0x10, 0x80, 0x01, 0x3F, 0xFC, 1, 2, 3]) =
        [1, 2] := by
  have hraw : aacPayloadWithoutAdts [0xFF, 0xF1, 0x10, 0x80, 0x01, 0x3F, 0xFC, 1, 2, 3] =
    [1, 2] := by decide
  have hboth := aac_framings_round_trip [0xFF, 0xF1, 0x10, 0x80, 0x01, 0x3F, 0xFC, 1, 2, 3]
  rw [hraw] at hboth
  exact ⟨hboth.1 (by decide) (by decide), hboth.2 (by decide) (by decide)⟩

end VcpMediaServer
