import VcpMediaServer.HttpFlv
import VcpMediaServer.Pullers
import VcpMediaServer.RtmpPanics

/-!
# Sequence headers of AVC, written and read

RTMP and HTTP-FLV write the parameter sets of a stream into the same record, each with a length of
16 bits in front of it. The server and the puller of RTMP read it with the same loops.

* `readParameterSets_one` — the loop on one set.
* `avcSequenceHeader_round_trip` — what is written is stored.
-/

namespace VcpMediaServer

open StreamManager

variable {sps pps : List UInt8}

/-! ## Writing -/

/-- RTMP writes what HTTP-FLV puts into its tag. -/
theorem buildAvcSequenceHeader_eq (sps pps : List UInt8) :
    Checked.buildAvcSequenceHeader sps pps = some (avcSequenceHeaderData sps pps) := by
  rw [Checked.buildAvcSequenceHeader, avcSequenceHeaderData]
  split
  · rw [Checked.index_of_lt (by omega), Checked.index_of_lt (by omega),
      Checked.index_of_lt (by omega)]
    rfl
  · rfl

/-- What stands in front of the first set: the tag header, the version, the profile and two counts.
-/
def avcRecordFront (sps : List UInt8) : List UInt8 :=
  [0x17, 0x00, 0x00, 0x00, 0x00, 0x01] ++
    (if 4 ≤ sps.length then [sps.getD 1 0, sps.getD 2 0, sps.getD 3 0] else [0x42, 0x00, 0x1F]) ++
      [0xFF, 0xE1]

theorem length_avcRecordFront (sps : List UInt8) : (avcRecordFront sps).length = 11 := by
  rw [avcRecordFront]
  split <;> rfl

theorem avcSequenceHeaderData_eq (sps pps : List UInt8) :
    avcSequenceHeaderData sps pps =
      avcRecordFront sps ++
          (toBe 2 sps.length ++ (sps ++ (0x01 :: (toBe 2 pps.length ++ pps)))) := by
  simp [avcSequenceHeaderData, avcRecordFront]

theorem length_avcSequenceHeaderData (sps pps : List UInt8) :
    (avcSequenceHeaderData sps pps).length = sps.length + pps.length + 16 := by
  rw [avcSequenceHeaderData_eq, List.length_append, length_avcRecordFront, List.length_append,
    length_toBe, List.length_append, List.length_cons, List.length_append, length_toBe]
  omega

/-- The tag is read, with the record in it. -/
theorem parseTag_generateAvcSequenceHeader (hsps : sps.length < 2 ^ 16) (hpps : pps.length < 2 ^ 16)
    (rest : List UInt8) :
    Flv.parseTag (generateAvcSequenceHeader sps pps ++ rest) =
      some (⟨0x09, 0, avcSequenceHeaderData sps pps⟩, rest) := by
  have hsize : (avcSequenceHeaderData sps pps).length < 2 ^ 24 := by
    rw [length_avcSequenceHeaderData]
    omega
  rw [generateAvcSequenceHeader, generateFlvTag_eq hsize]
  exact Flv.parseTag_bytes ⟨by simp [Flv.tagTypes], hsize⟩ rest

/-! ## Reading -/

namespace RtmpConnection

/-- The loop reads one set that is there, and stops behind it. -/
theorem readParameterSets_one {config set rest last : List UInt8} {offset : ℕ}
    (h : config.drop offset = toBe 2 set.length ++ (set ++ rest)) (hlt : set.length < 2 ^ 16) :
    readParameterSets config 1 offset last = (set, offset + 2 + set.length) := by
  have hlength := slice_eq_of_drop h
  have hbehind := drop_of_drop h
  rw [length_toBe] at hlength hbehind
  have hset := slice_eq_of_drop hbehind
  have hlen := congrArg List.length h
  rw [List.length_drop, List.length_append, length_toBe, List.length_append] at hlen
  have hvalue : beNat (toBe 2 set.length) = set.length := beNat_toBe_of_lt hlt
  rw [readParameterSets, if_neg (by omega), hlength, hvalue]
  dsimp only
  rw [if_neg (by omega), hset, readParameterSets]

/-- From the record that is written both sets are read. -/
theorem sequenceHeaderConfig_avcSequenceHeaderData (hne : sps ≠ []) (hsps : sps.length < 2 ^ 16)
    (hpps : pps.length < 2 ^ 16) : sequenceHeaderConfig (avcSequenceHeaderData sps pps) =
        some (sps, pps) := by
  have hpos := List.length_pos_of_ne_nil hne
  have hlen := length_avcSequenceHeaderData sps pps
  have hfront : (avcSequenceHeaderData sps pps).drop 11 =
      toBe 2 sps.length ++ (sps ++ (0x01 :: (toBe 2 pps.length ++ pps))) := by
    rw [avcSequenceHeaderData_eq, List.drop_left' (length_avcRecordFront sps)]
  have hcount : ((avcSequenceHeaderData sps pps).drop 5).getD 5 0 = 0xE1 := by
    rw [avcSequenceHeaderData_eq, avcRecordFront]
    split <;> rfl
  rw [sequenceHeaderConfig, if_pos (by omega)]
  dsimp only
  rw [if_pos (by rw [List.length_drop]; omega), hcount]
  generalize avcSequenceHeaderData sps pps = data at hlen hfront
  have hsets : (data.drop 5).drop 6 = toBe 2 sps.length ++
      (sps ++ (0x01 :: (toBe 2 pps.length ++ pps))) := by
    rw [List.drop_drop, hfront]
  have hbehind := drop_of_drop (drop_of_drop hsets)
  rw [length_toBe] at hbehind
  have hone : ((0xE1 : UInt8) &&& 0x1F).toNat = 1 := by decide
  have hone' : ((0x01 : UInt8) &&& 0x1F).toNat = 1 := by decide
  rw [hone, readParameterSets_one hsets hsps]
  dsimp only
  rw [getElem?_of_drop hbehind]
  dsimp only
  have hlast : (data.drop 5).drop (6 + 2 + sps.length + 1) = toBe 2 pps.length ++ (pps ++ []) := by
    rw [drop_succ_of_drop hbehind, List.append_nil]
  rw [hone', readParameterSets_one hlast hpps, if_neg hne]

/-- The server's branch for sequence headers stores both. -/
theorem handleRtmpMessage_avcSequenceHeaderData (hne : sps ≠ []) (hsps : sps.length < 2 ^ 16)
    (hpps : pps.length < 2 ^ 16) (m : StreamManager) (conn : RtmpConnection) {msg : RtmpMessage}
    (htype : msg.msgType = 0x09) (hpayload : msg.payload = avcSequenceHeaderData sps pps)
    (peerAddr : String) (writeOk : Bool) :
    handleRtmpMessage m conn msg peerAddr writeOk =
      some (m.setStreamSpsPps conn.streamId sps pps, conn, .done [] none) := by
  have hnil : avcSequenceHeaderData sps pps ≠ [] := by
    rw [← List.length_pos_iff, length_avcSequenceHeaderData]
    omega
  have hpacket : avcPacketType (avcSequenceHeaderData sps pps) = 0x00 := rfl
  rw [handleRtmpMessage, htype, if_neg (by decide), if_pos rfl, handleVideo, hpayload, if_neg hnil,
    if_pos hpacket, sequenceHeaderConfig_avcSequenceHeaderData hne hsps hpps]

end RtmpConnection

/-- So does the puller. -/
theorem RtmpPull.extractAndStoreSpsPps_avcSequenceHeaderData (hne : sps ≠ [])
    (hsps : sps.length < 2 ^ 16) (hpps : pps.length < 2 ^ 16) (m : StreamManager) (s : StreamId) :
    extractAndStoreSpsPps m s (avcSequenceHeaderData sps pps) = m.setStreamSpsPps s sps pps := by
  have hpacket : RtmpConnection.avcPacketType (avcSequenceHeaderData sps pps) = 0x00 := rfl
  rw [extractAndStoreSpsPps, if_pos hpacket,
    RtmpConnection.sequenceHeaderConfig_avcSequenceHeaderData hne hsps hpps]

theorem getStream_setStreamSpsPps (m : StreamManager) (s : StreamId) (sps pps : List UInt8) :
    (m.setStreamSpsPps s sps pps).getStream s =
      (m.getStream s).map fun stream => { stream with sps := some sps, pps := some pps } := by
  rw [getStream, setStreamSpsPps, getHub_updateHub_self, getStream, Option.map_map, Option.map_map]
  rfl

/-! ## Both -/

/-- With an SPS of 1 to 65535 bytes and a PPS of up to 65535 bytes, both writers write the same
record, and both readers store in the stream just these two. -/
theorem avcSequenceHeader_round_trip (sps pps : List UInt8) (hpos : 1 ≤ sps.length)
    (hsps : sps.length ≤ 65535) (hpps : pps.length ≤ 65535) :
    ∃ record, Checked.buildAvcSequenceHeader sps pps = some record ∧
      (∀ rest, Flv.parseTag (generateAvcSequenceHeader sps pps ++ rest) =
        some (⟨0x09, 0, record⟩, rest)) ∧
      (∀ (m : StreamManager) (conn : RtmpConnection) (msg : RtmpMessage), msg.msgType = 0x09 →
        msg.payload = record → ∀ peerAddr writeOk,
        RtmpConnection.handleRtmpMessage m conn msg peerAddr writeOk =
          some (m.setStreamSpsPps conn.streamId sps pps, conn, .done [] none)) ∧
      (∀ (m : StreamManager) (s : StreamId),
        RtmpPull.extractAndStoreSpsPps m s record = m.setStreamSpsPps s sps pps) ∧
      ∀ (m : StreamManager) (s : StreamId), (m.setStreamSpsPps s sps pps).getStream s =
        (m.getStream s).map fun stream => { stream with sps := some sps, pps := some pps } := by
  have hne := List.ne_nil_of_length_pos hpos
  refine ⟨avcSequenceHeaderData sps pps, buildAvcSequenceHeader_eq sps pps,
    parseTag_generateAvcSequenceHeader (by omega) (by omega), ?_, ?_, ?_⟩
  · intro m conn msg htype hpayload
    exact RtmpConnection.handleRtmpMessage_avcSequenceHeaderData hne
      (by omega) (by omega) m conn htype hpayload
  · exact RtmpPull.extractAndStoreSpsPps_avcSequenceHeaderData hne (by omega) (by omega)
  · exact fun m s => getStream_setStreamSpsPps m s sps pps

/-- An SPS of one byte, and no byte of a PPS. -/
theorem avcSequenceHeader_round_trip_shortest :
    ((RtmpPull.extractAndStoreSpsPps (StreamManager.new.createStream "cam" .pull .rtmp none).1 "cam"
      [0x17, 0x00, 0x00, 0x00, 0x00, 0x01, 0x42, 0x00, 0x1F, 0xFF, 0xE1, 0, 1, 0x67, 0x01, 0,
        0]).getStream "cam").map
        (fun stream => (stream.sps, stream.pps)) = some (some [0x67], some []) := by
  obtain ⟨record, hrecord, -, -, hpuller, hstored⟩ :=
    avcSequenceHeader_round_trip [0x67] [] (by decide) (by decide) (by decide)
  obtain rfl : record = [0x17, 0x00, 0x00, 0x00, 0x00, 0x01, 0x42, 0x00, 0x1F, 0xFF, 0xE1, 0, 1,
      0x67, 0x01, 0, 0] :=
    (Option.some.inj hrecord).symm
  rw [hpuller, hstored]
  rfl

end VcpMediaServer
