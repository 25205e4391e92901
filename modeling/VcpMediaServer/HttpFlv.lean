import VcpMediaServer.Amf0
import VcpMediaServer.Flv
import VcpMediaServer.FlvPlayTimeline
import VcpMediaServer.VideoRelay

/-!
# HTTP-FLV

`HttpFlvSession`: a stream as an FLV file. The header and the metadata come with the first call of
`generate_initial_data`, the sequence headers with the first that finds the parameter sets, and a
tag with each frame.

* `FlvCall`, `call` — the calls that a session is given, and their bytes.
* `tagsOf`, `timesOf` — the tags that a call emits, and the times of its timeline that they are
  given.
* `parseFile_output` — a file **that is begun first** reads as the tags emitted, in the order of
  their times.
-/

namespace VcpMediaServer

/-! ## Tags -/

/-- The flags of a header. -/
def flvFlags (hasVideo hasAudio : Bool) : UInt8 :=
  let flags : UInt8 := if hasAudio then 0x04 else 0
  if hasVideo then flags ||| 0x01 else flags

/-- `generate_flv_header`. -/
def generateFlvHeader (hasVideo hasAudio : Bool) : List UInt8 :=
  [0x46, 0x4C, 0x56] ++ [0x01] ++ [flvFlags hasVideo hasAudio] ++ [0x00, 0x00, 0x00, 0x09] ++
    [0x00, 0x00, 0x00, 0x00]

/-- `generate_flv_tag`. -/
def generateFlvTag (tagType : UInt8) (timestamp : UInt32) (data : List UInt8) : List UInt8 :=
  let dataSize := UInt32.ofNat data.length
  [tagType] ++
    [(dataSize >>> 16 &&& 0xFF).toUInt8, (dataSize >>> 8 &&& 0xFF).toUInt8,
      (dataSize &&& 0xFF).toUInt8] ++
    [(timestamp >>> 16 &&& 0xFF).toUInt8, (timestamp >>> 8 &&& 0xFF).toUInt8,
      (timestamp &&& 0xFF).toUInt8, (timestamp >>> 24 &&& 0xFF).toUInt8] ++
    [0x00, 0x00, 0x00] ++ data ++ toBe 4 (11 + dataSize).toNat

/-- The data of an AVC sequence header. The lengths are cut to 16 bits. -/
def avcSequenceHeaderData (sps pps : List UInt8) : List UInt8 :=
  [0x17, 0x00] ++ [0x00, 0x00, 0x00] ++ [0x01] ++
    (if 4 ≤ sps.length then [sps.getD 1 0, sps.getD 2 0, sps.getD 3 0] else [0x42, 0x00, 0x1F]) ++
    [0xFF, 0xE1] ++ toBe 2 sps.length ++ sps ++ [0x01] ++ toBe 2 pps.length ++ pps

/-- `generate_avc_sequence_header`. -/
def generateAvcSequenceHeader (sps pps : List UInt8) : List UInt8 :=
  generateFlvTag 0x09 0 (avcSequenceHeaderData sps pps)

/-- The data of an AAC sequence header. -/
def aacSequenceHeaderData : List UInt8 := [0xAF, 0x00, 0x12, 0x10]

/-- `generate_aac_sequence_header`. -/
def generateAacSequenceHeader : List UInt8 := generateFlvTag 0x08 0 aacSequenceHeaderData

/-- `stream_has_codec`. -/
def streamHasCodec (stream : Stream) (codec : CodecType) : Bool :=
  stream.tracks.any fun track => track.codec = codec

/-- The data of `onMetaData`: an array of three properties. -/
def metadataData (streamId : StreamId) : List UInt8 :=
  0x02 :: Amf0.encodeString "onMetaData" ++ [0x08] ++ toBe 4 3 ++
    Amf0.encodeString "width" ++ [0x00] ++ toBe 8 0 ++
    Amf0.encodeString "height" ++ [0x00] ++ toBe 8 0 ++
    Amf0.encodeString "streamName" ++ [0x02] ++ Amf0.encodeString streamId ++
    [0x00, 0x00, 0x09]

/-- `generate_metadata_tag`. -/
def generateMetadataTag (streamId : StreamId) : List UInt8 :=
  generateFlvTag 0x12 0 (metadataData streamId)

/-- `frame_to_rtmp_audio`. -/
def frameToRtmpAudio (frame : MediaFrame) : List UInt8 := [0xAF, 0x01] ++ frame.data

/-- `frame_to_flv_video`. -/
def frameToFlvVideo (frame : MediaFrame) (timestamp : UInt32) : List UInt8 :=
  let data := frameToRtmpVideo frame
  if data = [] then [] else generateFlvTag 0x09 timestamp data

/-- `frame_to_flv_audio`. -/
def frameToFlvAudio (frame : MediaFrame) (timestamp : UInt32) : List UInt8 :=
  generateFlvTag 0x08 timestamp (frameToRtmpAudio frame)

/-! ## Sessions -/

/-- `HttpFlvSession`. -/
structure HttpFlvSession where
  /-- The stream. -/
  streamId : StreamId
  /-- The header of the file is sent. -/
  headerSent : Bool
  /-- The metadata is sent. -/
  metadataSent : Bool
  /-- The sequence headers are sent. -/
  sequenceHeaderSent : Bool
  /-- The times of the tags. -/
  timeline : FlvPlayTimeline

/-- The calls that a session is given. -/
inductive FlvCall where
  | generateInitialData (stream : Stream)
  | frameToFlvWithTimestamp (frame : MediaFrame)

namespace HttpFlvSession

/-- `HttpFlvSession::new`. -/
def new (streamId : StreamId) : HttpFlvSession :=
  { streamId, headerSent := false, metadataSent := false, sequenceHeaderSent := false,
    timeline := .new }

/-- The stream has video. -/
def hasVideo (stream : Stream) : Bool := streamHasCodec stream .h264 || streamHasCodec stream .h265

/-- The stream has audio. -/
def hasAudio (stream : Stream) : Bool := streamHasCodec stream .aac

/-- `HttpFlvSession::generate_initial_data`. -/
def generateInitialData (s : HttpFlvSession) (stream : Stream) : HttpFlvSession × List UInt8 :=
  let header := if s.headerSent then [] else generateFlvHeader (hasVideo stream) (hasAudio stream)
  let metadata := if s.metadataSent then [] else generateMetadataTag s.streamId
  let s := { s with headerSent := true, metadataSent := true }
  if s.sequenceHeaderSent then (s, header ++ metadata)
  else
    match stream.sps, stream.pps with
    | some sps, some pps =>
      ({ s with sequenceHeaderSent := true },
        header ++ metadata ++ (if hasVideo stream then generateAvcSequenceHeader sps pps else []) ++
          if hasAudio stream then generateAacSequenceHeader else [])
    | _, _ => (s, header ++ metadata)

/-- `HttpFlvSession::frame_to_flv_with_timestamp`. -/
def frameToFlvWithTimestamp (s : HttpFlvSession) (frame : MediaFrame) :
    Option (HttpFlvSession × List UInt8 × UInt32) :=
  (s.timeline.map frame).map fun (timeline, timestamp) =>
    let data :=
      match frame.codec with
      | .h264 | .h265 => frameToFlvVideo frame timestamp
      | .aac | .opus | .g711 => frameToFlvAudio frame timestamp
      | .unknown => []
    ({ s with timeline }, data, timestamp)

/-- A call, and its bytes. -/
def call (s : HttpFlvSession) : FlvCall → Option (HttpFlvSession × List UInt8)
  | .generateInitialData stream => some (s.generateInitialData stream)
  | .frameToFlvWithTimestamp frame => (s.frameToFlvWithTimestamp frame).map fun (s, data, _) =>
    (s, data)

/-- The bytes of all calls. -/
def output : HttpFlvSession → List FlvCall → Option (List UInt8)
  | _, [] => some []
  | s, c :: cs => (s.call c).bind fun (s, data) => (output s cs).map (data ++ ·)

/-! ## What is emitted -/

/-- The tags of a call of `generate_initial_data` behind the metadata. -/
def sequenceTags (s : HttpFlvSession) (stream : Stream) : List Flv.Tag :=
  if s.sequenceHeaderSent then []
  else
    match stream.sps, stream.pps with
    | some sps, some pps =>
      (if hasVideo stream then [⟨0x09, 0, avcSequenceHeaderData sps pps⟩] else []) ++
        if hasAudio stream then [⟨0x08, 0, aacSequenceHeaderData⟩] else []
    | _, _ => []

/-- The tag of a frame. -/
def frameTags (frame : MediaFrame) (timestamp : UInt32) : List Flv.Tag :=
  match frame.codec with
  | .h264 | .h265 => [⟨0x09, timestamp, frameToRtmpVideo frame⟩]
  | .aac | .opus | .g711 => [⟨0x08, timestamp, frameToRtmpAudio frame⟩]
  | .unknown => []

/-- The tags that a call emits. -/
def tagsOf (s : HttpFlvSession) : FlvCall → List Flv.Tag
  | .generateInitialData stream =>
    (if s.metadataSent then [] else [⟨0x12, 0, metadataData s.streamId⟩]) ++ s.sequenceTags stream
  | .frameToFlvWithTimestamp frame =>
    match s.timeline.map frame with
    | some (_, timestamp) => frameTags frame timestamp
    | none => []

/-- The tags of all calls. -/
def tags : HttpFlvSession → List FlvCall → Option (List Flv.Tag)
  | _, [] => some []
  | s, c :: cs => (s.call c).bind fun next => (tags next.1 cs).map (s.tagsOf c ++ ·)

/-- The times of a call: that of the timeline at a frame, if the frame has a tag. -/
def timesOf (s : HttpFlvSession) : FlvCall → List UInt64
  | .generateInitialData _ => []
  | .frameToFlvWithTimestamp frame =>
    match s.timeline.map frame with
    | some (timeline, _) => if frame.codec = .unknown then [] else [timeline.lastEmitMs]
    | none => []

/-- The times of all calls. -/
def times : HttpFlvSession → List FlvCall → Option (List UInt64)
  | _, [] => some []
  | s, c :: cs => (s.call c).bind fun next => (times next.1 cs).map (s.timesOf c ++ ·)

end HttpFlvSession

/-! ## Bytes -/

theorem toUInt8_low (v : UInt32) : (v &&& 0xFF).toUInt8 = UInt8.ofNat v.toNat := by
  apply UInt8.toNat_inj.mp
  rw [UInt32.toNat_toUInt8, UInt32.toNat_and, show (0xFF : UInt32).toNat = 2 ^ 8 - 1 from rfl,
    Nat.and_two_pow_sub_one_eq_mod, Nat.mod_mod]
  exact UInt8.toNat_ofNat'.symm

/-- A tag is written as the grammar has it. -/
theorem generateFlvTag_eq {data : List UInt8} (h : data.length < 2 ^ 24) (tagType : UInt8)
    (timestamp : UInt32) :
    generateFlvTag tagType timestamp data = (⟨tagType, timestamp, data⟩ : Flv.Tag).bytes := by
  have hsize : (UInt32.ofNat data.length).toNat = data.length :=
    UInt32.toNat_ofNat_of_lt' (Nat.lt_trans h (by decide))
  have hprevious : (11 + UInt32.ofNat data.length).toNat = 11 + data.length := by
    rw [UInt32.toNat_add, hsize]
    exact Nat.mod_eq_of_lt (by rw [show (11 : UInt32).toNat = 11 from rfl]; omega)
  have hshift : ∀ (v : UInt32) (k : UInt32), k.toNat < 32 →
      (v >>> k).toNat = v.toNat / 2 ^ k.toNat := by
    intro v k hk
    rw [UInt32.toNat_shiftRight, Nat.mod_eq_of_lt hk, Nat.shiftRight_eq_div_pow]
  have hbytes : ∀ v :
    UInt32, [(v >>> 16 &&& 0xFF).toUInt8, (v >>> 8 &&& 0xFF).toUInt8, (v &&& 0xFF).toUInt8] =
      toBe 3 v.toNat := by
    intro v
    rw [toUInt8_low, toUInt8_low, toUInt8_low, hshift v 16 (by decide), hshift v 8 (by decide)]
    simp only [toBe, List.nil_append, List.cons_append, Nat.div_div_eq_div_mul]
    rfl
  have htime : ∀ v : UInt32, [(v >>> 24 &&& 0xFF).toUInt8] = toBe 1 (v.toNat / 256 ^ 3) := by
    intro v
    rw [toUInt8_low, hshift v 24 (by decide)]
    rfl
  have htimestamp : [(timestamp >>> 16 &&& 0xFF).toUInt8, (timestamp >>> 8 &&& 0xFF).toUInt8,
      (timestamp &&& 0xFF).toUInt8, (timestamp >>> 24 &&& 0xFF).toUInt8] =
      toBe 3 timestamp.toNat ++ toBe 1 (timestamp.toNat / 256 ^ 3) := by
    rw [← hbytes, ← htime]
    rfl
  rw [generateFlvTag, hbytes, htimestamp, hprevious, hsize, Flv.Tag.bytes]
  simp only [List.append_assoc, List.cons_append, List.nil_append]

namespace HttpFlvSession

variable {s s' : HttpFlvSession} {data : List UInt8}

theorem generateFlvHeader_eq (hasVideo hasAudio : Bool) :
    generateFlvHeader hasVideo hasAudio = Flv.header (flvFlags hasVideo hasAudio) := rfl

/-- The initial data are its tags, behind the header if that is not sent. -/
theorem generateInitialData_eq (s : HttpFlvSession) (stream : Stream)
    (h : ∀ tag ∈ s.tagsOf (.generateInitialData stream), tag.payload.length < 2 ^ 24) :
    (s.generateInitialData stream).2 =
      (if s.headerSent then [] else Flv.header (flvFlags (hasVideo stream) (hasAudio stream))) ++
        (s.tagsOf (.generateInitialData stream)).flatMap Flv.Tag.bytes := by
  rw [tagsOf, List.forall_mem_append] at h
  obtain ⟨hmetadata, hsequence⟩ := h
  have hmetadataBytes : (if s.metadataSent then [] else generateMetadataTag s.streamId) =
      (if s.metadataSent then [] else [⟨0x12, 0, metadataData s.streamId⟩] : List Flv.Tag).flatMap
          Flv.Tag.bytes := by
    cases hsent : s.metadataSent with
    | true => rfl
    | false =>
      rw [hsent] at hmetadata
      have hsize := hmetadata _ (List.mem_singleton_self _)
      rw [generateMetadataTag, generateFlvTag_eq hsize]
      exact (List.append_nil _).symm
  have haac : (if hasAudio stream then generateAacSequenceHeader else []) =
      (if hasAudio stream then [⟨0x08, 0, aacSequenceHeaderData⟩] else [] : List Flv.Tag).flatMap
          Flv.Tag.bytes := by
    rw [generateAacSequenceHeader, generateFlvTag_eq (by decide)]
    split
    · exact (List.append_nil _).symm
    · rfl
  rw [generateInitialData, tagsOf, List.flatMap_append, ← hmetadataBytes, sequenceTags]
  rw [sequenceTags] at hsequence
  dsimp only
  cases hsent : s.sequenceHeaderSent with
  | true => simp [generateFlvHeader_eq]
  | false =>
    rw [hsent] at hsequence
    simp only [Bool.false_eq_true, if_false] at hsequence ⊢
    cases hsps : stream.sps with
    | none => simp [generateFlvHeader_eq]
    | some sps =>
      cases hpps : stream.pps with
      | none => simp [generateFlvHeader_eq]
      | some pps =>
        rw [hsps, hpps] at hsequence
        have havc : (if hasVideo stream then generateAvcSequenceHeader sps pps else []) =
            (if hasVideo stream then [⟨0x09, 0, avcSequenceHeaderData sps pps⟩]
              else [] : List Flv.Tag).flatMap
              Flv.Tag.bytes := by
          split
          · next hvideo =>
            have hsize :=
              hsequence ⟨0x09, 0, avcSequenceHeaderData sps pps⟩
              (List.mem_append_left _ (by simp [hvideo]))
            rw [generateAvcSequenceHeader, generateFlvTag_eq hsize]
            exact (List.append_nil _).symm
          · rfl
        dsimp only
        rw [List.flatMap_append, ← havc, ← haac, generateFlvHeader_eq, List.append_assoc,
          List.append_assoc]

/-! ## Kinds of tags -/

/-- The metadata. -/
def isMetadata (tag : Flv.Tag) : Bool := tag.tagType = 0x12

/-- A sequence header of video. -/
def isAvcSequenceHeader (tag : Flv.Tag) : Bool := tag.tagType = 0x09 && tag.payload[1]? = some 0x00

/-- A sequence header of audio. -/
def isAacSequenceHeader (tag : Flv.Tag) : Bool := tag.tagType = 0x08 && tag.payload[1]? = some 0x00

/-- A tag of media. -/
def isMediaTag (tag : Flv.Tag) : Bool :=
  (tag.tagType = 0x08 || tag.tagType = 0x09) && tag.payload[1]? = some 0x01

/-- A tag has the lower half of a time. -/
def HasTime (tag : Flv.Tag) (ms : UInt64) : Prop := tag.timestamp.toNat = ms.toNat % 2 ^ 32

/-- What may still be sent once. -/
def unsent (sent : Bool) : ℕ := if sent then 0 else 1

/-- A session that has emitted `tags` on its way from one state to another, its media at `times`:
what is sent once is sent once at most, and the times rise. -/
structure EmitsTags (s s' : HttpFlvSession) (tags : List Flv.Tag) (times : List UInt64) : Prop where
  types : ∀ tag ∈ tags, tag.tagType ∈ Flv.tagTypes
  metadata : tags.countP isMetadata + unsent s'.metadataSent ≤ unsent s.metadataSent
  avc : tags.countP isAvcSequenceHeader + unsent s'.sequenceHeaderSent ≤ unsent s.sequenceHeaderSent
  aac : tags.countP isAacSequenceHeader + unsent s'.sequenceHeaderSent ≤ unsent s.sequenceHeaderSent
  le : s.timeline.lastEmitMs ≤ s'.timeline.lastEmitMs
  rises : times.Pairwise (· ≤ ·)
  within : ∀ ms ∈ times, s.timeline.lastEmitMs ≤ ms ∧ ms ≤ s'.timeline.lastEmitMs
  stamped : List.Forall₂ HasTime (tags.filter isMediaTag) times

theorem EmitsTags.refl (s : HttpFlvSession) : EmitsTags s s [] [] where
  types := nofun
  metadata := Nat.le_of_eq (Nat.zero_add _)
  avc := Nat.le_of_eq (Nat.zero_add _)
  aac := Nat.le_of_eq (Nat.zero_add _)
  le := UInt64.le_refl _
  rises := .nil
  within := nofun
  stamped := .nil

/-- Tags without media. -/
theorem EmitsTags.of_silent {tags : List Flv.Tag} (htimeline : s'.timeline = s.timeline)
    (htypes : ∀ tag ∈ tags, tag.tagType ∈ Flv.tagTypes)
    (hmetadata : tags.countP isMetadata + unsent s'.metadataSent ≤ unsent s.metadataSent)
    (havc : tags.countP isAvcSequenceHeader + unsent s'.sequenceHeaderSent ≤
      unsent s.sequenceHeaderSent)
    (haac : tags.countP isAacSequenceHeader + unsent s'.sequenceHeaderSent ≤
      unsent s.sequenceHeaderSent)
    (hmedia : tags.filter isMediaTag = []) : EmitsTags s s' tags [] := by
  refine ⟨htypes, hmetadata, havc, haac, ?_, .nil, nofun, ?_⟩
  · rw [htimeline]
    exact UInt64.le_refl _
  · rw [hmedia]
    exact .nil

/-- One after the other. -/
theorem EmitsTags.append {s₁ s₂ s₃ : HttpFlvSession} {tags tags' : List Flv.Tag}
    {times times' : List UInt64} (h : EmitsTags s₁ s₂ tags times)
    (h' : EmitsTags s₂ s₃ tags' times') :
    EmitsTags s₁ s₃ (tags ++ tags') (times ++ times') := by
  have hmetadata := h.metadata
  have hmetadata' := h'.metadata
  have havc := h.avc
  have havc' := h'.avc
  have haac := h.aac
  have haac' := h'.aac
  refine ⟨List.forall_mem_append.mpr ⟨h.types, h'.types⟩, ?_, ?_, ?_, UInt64.le_trans h.le h'.le,
    ?_, ?_, ?_⟩
  · rw [List.countP_append]
    omega
  · rw [List.countP_append]
    omega
  · rw [List.countP_append]
    omega
  · refine List.pairwise_append.mpr ⟨h.rises, h'.rises, fun ms hms ms' hms' => ?_⟩
    exact UInt64.le_trans (h.within ms hms).2 (h'.within ms' hms').1
  · intro ms hms
    rcases List.mem_append.mp hms with hms | hms
    · exact ⟨(h.within ms hms).1, UInt64.le_trans (h.within ms hms).2 h'.le⟩
    · exact ⟨UInt64.le_trans h.le (h'.within ms hms).1, (h'.within ms hms).2⟩
  · rw [List.filter_append]
    exact List.rel_append h.stamped h'.stamped

theorem generateInitialData_state (s : HttpFlvSession) (stream : Stream) :
    (s.generateInitialData stream).1 = { s with
      headerSent := true
      metadataSent := true
      sequenceHeaderSent := s.sequenceHeaderSent || stream.sps.isSome && stream.pps.isSome } := by
  rw [generateInitialData]
  cases hsent : s.sequenceHeaderSent with
  | true => rw [if_pos rfl, Bool.true_or]
  | false => cases stream.sps <;> cases stream.pps <;> rfl

/-- What a call of `generate_initial_data` emits. -/
theorem emitsTags_generateInitialData (s : HttpFlvSession) (stream : Stream) :
    EmitsTags s (s.generateInitialData stream).1 (s.tagsOf (.generateInitialData stream)) [] := by
  have hmetadata : EmitsTags s { s with headerSent := true, metadataSent := true }
      (if s.metadataSent then [] else [⟨0x12, 0, metadataData s.streamId⟩]) [] := by
    have htype : (0x12 : UInt8) ∈ Flv.tagTypes := by decide
    cases hsent : s.metadataSent with
    | true =>
      refine .of_silent rfl nofun ?_ (Nat.le_of_eq (Nat.zero_add _))
        (Nat.le_of_eq (Nat.zero_add _)) rfl
      rw [hsent]
      exact Nat.le_refl _
    | false =>
      refine .of_silent rfl (List.forall_mem_singleton.mpr htype) ?_ (Nat.le_of_eq (Nat.zero_add _))
        (Nat.le_of_eq (Nat.zero_add _)) rfl
      rw [hsent]
      exact Nat.le_refl _
  have hsequence : EmitsTags { s with headerSent := true, metadataSent := true }
    (s.generateInitialData stream).1
      (s.sequenceTags stream) [] := by
    rw [generateInitialData_state, sequenceTags]
    cases hsent : s.sequenceHeaderSent with
    | true => exact .of_silent rfl nofun (Nat.le_refl _) (Nat.le_refl _) (Nat.le_refl _) rfl
    | false =>
      -- at most one tag of each kind, and only when both parameter sets are there
      have hkinds : ∀ (video audio : Bool) (sps pps : List UInt8),
          EmitsTags { s with headerSent := true, metadataSent := true, sequenceHeaderSent := false }
            { s with headerSent := true, metadataSent := true, sequenceHeaderSent := true }
            ((if video then [⟨0x09, 0, avcSequenceHeaderData sps pps⟩] else []) ++
              if audio then [⟨0x08, 0, aacSequenceHeaderData⟩] else []) [] := by
        intro video audio sps pps
        have havc : (avcSequenceHeaderData sps pps)[1]? = some 0x00 := rfl
        have haac : aacSequenceHeaderData[1]? = some 0x00 := rfl
        cases video <;> cases audio <;>
          refine .of_silent rfl ?_ (Nat.le_of_eq (Nat.zero_add _)) ?_ ?_ ?_ <;>
          simp [Flv.tagTypes, isAvcSequenceHeader, isAacSequenceHeader, isMediaTag, unsent, havc,
            haac]
      have hnone :
        EmitsTags { s with headerSent := true, metadataSent := true, sequenceHeaderSent := false }
          { s with headerSent := true, metadataSent := true, sequenceHeaderSent := false } [] [] :=
            .refl _
      cases stream.sps with
      | none => exact hnone
      | some sps =>
        cases stream.pps with
        | none => exact hnone
        | some pps => exact hkinds _ _ sps pps
  exact hmetadata.append hsequence

/-- What a frame emits: its tag, at a time that is not before the last one. -/
theorem emitsTags_frame {frame : MediaFrame} {timestamp : UInt32}
    (h : s.frameToFlvWithTimestamp frame = some (s', data, timestamp)) :
    EmitsTags s s' (s.tagsOf (.frameToFlvWithTimestamp frame))
        (s.timesOf (.frameToFlvWithTimestamp frame)) := by
  obtain ⟨⟨timeline, time⟩, hmap, heq⟩ := Option.map_eq_some_iff.mp h
  obtain ⟨rfl, -⟩ := Prod.mk.inj heq
  have hmaps := FlvPlayTimeline.maps_of_map hmap
  rw [tagsOf, timesOf, hmap]
  dsimp only
  have htypes : ∀ tagType : UInt8, tagType = 0x09 ∨ tagType = 0x08 → tagType ∈ Flv.tagTypes := by
    rintro tagType (rfl | rfl) <;> decide
  -- a tag of media with the time of the timeline, or none
  have htag : ∀ tag : Flv.Tag, tag.tagType = 0x09 ∨ tag.tagType = 0x08 →
    tag.payload[1]? = some 0x01 →
      tag.timestamp = time → EmitsTags s { s with timeline } [tag] [timeline.lastEmitMs] := by
    rintro ⟨tagType, timestamp, payload⟩ htype hpayload rfl
    dsimp only at htype hpayload
    refine ⟨?_, ?_, ?_, ?_, hmaps.le, List.pairwise_singleton _ _, ?_, ?_⟩
    · exact List.forall_mem_singleton.mpr (htypes _ htype)
    · rcases htype with rfl | rfl <;> exact Nat.le_of_eq (Nat.zero_add _)
    · rcases htype with rfl | rfl <;> simp [isAvcSequenceHeader, hpayload]
    · rcases htype with rfl | rfl <;> simp [isAacSequenceHeader, hpayload]
    · exact List.forall_mem_singleton.mpr ⟨hmaps.le, UInt64.le_refl _⟩
    · have hmedia : isMediaTag ⟨tagType, timestamp, payload⟩ = true := by
        rcases htype with rfl | rfl <;> simp [isMediaTag, hpayload]
      rw [List.filter_cons_of_pos hmedia]
      exact .cons hmaps.low .nil
  rw [frameTags]
  cases frame.codec with
  | h264 | h265 => exact htag _ (.inl rfl) rfl rfl
  | aac | opus | g711 => exact htag _ (.inr rfl) rfl rfl
  | unknown =>
    exact ⟨nofun, Nat.le_of_eq (Nat.zero_add _), Nat.le_of_eq (Nat.zero_add _),
      Nat.le_of_eq (Nat.zero_add _), hmaps.le, .nil, nofun, .nil⟩

/-- The bytes of a frame are those of its tag. -/
theorem frameToFlvWithTimestamp_eq {frame : MediaFrame} {timestamp : UInt32}
    (h : s.frameToFlvWithTimestamp frame = some (s', data, timestamp))
    (hsize : ∀ tag ∈ s.tagsOf (.frameToFlvWithTimestamp frame), tag.payload.length < 2 ^ 24) :
    data = (s.tagsOf (.frameToFlvWithTimestamp frame)).flatMap Flv.Tag.bytes := by
  obtain ⟨⟨timeline, time⟩, hmap, heq⟩ := Option.map_eq_some_iff.mp h
  obtain ⟨-, hdata⟩ := Prod.mk.inj heq
  obtain ⟨rfl, rfl⟩ := Prod.mk.inj hdata
  rw [tagsOf, hmap] at hsize ⊢
  dsimp only at hsize ⊢
  rw [frameTags] at hsize ⊢
  have hvideo : frameToRtmpVideo frame ≠ [] := by
    rw [frameToRtmpVideo]
    exact List.cons_ne_nil _ _
  cases hcodec : frame.codec with
  | h264 | h265 =>
    rw [hcodec] at hsize
    have hlen := hsize _ (List.mem_singleton_self _)
    dsimp only
    rw [frameToFlvVideo, if_neg hvideo, generateFlvTag_eq hlen]
    exact (List.append_nil _).symm
  | aac | opus | g711 =>
    rw [hcodec] at hsize
    have hlen := hsize _ (List.mem_singleton_self _)
    dsimp only
    rw [frameToFlvAudio, generateFlvTag_eq hlen]
    exact (List.append_nil _).symm
  | unknown => rfl

/-! ## Runs -/

/-- A call behind the header writes its tags. -/
theorem exists_call {c : FlvCall}
    (hclock : ∀ frame, c = .frameToFlvWithTimestamp frame → frame.clockRate ≠ some 0)
    (hsent : s.headerSent = true) :
    ∃ s' data, s.call c = some (s', data) ∧ s'.headerSent = true ∧ EmitsTags s s' (s.tagsOf c)
      (s.timesOf c) ∧
      ((∀ tag ∈ s.tagsOf c, tag.payload.length < 2 ^ 24) →
          data = (s.tagsOf c).flatMap Flv.Tag.bytes) := by
  cases c with
  | generateInitialData stream =>
    refine ⟨(s.generateInitialData stream).1, (s.generateInitialData stream).2, rfl, ?_,
      emitsTags_generateInitialData s stream, fun hsize => ?_⟩
    · rw [generateInitialData_state]
    · rw [generateInitialData_eq s stream hsize, if_pos hsent, List.nil_append]
  | frameToFlvWithTimestamp frame =>
    have hsome : (s.frameToFlvWithTimestamp frame).isSome := by
      rw [frameToFlvWithTimestamp, Option.isSome_map]
      exact FlvPlayTimeline.map_isSome (hclock frame rfl) s.timeline
    obtain ⟨⟨s', data, timestamp⟩, hframe⟩ := Option.isSome_iff_exists.mp hsome
    have hnext : s'.headerSent = s.headerSent := by
      obtain ⟨r, -, heq⟩ := Option.map_eq_some_iff.mp hframe
      rw [← (Prod.mk.inj heq).1]
    refine ⟨s', data, ?_, hnext.trans hsent, emitsTags_frame hframe,
      frameToFlvWithTimestamp_eq hframe⟩
    rw [call, hframe, Option.map_some]

/-- A run behind the header writes its tags. -/
theorem exists_output {calls : List FlvCall}
    (hclock : ∀ frame, .frameToFlvWithTimestamp frame ∈ calls → frame.clockRate ≠ some 0)
    (hsent : s.headerSent = true) :
    ∃ s' ts times, s.tags calls = some ts ∧ s.times calls = some times ∧ EmitsTags s s' ts times ∧
      ((∀ tag ∈ ts, tag.payload.length < 2 ^ 24) →
          s.output calls = some (ts.flatMap Flv.Tag.bytes)) := by
  induction calls generalizing s with
  | nil => exact ⟨s, [], [], rfl, rfl, .refl s, fun _ => rfl⟩
  | cons c calls ih =>
    obtain ⟨s₁, data, hcall, hsent₁, hemits, hbytes⟩ :=
      exists_call (fun frame hc => hclock frame (hc ▸ List.mem_cons_self)) hsent
    obtain ⟨s₂, ts, times, htags, htimes, hemits', houtput⟩ :=
      ih (fun frame hc => hclock frame (List.mem_cons_of_mem c hc)) hsent₁
    refine ⟨s₂, s.tagsOf c ++ ts, s.timesOf c ++ times, ?_, ?_, hemits.append hemits',
      fun hsize => ?_⟩
    · rw [tags, hcall, Option.bind_some, htags, Option.map_some]
    · rw [HttpFlvSession.times, hcall, Option.bind_some, htimes, Option.map_some]
    · obtain ⟨hsize, hrest⟩ := List.forall_mem_append.mp hsize
      rw [output, hcall, Option.bind_some]
      dsimp only
      rw [houtput hrest, Option.map_some, hbytes hsize, List.flatMap_append]

/-- Tags of which the metadata and the sequence headers come once at most, and whose media have the
lower halves of `times`: times that never decrease, so that the timestamps do not either **until
they wrap**. -/
structure InOrder (tags : List Flv.Tag) (times : List UInt64) : Prop where
  metadata : tags.countP isMetadata ≤ 1
  avc : tags.countP isAvcSequenceHeader ≤ 1
  aac : tags.countP isAacSequenceHeader ≤ 1
  rises : times.Pairwise (· ≤ ·)
  stamped : List.Forall₂ HasTime (tags.filter isMediaTag) times
  untilWrap : ((tags.filter isMediaTag).zip times).Pairwise fun a b =>
    a.2.toNat / 2 ^ 32 = b.2.toNat / 2 ^ 32 → a.1.timestamp ≤ b.1.timestamp

/-- Between two times that the upper half does not tell apart, the lower half rises. -/
theorem timestamp_le_timestamp {tag tag' : Flv.Tag} {ms ms' : UInt64} (h : HasTime tag ms)
    (h' : HasTime tag' ms') (hle : ms ≤ ms') (hupper : ms.toNat / 2 ^ 32 = ms'.toNat / 2 ^ 32) :
    tag.timestamp ≤ tag'.timestamp := by
  rw [HasTime] at h h'
  rw [UInt64.le_iff_toNat_le] at hle
  rw [UInt32.le_iff_toNat_le, h, h']
  omega

/-- Tags with the lower halves of rising times rise until they wrap. -/
theorem pairwise_untilWrap {tags : List Flv.Tag} {times : List UInt64}
    (hrises : times.Pairwise (· ≤ ·)) (hstamped : List.Forall₂ HasTime tags times) :
    (tags.zip times).Pairwise fun a b => a.2.toNat / 2 ^ 32 = b.2.toNat / 2 ^ 32 →
        a.1.timestamp ≤ b.1.timestamp := by
  induction hstamped with
  | nil => exact .nil
  | @cons tag ms tags times htag hstamped ih =>
    obtain ⟨hfirst, hrest⟩ := List.pairwise_cons.mp hrises
    refine List.pairwise_cons.mpr ⟨fun next hnext => ?_, ih hrest⟩
    have htime : HasTime next.1 next.2 := (List.forall₂_iff_zip.mp hstamped).2 hnext
    exact timestamp_le_timestamp htag htime (hfirst next.2 (List.of_mem_zip hnext).2)

/-- What is emitted from the start on is in order. -/
theorem EmitsTags.inOrder {streamId : StreamId} {tags : List Flv.Tag} {times : List UInt64}
    (h : EmitsTags (new streamId) s' tags times) : InOrder tags times where
  metadata := Nat.le_trans (Nat.le_add_right _ _) h.metadata
  avc := Nat.le_trans (Nat.le_add_right _ _) h.avc
  aac := Nat.le_trans (Nat.le_add_right _ _) h.aac
  rises := h.rises
  stamped := h.stamped
  untilWrap := pairwise_untilWrap h.rises h.stamped

/-- A session that **begins with its initial data** is an FLV file: one header, and the tags
emitted, in the order of the times of its timeline. -/
theorem parseFile_output (streamId : StreamId) (stream : Stream) {calls : List FlvCall}
    (hclock : ∀ frame, .frameToFlvWithTimestamp frame ∈ calls → frame.clockRate ≠ some 0)
    (hsize : ∀ ts, (new streamId).tags (.generateInitialData stream :: calls) = some ts →
      ∀ tag ∈ ts, tag.payload.length < 2 ^ 24) :
    ∃ data ts times, (new streamId).output (.generateInitialData stream :: calls) = some data ∧
      (new streamId).tags (.generateInitialData stream :: calls) = some ts ∧
      (new streamId).times (.generateInitialData stream :: calls) = some times ∧
      Flv.parseFile data = some (flvFlags (hasVideo stream) (hasAudio stream), ts) ∧
          InOrder ts times := by
  have hfirst := emitsTags_generateInitialData (new streamId) stream
  have hsent : ((new streamId).generateInitialData stream).1.headerSent =
    true := by rw [generateInitialData_state]
  obtain ⟨s', ts, times, htags, htimes, hemits, houtput⟩ := exists_output hclock hsent
  have hall : (new streamId).tags (.generateInitialData stream :: calls) =
      some ((new streamId).tagsOf (.generateInitialData stream) ++ ts) := by
    rw [tags, call, Option.bind_some, htags, Option.map_some]
  have hallTimes : (new streamId).times (.generateInitialData stream :: calls) = some times := by
    rw [HttpFlvSession.times, call, Option.bind_some, htimes, Option.map_some]
    rfl
  have hsizes := hsize _ hall
  obtain ⟨hsizeFirst, hsizeRest⟩ := List.forall_mem_append.mp hsizes
  have hdata : (new streamId).output (.generateInitialData stream :: calls) =
      some (Flv.header (flvFlags (hasVideo stream) (hasAudio stream)) ++
        ((new streamId).tagsOf (.generateInitialData stream) ++ ts).flatMap Flv.Tag.bytes) := by
    rw [output, call, Option.bind_some]
    dsimp only
    rw [houtput hsizeRest, Option.map_some, generateInitialData_eq _ stream hsizeFirst,
      List.flatMap_append, ← List.append_assoc]
    rfl
  have hrun :
      EmitsTags (new streamId) s' ((new streamId).tagsOf (.generateInitialData stream) ++ ts)
      times :=
    hfirst.append hemits
  have hflags : ∀ video audio, flvFlags video audio &&& 0xFA = 0 := by decide
  refine ⟨_, _, _, hdata, hall, hallTimes, Flv.parseFile_bytes (hflags _ _) ?_, hrun.inOrder⟩
  exact fun tag htag => ⟨hrun.types tag htag, hsizes tag htag⟩

/-- A stream of video with its parameter sets. -/
def flvStream : Stream :=
  { id := "cam", tracks := [⟨0, .h264, 96, 90000⟩], status := .publishing, playbackStatus := .idle,
    source := .push, protocol := .rtmp, pullUrl := none
    sps := some [0x67, 0x42, 0x00, 0x1F], pps := some [0x68, 0xCE] }

/-- A key frame of it. -/
def flvFrame : MediaFrame :=
  (MediaFrame.new "cam" 0 0 [0x00, 0x00, 0x00, 0x01, 0x65] true .h264).withClockRate
    VIDEO_RTP_CLOCK_RATE

/-- A frame behind it. -/
def flvSlice : MediaFrame :=
  (MediaFrame.new "cam" 0 3600 [0x00, 0x00, 0x00, 0x01, 0x41] false .h264).withClockRate
    VIDEO_RTP_CLOCK_RATE

/-- The calls of a short file. -/
def flvCalls : List FlvCall :=
  [.frameToFlvWithTimestamp flvFrame, .frameToFlvWithTimestamp flvSlice]

theorem parseFile_output_two :
    (∀ frame, .frameToFlvWithTimestamp frame ∈ flvCalls → frame.clockRate ≠ some 0) ∧
    (∀ ts, (new "cam").tags (.generateInitialData flvStream :: flvCalls) = some ts →
      ∀ tag ∈ ts, tag.payload.length < 2 ^ 24) ∧
    (new "cam").times (.generateInitialData flvStream :: flvCalls) = some [0, 40] ∧
    ∃ data ts times, (new "cam").output (.generateInitialData flvStream :: flvCalls) = some data ∧
      (new "cam").tags (.generateInitialData flvStream :: flvCalls) = some ts ∧
      (new "cam").times (.generateInitialData flvStream :: flvCalls) = some times ∧
      Flv.parseFile data = some (flvFlags true false, ts) ∧ InOrder ts times := by
  have hclock : ∀ frame, .frameToFlvWithTimestamp frame ∈ flvCalls → frame.clockRate ≠ some 0 := by
    intro frame hframe
    rcases List.mem_cons.mp hframe with heq | hframe
    · obtain rfl := FlvCall.frameToFlvWithTimestamp.inj heq
      decide
    · obtain rfl := FlvCall.frameToFlvWithTimestamp.inj (List.mem_singleton.mp hframe)
      decide
  have hsize : ∀ ts, (new "cam").tags (.generateInitialData flvStream :: flvCalls) = some ts →
      ∀ tag ∈ ts, tag.payload.length < 2 ^ 24 := by
    rintro ts hts
    obtain rfl := Option.some.inj hts
    decide
  have htimes : (new "cam").times (.generateInitialData flvStream :: flvCalls) =
    some [0, 40] := by decide
  exact ⟨hclock, hsize, htimes, parseFile_output "cam" flvStream hclock hsize⟩

/-- A frame in front of the initial data is **in front of the header**. -/
theorem not_parseFile_frame_first : ∃ data,
    (new "cam").output [.frameToFlvWithTimestamp flvFrame, .generateInitialData flvStream] =
      some data ∧
      Flv.parseFile data = none := by
  obtain ⟨rest, hrest⟩ : ∃ rest,
      (new "cam").output [.frameToFlvWithTimestamp flvFrame, .generateInitialData flvStream] =
        some (0x09 :: rest) := ⟨_, rfl⟩
  exact ⟨_, hrest, Flv.parseFile_of_ne (by decide) rest⟩

end HttpFlvSession

end VcpMediaServer
