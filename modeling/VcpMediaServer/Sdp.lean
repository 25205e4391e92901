import VcpMediaServer.StreamManager
import VcpMediaServer.Text

/-!
# SDP

The description of a stream that the RTSP server writes, and the two readers of such descriptions. A
parameter of `a=fmtp` is one of a list that **semicolons** separate; the reader of the puller takes
the list apart, the reader of `ANNOUNCE` does not.

* `buildSdp` — the writer.
* `parseSdpWithSpsPps` — the reader of `ANNOUNCE`, which also collects the tracks.
* `parseSpropParameterSets` — the reader of the puller.
-/

namespace VcpMediaServer

/-- The engine `STANDARD` of the base64 crate. -/
structure Base64Engine where
  /-- `encode`. -/
  encode : List UInt8 → List Char
  /-- `decode`; `none` is an error. -/
  decode : List Char → Option (List UInt8)

/-! ## Writing -/

/-- Lines, each with its line end. -/
def sdpText (lines : List (List Char)) : List Char := lines.flatMap fun line => line ++ ['\r', '\n']

/-- A number in decimal. -/
def decimal (n : ℕ) : List Char := Nat.toDigits 10 n

/-- `{:02X}`. -/
def hexByte (b : UInt8) : List Char :=
  [Nat.digitChar (b.toNat / 16), Nat.digitChar (b.toNat % 16)].map Char.toUpper

/-- The profile and the level, from the bytes behind the NAL header. -/
def profileLevelId (sps : List UInt8) : List Char :=
  if 4 ≤ sps.length then hexByte (sps.getD 1 0) ++ hexByte (sps.getD 2 0) ++ hexByte (sps.getD 3 0)
  else "42E01F".toList

/-- The parameter sets of a stream, where it has them. -/
abbrev ParameterSets := Option (List UInt8) × Option (List UInt8)

/-- `h264_fmtp`. -/
def h264Fmtp (b64 : Base64Engine) (sets : ParameterSets) (payloadType : UInt8) : List Char :=
  match sets with
  | (some sps, some pps) =>
    "a=fmtp:".toList ++ decimal payloadType.toNat ++
      " packetization-mode=1;profile-level-id=".toList ++
      profileLevelId sps ++ ";sprop-parameter-sets=".toList ++ b64.encode sps ++ ",".toList ++
        b64.encode pps
  | _ =>
    "a=fmtp:".toList ++ decimal payloadType.toNat ++
      (" packetization-mode=1;profile-level-id=42E01F;" ++
      "sprop-parameter-sets=Z0LAHukBQBbsAAADAAQAAAMABAAAAwHNgYI=").toList

/-- The parameters of AAC. -/
def aacFmtp (payloadType : UInt8) : List Char :=
  "a=fmtp:".toList ++ decimal payloadType.toNat ++
    " profile-level-id=1;mode=AAC-hbr;sizelength=13;indexlength=3;indexdeltalength=3;".toList

/-- The type of the media, the name of the codec and the clock rate. -/
def sdpMedia : CodecType → List Char × List Char × ℕ
  | .h264 => ("video".toList, "H264".toList, 90000)
  | .h265 => ("video".toList, "H265".toList, 90000)
  | .aac => ("audio".toList, "mpeg4-generic".toList, 44100)
  | .opus => ("audio".toList, "opus".toList, 48000)
  | .g711 => ("audio".toList, "PCMU".toList, 8000)
  | .unknown => ("video".toList, "H264".toList, 90000)

/-- The lines of a track. -/
def trackLines (b64 : Base64Engine) (sets : ParameterSets) (track : Track) (idx : ℕ) :
    List (List Char) :=
  let (mediaType, codecName, clockRate) := sdpMedia track.codec
  [ "m=".toList ++ mediaType ++ " 0 RTP/AVP ".toList ++ decimal track.payloadType.toNat,
    "c=IN IP4 0.0.0.0".toList,
    "a=rtpmap:".toList ++ decimal track.payloadType.toNat ++ " ".toList ++ codecName ++
      "/".toList ++ decimal clockRate,
    "a=control:trackID=".toList ++ decimal idx ] ++
  if track.codec = .h264 then [h264Fmtp b64 sets track.payloadType]
  else if track.codec = .aac then [aacFmtp track.payloadType]
  else []

/-- The lines of a stream that is not there. -/
def missingStreamLines (b64 : Base64Engine) : List (List Char) :=
  [ "m=video 0 RTP/AVP 96".toList, "c=IN IP4 0.0.0.0".toList, "a=rtpmap:96 H264/90000".toList,
    "a=control:trackID=0".toList, h264Fmtp b64 (none, none) 96, "m=audio 0 RTP/AVP 97".toList,
    "c=IN IP4 0.0.0.0".toList, "a=rtpmap:97 mpeg4-generic/44100/2".toList,
      "a=control:trackID=1".toList,
    aacFmtp 97 ]

/-- The lines in front of the media. -/
def sessionLines (streamId : StreamId) : List (List Char) :=
  [ "v=0".toList, "o=- 0 0 IN IP4 127.0.0.1".toList,
    "s=MediaServer Session: ".toList ++ streamId.toList, "t=0 0".toList ]

/-- The lines of the media of a stream. -/
def mediaLines (b64 : Base64Engine) (stream : Stream) : List (List Char) :=
  let tracks := if stream.tracks = [] then defaultLiveTracks else stream.tracks
  tracks.zipIdx.flatMap fun (track, idx) => trackLines b64 (stream.sps, stream.pps) track idx

/-- `RtspServer::build_sdp`. -/
def buildSdp (b64 : Base64Engine) (m : StreamManager) (streamId : StreamId) : List Char :=
  sdpText (sessionLines streamId ++
    match m.getStream streamId with
    | some stream => mediaLines b64 stream
    | none => missingStreamLines b64)

/-! ## The reader of `ANNOUNCE` -/

/-- The name of the parameter, with the sign behind it. -/
def SPROP : List Char := "sprop-parameter-sets=".toList

/-- The type of a NAL unit. -/
def sdpNalType (nal : List UInt8) : UInt8 := nal.getD 0 0 &&& 0x1F

/-- A parameter set that was decoded: it is kept if it is the first of its type. -/
def announceSet (sets : ParameterSets) (decoded : List UInt8) : ParameterSets :=
  if 2 ≤ decoded.length then
    if sdpNalType decoded = 7 ∧ sets.1 = none then (some decoded, sets.2)
    else if sdpNalType decoded = 8 ∧ sets.2 = none then (sets.1, some decoded)
    else sets
  else sets

/-- The value of the parameter: parameter sets with commas between them. -/
def announceParams (b64 : Base64Engine) (sets : ParameterSets) (params : List Char) :
    ParameterSets :=
  (params.splitOn ',').foldl (fun sets param =>
    if param = [] then sets
    else
      match b64.decode param with
      | some decoded => announceSet sets decoded
      | none => sets) sets

/-- A word of a line: it is looked at if it **begins** with the parameter. -/
def announcePart (b64 : Base64Engine) (sets : ParameterSets) (part : List Char) : ParameterSets :=
  match Text.stripPrefix SPROP part with
  | some params => announceParams b64 sets (Text.trimEndMatches ';' params)
  | none => sets

/-- A line of parameters, word by word. -/
def announceFmtp (b64 : Base64Engine) (sets : ParameterSets) (line : List Char) : ParameterSets :=
  (Text.splitWhitespace line).foldl (announcePart b64) sets

/-- The codec of a name in `a=rtpmap`. -/
def codecOfName (name : List Char) : CodecType :=
  if name = "h264".toList then .h264
  else if name = "h265".toList then .h265
  else if name = "mpeg4-generic".toList ∨ name = "aac".toList then .aac
  else if name = "opus".toList then .opus
  else if name = "pcmu".toList then .g711
  else .h264

/-- What an `a=rtpmap` line says of the media, if it is one. -/
def rtpmap (line : List Char) : Option (CodecType × UInt32) :=
  match (Text.splitWhitespace line)[1]? with
  | none => none
  | some codecInfo =>
    match codecInfo.splitOn '/' with
    | name :: rate :: _ =>
      some (codecOfName (name.map Char.toLower),
        ((Text.parseUnsigned (2 ^ 32) rate).map UInt32.ofNat).getD 90000)
    | _ => none

/-- Where the reader is: what it has found, and the media it is in the lines of. -/
structure SdpScan where
  /-- The tracks. -/
  tracks : List Track
  /-- The parameter sets. -/
  sets : ParameterSets
  /-- The payload type, the codec and the clock rate of the media, inside of its loop. -/
  media : Option (UInt8 × CodecType × UInt32)

namespace SdpScan

/-- The loop of the media ends. -/
def close (s : SdpScan) : SdpScan :=
  match s.media with
  | none => s
  | some (payloadType, codec, clockRate) =>
    { s with
      tracks := s.tracks ++ [{ id := UInt8.ofNat s.tracks.length, codec, payloadType, clockRate }]
      media := none }

/-- A line of the outer loop. -/
def outer (b64 : Base64Engine) (s : SdpScan) (line : List Char) : SdpScan :=
  if "a=fmtp:".toList.isPrefixOf line then { s with sets := announceFmtp b64 s.sets line }
  else if "m=".toList.isPrefixOf line then
    match (Text.splitWhitespace line)[3]? with
    | none => s
    | some payloadType =>
      { s with media := some (((Text.parseUnsigned 256 payloadType).map UInt8.ofNat).getD 96, .h264,
        90000) }
  else s

/-- A line of the loop of the media. A line that ends the loop is one of the outer loop. -/
def inner (b64 : Base64Engine) (s : SdpScan) (media : UInt8 × CodecType × UInt32)
    (line : List Char) : SdpScan :=
  if "a=rtpmap:".toList.isPrefixOf line then
    match rtpmap line with
    | none => s
    | some codec => { s with media := some (media.1, codec) }
  else if "a=fmtp:".toList.isPrefixOf line &&
    s.sets.1.isNone then { s with sets := announceFmtp b64 s.sets line }
  else if "m=".toList.isPrefixOf line || "s=".toList.isPrefixOf line then s.close.outer b64 line
  else s

/-- A line. -/
def step (b64 : Base64Engine) (s : SdpScan) (line : List Char) : SdpScan :=
  match s.media with
  | none => s.outer b64 line
  | some media => s.inner b64 media line

end SdpScan

/-- The lines, one after the other. -/
def scanLines (b64 : Base64Engine) (lines : List (List Char)) : SdpScan :=
  lines.foldl (SdpScan.step b64) { tracks := [], sets := (none, none), media := none }

/-- `RtspCommon::parse_sdp_with_sps_pps`. -/
def parseSdpWithSpsPps (b64 : Base64Engine) (sdp : List Char) : List Track × ParameterSets :=
  let s := (scanLines b64 (Text.lines sdp)).close
  (s.tracks, s.sets)

/-! ## The reader of the puller -/

/-- A parameter set that was decoded, by its place: one of no type goes where there is room. -/
def spropSet (sets : ParameterSets) (idx : ℕ) (decoded : List UInt8) : ParameterSets :=
  if decoded = [] then sets
  else if sdpNalType decoded = 7 ∧ sets.1 = none then (some decoded, sets.2)
  else if sdpNalType decoded = 8 ∧ sets.2 = none then (sets.1, some decoded)
  else if idx = 0 ∧ sets.1 = none then (some decoded, sets.2)
  else if sets.2 = none then (sets.1, some decoded)
  else sets

/-- The value of the parameter. -/
def spropParams (b64 : Base64Engine) (sets : ParameterSets) (params : List Char) : ParameterSets :=
  (params.splitOn ',').zipIdx.foldl (fun sets (param, idx) =>
    if param = [] then sets
    else
      match b64.decode param with
      | some decoded => spropSet sets idx decoded
      | none => sets) sets

/-- A parameter of a word. -/
def spropParam (b64 : Base64Engine) (sets : ParameterSets) (param : List Char) : ParameterSets :=
  match Text.stripPrefix SPROP param with
  | some params => spropParams b64 sets (Text.trimEndMatches ';' params)
  | none => sets

/-- A line, if it is one of parameters: its words, and their parameters. -/
def spropLine (b64 : Base64Engine) (sets : ParameterSets) (line : List Char) : ParameterSets :=
  if "a=fmtp:".toList.isPrefixOf line then
    (Text.splitWhitespace line).foldl
      (fun sets part => (part.splitOn ';').foldl (spropParam b64) sets) sets
  else sets

/-- `parse_sprop_parameter_sets`. -/
def parseSpropParameterSets (b64 : Base64Engine) (sdp : List Char) : ParameterSets :=
  (Text.lines sdp).foldl (spropLine b64) (none, none)

end VcpMediaServer
