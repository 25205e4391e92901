import VcpMediaServer.RtspReplies
import VcpMediaServer.RtspServerSession
import VcpMediaServer.Sdp

/-!
# The text of a reply

The headers and the bodies that `process_rtsp_request` builds. What a peer says comes back in them:
the number of its request in `CSeq`, the stream of its URL in `RTP-Info` and in the SDP. Both were
cut out of a line, and so no line ends in them.

* `buildOptionsResponse` and the others — one for each method that is served, and one for what is
  refused.
* `withResponse` — a request that was handled, with its response.
* `RtspSession.Named` — the names of a session have no whitespace; requests keep it so.
* `clean_withResponse` — the response is read back as it was.
-/

namespace VcpMediaServer

open Messages (RtspResponse HeaderOrder HeaderValue headerValue_of_unspaced)
open Text (Unspaced IsWord)

/-- What a request needs of the libraries, and of its connection. -/
structure RequestEnv where
  /-- `str::to_lowercase`. -/
  toLowercase : List Char → List Char
  /-- `str::to_uppercase`. -/
  toUppercase : List Char → List Char
  /-- `Url::parse`, and the path of the URL. -/
  urlPath : List Char → Option (List Char)
  /-- The engine of the base64 crate. -/
  b64 : Base64Engine
  /-- The address of the peer. -/
  peerAddr : String
  /-- What `rand_id` draws. -/
  newId : String
  /-- The ports that `setup_udp_track` binds, if it can. -/
  udpPorts : Option (UInt16 × UInt16)
  /-- The order of the headers in the response that is built. -/
  built : HeaderOrder
  /-- Their order in the one that is sent. -/
  sent : HeaderOrder

/-- The path of a URL without whitespace has none (the crate escapes it), and an id is a number in
hexadecimal. -/
structure RequestEnv.Sound (env : RequestEnv) : Prop where
  path : ∀ url path, IsWord url → env.urlPath url = some path → Unspaced path
  newId : Unspaced env.newId.toList

/-- `TransportInfo`. -/
structure TransportInfo where
  /-- The profile and the protocol. -/
  transportType : List Char
  /-- The ports of the client, or the channels. -/
  clientPort : Option (UInt16 × UInt16)
  /-- The ports of the server. -/
  serverPort : Option (UInt16 × UInt16)

/-- `TransportInfo::default`. -/
def TransportInfo.default : TransportInfo := ⟨[], none, none⟩

/-- The type names TCP; a transport that does not is UDP (`is_udp_transport`). -/
def TransportInfo.isTcp (env : RequestEnv) (transport : TransportInfo) : Bool :=
  (Text.find "TCP".toList (env.toUppercase transport.transportType)).isSome

/-! ## Responses -/

/-- What every response to a request that is served begins with. -/
def okResponse (cseq : List Char) : RtspResponse :=
  (RtspResponse.new 200 "OK".toList).header "CSeq".toList cseq

/-- `build_options_response`. -/
def buildOptionsResponse (cseq : List Char) : RtspResponse :=
  (okResponse cseq).header "Public".toList
    "OPTIONS, DESCRIBE, SETUP, PLAY, PAUSE, TEARDOWN, ANNOUNCE, RECORD".toList

/-- `build_describe_response`. -/
def buildDescribeResponse (cseq sdp : List Char) : RtspResponse :=
  ((okResponse cseq).header "Content-Type".toList "application/sdp".toList).setBody sdp

/-- Two numbers with a dash between them. -/
def portRange (ports : UInt16 × UInt16) : List Char :=
  RtspResponse.digits ports.1.toNat ++ '-' :: RtspResponse.digits ports.2.toNat

/-- The transport that is offered. -/
def transportLine (env : RequestEnv) (transport : TransportInfo) : List Char :=
  if transport.isTcp env then
    "RTP/AVP/TCP;interleaved=".toList ++ portRange (transport.clientPort.getD (0, 1))
  else
    "RTP/AVP;unicast;client_port=".toList ++ portRange (transport.clientPort.getD (5000, 5001)) ++
      ";server_port=".toList ++ portRange (transport.serverPort.getD (5000, 5001))

/-- `build_setup_response`. -/
def buildSetupResponse (env : RequestEnv) (cseq sessionId : List Char) (transport : TransportInfo) :
    RtspResponse :=
  ((okResponse cseq).header "Session".toList sessionId).header "Transport".toList
    (transportLine env transport)

/-- `build_rtp_info`. -/
def buildRtpInfo (m : StreamManager) (streamId : StreamId) : List Char :=
  let tracks := match m.getStream streamId with
    | some stream => if stream.tracks = [] then defaultLiveTracks else stream.tracks
    | none => defaultLiveTracks
  [','].intercalate (tracks.zipIdx.map fun (_, idx) =>
    "url=rtsp://localhost:554/".toList ++ streamId.toList ++ "/trackID=".toList ++
      RtspResponse.digits idx ++
      ";seq=0;rtptime=0".toList)

/-- `build_play_response`. -/
def buildPlayResponse (cseq : List Char) (sessionId : Option (List Char)) (rtpInfo : List Char) :
    RtspResponse :=
  let response :=
    ((okResponse cseq).header "Range".toList "npt=0.000-".toList).header "RTP-Info".toList rtpInfo
  match sessionId with
  | some session => response.header "Session".toList session
  | none => response

/-- `build_pause_response`. -/
def buildPauseResponse : List Char → RtspResponse := okResponse

/-- `build_teardown_response`. -/
def buildTeardownResponse : List Char → RtspResponse := okResponse

/-- `build_announce_response`. -/
def buildAnnounceResponse : List Char → RtspResponse := okResponse

/-- `build_record_response`. -/
def buildRecordResponse (cseq sessionId : List Char) : RtspResponse :=
  (okResponse cseq).header "Session".toList sessionId

/-- `build_error_response`. -/
def buildErrorResponse (statusCode : UInt32) (reason cseq : List Char) : RtspResponse :=
  (RtspResponse.new statusCode reason).header "CSeq".toList cseq

/-- The response for a reply: `ok`, unless the request was refused. -/
def RtspReply.response (ok : RtspResponse) : RtspReply → RtspResponse
  | .ok _ _ => ok
  | .error status reason cseq => buildErrorResponse (.ofNat status) reason.toList cseq.toList

/-- A request that was handled, with its response. -/
def withResponse (done : StreamManager × RtspSession × RtspReply) (ok : RtspResponse) :
    StreamManager × RtspSession × RtspResponse :=
  (done.1, done.2.1, done.2.2.response ok)

/-! ## They are clean -/

theorem clean_okResponse {cseq : List Char} (h : HeaderValue cseq) : (okResponse cseq).Clean :=
  .header (.of_new ⟨["OK".toList], by decide, by decide, rfl⟩) (h.cleanHeader (by decide))

theorem clean_buildOptionsResponse {cseq : List Char} (h : HeaderValue cseq) :
    (buildOptionsResponse cseq).Clean :=
  .header (clean_okResponse h) ⟨by decide, by decide, by decide, by decide, by decide⟩

theorem clean_buildDescribeResponse {cseq sdp : List Char} (h : HeaderValue cseq)
    (hsdp : sdp ≠ []) :
    (buildDescribeResponse cseq sdp).Clean :=
  .setBody (.header (clean_okResponse h)
    ⟨by decide, by decide, by decide, by decide, by decide⟩) hsdp

theorem unspaced_digits (n : ℕ) : Unspaced (RtspResponse.digits n) :=
  (Messages.isWord_digits n).unspaced

theorem unspaced_portRange (ports : UInt16 × UInt16) : Unspaced (portRange ports) := by
  simp only [portRange, Text.unspaced_append, Text.unspaced_cons]
  exact ⟨unspaced_digits _, by decide, unspaced_digits _⟩

theorem unspaced_transportLine (env : RequestEnv) (transport : TransportInfo) :
    Unspaced (transportLine env transport) := by
  rw [transportLine]
  split
  · exact Text.unspaced_append.mpr ⟨by decide, unspaced_portRange _⟩
  · simp only [Text.unspaced_append]
    exact ⟨⟨⟨by decide, unspaced_portRange _⟩, by decide⟩, unspaced_portRange _⟩

theorem clean_buildRecordResponse {cseq sessionId : List Char} (h : HeaderValue cseq)
    (hid : Unspaced sessionId) :
    (buildRecordResponse cseq sessionId).Clean :=
  .header (clean_okResponse h) ((headerValue_of_unspaced hid).cleanHeader (by decide))

theorem clean_buildSetupResponse {env : RequestEnv} {cseq sessionId : List Char}
    (h : HeaderValue cseq) (hid : Unspaced sessionId) (transport : TransportInfo) :
    (buildSetupResponse env cseq sessionId transport).Clean :=
  .header (clean_buildRecordResponse h hid)
    ((headerValue_of_unspaced (unspaced_transportLine env transport)).cleanHeader (by decide))

/-- Commas between texts without whitespace. -/
theorem unspaced_intercalate {pieces : List (List Char)} (h : ∀ piece ∈ pieces, Unspaced piece) :
    Unspaced ([','].intercalate pieces) := by
  induction pieces with
  | nil => exact fun _ hc => absurd hc List.not_mem_nil
  | cons piece rest ih =>
    obtain ⟨hpiece, hrest⟩ := List.forall_mem_cons.mp h
    cases rest with
    | nil => simpa [List.intercalate] using hpiece
    | cons next rest =>
      rw [List.intercalate_cons_cons]
      simp only [Text.unspaced_append]
      exact ⟨⟨hpiece, by decide⟩, ih hrest⟩

theorem unspaced_buildRtpInfo {streamId : StreamId} (h : Unspaced streamId.toList)
    (m : StreamManager) :
    Unspaced (buildRtpInfo m streamId) := by
  refine unspaced_intercalate fun piece hpiece => ?_
  obtain ⟨⟨track, idx⟩, -, rfl⟩ := List.mem_map.mp hpiece
  simp only [Text.unspaced_append]
  exact ⟨⟨⟨⟨by decide, h⟩, by decide⟩, unspaced_digits idx⟩, by decide⟩

theorem clean_buildPlayResponse {cseq rtpInfo : List Char} {sessionId : Option (List Char)}
    (h : HeaderValue cseq) (hid : ∀ id ∈ sessionId, Unspaced id) (hinfo : Unspaced rtpInfo) :
    (buildPlayResponse cseq sessionId rtpInfo).Clean := by
  have hplain :
      (((okResponse cseq).header "Range".toList "npt=0.000-".toList).header "RTP-Info".toList
      rtpInfo).Clean :=
    .header (.header (clean_okResponse h) ⟨by decide, by decide, by decide, by decide, by decide⟩)
      ((headerValue_of_unspaced hinfo).cleanHeader (by decide))
  cases sessionId with
  | none => exact hplain
  | some id => exact hplain.header ((headerValue_of_unspaced (hid id rfl)).cleanHeader (by decide))

theorem clean_buildErrorResponse {reason cseq : List Char} (hreason : Messages.IsPhrase reason)
    (h : HeaderValue cseq) (statusCode : UInt32) :
    (buildErrorResponse statusCode reason cseq).Clean :=
  .header (.of_new hreason) (h.cleanHeader (by decide))

/-! ## Sessions -/

/-- The names of a session have no whitespace. -/
structure RtspSession.Named (session : RtspSession) : Prop where
  streamId : ∀ id ∈ session.streamId, Unspaced id.toList
  sessionId : ∀ id ∈ session.sessionId, Unspaced id.toList

theorem RtspSession.named_new : RtspSession.new.Named := ⟨by simp [new], by simp [new]⟩

/-- What is refused is refused with a phrase, and with the number of the request or with none. -/
def RtspReply.Regular (req : RtspRequest) : RtspReply → Prop
  | .ok _ _ => True
  | .error _ reason cseq => Messages.IsPhrase reason.toList ∧ (cseq = req.cseq ∨ cseq = "0")

variable {m : StreamManager} {session session' : RtspSession} {req : RtspRequest}
    {peerAddr newId : String}

/-- A name that is there, or another one. -/
theorem unspaced_of_mem_orElse {name : Option String} {other : String}
    (h : ∀ id ∈ name, Unspaced id.toList) (hother : Unspaced other.toList) :
    ∀ id ∈ (name <|> some other), Unspaced id.toList := by
  cases name with
  | none => simpa using hother
  | some id => simpa using h

theorem unspaced_getD {name : Option String} {other : String} (h : ∀ id ∈ name, Unspaced id.toList)
    (hother : Unspaced other.toList) : Unspaced (name.getD other).toList := by
  cases name with
  | none => exact hother
  | some id => exact h id rfl

/-- A request leaves names **without whitespace**, if those it brings have none. -/
theorem RtspSession.Named.processRtspRequest (h : session.Named)
    (hstream : Unspaced req.streamId.toList) (hid : Unspaced newId.toList) (m : StreamManager)
    (peerAddr : String) :
    (processRtspRequest m session req peerAddr newId).2.1.Named := by
  have hnewId : ∀ id ∈ some (session.sessionId.getD newId), Unspaced id.toList := by
    simpa using unspaced_getD h.sessionId hid
  unfold VcpMediaServer.processRtspRequest
  split
  · exact h
  split
  · exact h
  · -- `DESCRIBE`
    dsimp only [describe]
    split
    · exact h
    · exact ⟨unspaced_of_mem_orElse h.streamId hstream, h.sessionId⟩
  · -- `SETUP`
    exact ⟨unspaced_of_mem_orElse h.streamId hstream, hnewId⟩
  · -- `PLAY`
    dsimp only [rtspPlay]
    split
    · exact h
    · exact ⟨h.streamId, h.sessionId⟩
  · -- `PAUSE`
    dsimp only [pause]
    split
    · exact h
    · exact ⟨h.streamId, h.sessionId⟩
  · -- `TEARDOWN`
    exact ⟨by simp [teardown], h.sessionId⟩
  · -- `ANNOUNCE`
    dsimp only [announce]
    split
    · exact ⟨h.streamId, h.sessionId⟩
    · exact ⟨by simpa using hstream, h.sessionId⟩
  · -- `RECORD`
    dsimp only [record]
    split
    · split
      · exact ⟨h.streamId, hnewId⟩
      · exact ⟨h.streamId, hnewId⟩
    · exact ⟨h.streamId, hnewId⟩
  · exact h

/-- The reasons that requests are refused with. -/
theorem isPhrase_reasons :
    Messages.IsPhrase "Bad Request".toList ∧ Messages.IsPhrase "Not Found".toList ∧
      Messages.IsPhrase "Method Not Valid in This State".toList ∧
      Messages.IsPhrase "Conflict: stream already publishing".toList ∧
      Messages.IsPhrase "Not Implemented".toList :=
  ⟨⟨["Bad".toList, "Request".toList], by decide, by decide, rfl⟩,
    ⟨["Not".toList, "Found".toList], by decide, by decide, rfl⟩,
    ⟨["Method".toList, "Not".toList, "Valid".toList, "in".toList, "This".toList,
      "State".toList], by decide, by decide, rfl⟩,
    ⟨["Conflict:".toList, "stream".toList, "already".toList,
      "publishing".toList], by decide, by decide, rfl⟩,
    ⟨["Not".toList, "Implemented".toList], by decide, by decide, rfl⟩⟩

theorem regular_processRtspRequest (m : StreamManager) (session : RtspSession) (req : RtspRequest)
    (peerAddr newId : String) :
    (processRtspRequest m session req peerAddr newId).2.2.Regular req := by
  obtain ⟨hbad, hmissing, hstate, htaken, hmethod⟩ := isPhrase_reasons
  unfold processRtspRequest
  split
  · exact ⟨hbad, .inr rfl⟩
  split
  · trivial
  · dsimp only [describe]
    split
    · exact ⟨hmissing, .inl rfl⟩
    · trivial
  · trivial
  · dsimp only [rtspPlay]
    split
    · exact ⟨hstate, .inl rfl⟩
    · trivial
  · dsimp only [pause]
    split
    · exact ⟨hstate, .inl rfl⟩
    · trivial
  · trivial
  · dsimp only [announce]
    split
    · exact ⟨htaken, .inl rfl⟩
    · trivial
  · dsimp only [record]
    split
    · split
      · exact ⟨htaken, .inl rfl⟩
      · trivial
    · trivial
  · exact ⟨hmethod, .inl rfl⟩

/-- Whatever is asked for, the response is **clean** if the one that is built for it is. -/
theorem clean_withResponse {ok : RtspResponse} (hcseq : HeaderValue req.cseq.toList)
    (hok : ok.Clean) (m : StreamManager) (session : RtspSession) (peerAddr newId : String) :
    (withResponse (processRtspRequest m session req peerAddr newId) ok).2.2.Clean := by
  have hregular := regular_processRtspRequest m session req peerAddr newId
  rw [withResponse]
  generalize (processRtspRequest m session req peerAddr newId).2.2 = reply at hregular ⊢
  cases reply with
  | ok cseq sessionId => exact hok
  | error status reason cseq =>
    obtain ⟨hreason, rfl | rfl⟩ := hregular
    · exact clean_buildErrorResponse hreason hcseq _
    · exact clean_buildErrorResponse hreason ⟨by decide, by decide⟩ _

end VcpMediaServer
