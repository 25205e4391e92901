import VcpMediaServer.RtspReplyText

/-!
# Requests as text

`process_request` and `process_rtsp_request` with the text that they are given and the text that
they reply, every index, slice and `unwrap` as the source has it: `none` is a **panic**. What is
found in a text is found between two characters, and what is unwrapped was set or looked at before.

* `Checked.extractTransport`, `Checked.extractTrackId`, `Checked.extractStreamId` — what is read out
  of a request.
* `Checked.respond_answers` — a request is handled as one that **was read**, whatever its text is,
  and its response is clean.
* `Checked.processRequest_eq` — what is sent is the response that **was read back**.
-/

namespace VcpMediaServer

open Messages (RtspResponse HeaderValue headerValue_of_unspaced)

namespace Checked

open Text

/-! ## The transport -/

/-- Two numbers with a dash between them. -/
def portPair (rest : List Char) : Option (Option (UInt16 × UInt16)) :=
  let ports := rest.splitOn '-'
  if 2 ≤ ports.length then do
    let p ← ports[0]?
    let q ← ports[1]?
    return (parseUnsigned (2 ^ 16) p).bind fun p => (parseUnsigned (2 ^ 16) q).map fun q =>
      (.ofNat p, .ofNat q)
  else return none

/-- A part of the line. -/
def transportPart (info : TransportInfo) (part : List Char) : Option TransportInfo :=
  let trimmed := trim part
  if "Transport:".toList.isPrefixOf trimmed then do
    let rest ← sliceFrom (byteLen "Transport:".toList) trimmed
    return { info with transportType := trim rest }
  else if "client_port=".toList.isPrefixOf trimmed then do
    let rest ← sliceFrom (byteLen "client_port=".toList) trimmed
    let ports ← portPair rest
    return { info with clientPort := ports <|> info.clientPort }
  else if "server_port=".toList.isPrefixOf trimmed then do
    let rest ← sliceFrom (byteLen "server_port=".toList) trimmed
    let ports ← portPair rest
    return { info with serverPort := ports <|> info.serverPort }
  else if "interleaved=".toList.isPrefixOf trimmed then do
    let rest ← sliceFrom (byteLen "interleaved=".toList) trimmed
    let ports ← portPair rest
    return { info with clientPort := ports <|> info.clientPort }
  else return info

/-- `extract_transport`. -/
def extractTransport (request : List Char) : Option TransportInfo :=
  match (lines request).find? fun line => "Transport:".toList.isPrefixOf line with
  | none => some .default
  | some line => (line.splitOn ';').foldlM transportPart .default

/-! ## The URL -/

/-- The digits behind a prefix, if the path has it. -/
def trackIdAfter (front path : List Char) : Option (Option ℕ) :=
  match find front path with
  | none => some none
  | some idx => do
    let rest ← sliceFrom (idx + byteLen front) path
    match findChar (fun c => !c.isDigit) rest with
    | some stop => do
      let digits ← sliceRange 0 stop rest
      return some ((parseUnsigned (2 ^ 32) digits).getD 0)
    | none => return some ((parseUnsigned (2 ^ 32) rest).getD 0)

/-- `extract_track_id`. -/
def extractTrackId (env : RequestEnv) (url : List Char) : Option ℕ := do
  let path := env.toLowercase url
  match ← trackIdAfter "trackid=".toList path with
  | some id => return id
  | none => do
    let id ← trackIdAfter "streamid=".toList path
    return id.getD 0

/-- `extract_stream_id`. -/
def extractStreamId (env : RequestEnv) (url : List Char) : Option (List Char) :=
  let parts := (((env.urlPath url).getD url).splitOn '/').filter (· ≠ [])
  match parts.getLast? with
  | none => some "live".toList
  | some last =>
    let lower := env.toLowercase last
    if ("trackid=".toList.isPrefixOf lower || "streamid=".toList.isPrefixOf lower) && 2 ≤
      parts.length then
      parts[parts.length - 2]?
    else some last

/-! ## Requests -/

/-- `extract_cseq`. -/
def extractCseq (request : List Char) : List Char :=
  ((lines request).findSome? fun line =>
    if "CSeq:".toList.isPrefixOf line || "Cseq:".toList.isPrefixOf line || "cseq:".toList.isPrefixOf
      line then
      (line.splitOn ':')[1]?.map trim
    else none).getD "0".toList

/-- The body of an `ANNOUNCE`. -/
def announceBody (request : List Char) : Option (List Char) :=
  sliceFrom (((find Messages.HEADER_END request).map (· + 4)).getD 0) request

/-- The stream of the URL, which is looked for only if the session has none. -/
def streamOfUrl (env : RequestEnv) (session : RtspSession) (url : List Char) : Option (List Char) :=
  if session.streamId.isNone then extractStreamId env url else some []

/-- The arms of `process_rtsp_request`. `plain` is the request without what is read of the rest of
it. -/
def processMethod (env : RequestEnv) (setupServerPorts : Option (UInt16 × UInt16))
    (m : StreamManager) (session : RtspSession) (request url : List Char) (plain : RtspRequest) :
    Option (StreamManager × RtspSession × RtspResponse) :=
  let handle (req : RtspRequest) :=
    VcpMediaServer.processRtspRequest m session req env.peerAddr env.newId
  let cseq := plain.cseq.toList
  match plain.method with
  | "OPTIONS" => return withResponse (handle plain) (buildOptionsResponse cseq)
  | "DESCRIBE" => do
    let streamId ← extractStreamId env url
    return withResponse (handle { plain with streamId := .ofList streamId })
      (buildDescribeResponse cseq (buildSdp env.b64 m (.ofList streamId)))
  | "SETUP" => do
    let streamId ← streamOfUrl env session url
    let _trackId ← extractTrackId env url
    let transport ← extractTransport request
    let transport := { transport with serverPort := setupServerPorts <|> transport.serverPort }
    let done := handle
      { plain with
        streamId := .ofList streamId
        transportIsTcp := transport.isTcp env
        clientPort := transport.clientPort }
    let sessionId ← done.2.1.sessionId
    return withResponse done (buildSetupResponse env cseq sessionId.toList transport)
  | "PLAY" =>
    let done := handle plain
    -- refused before anything is built
    if session.streamId.isNone then return withResponse done (okResponse cseq)
    else do
      let streamId ← done.2.1.streamId
      return withResponse done
        (buildPlayResponse cseq (done.2.1.sessionId.map String.toList) (buildRtpInfo m streamId))
  | "PAUSE" => return withResponse (handle plain) (buildPauseResponse cseq)
  | "TEARDOWN" => return withResponse (handle plain) (buildTeardownResponse cseq)
  | "ANNOUNCE" => do
    let body ← announceBody request
    let streamId ← extractStreamId env url
    let (tracks, sps, pps) := parseSdpWithSpsPps env.b64 body
    return withResponse (handle { plain with streamId := .ofList streamId, tracks, sps, pps })
      (buildAnnounceResponse cseq)
  | "RECORD" => do
    let streamId ← streamOfUrl env session url
    let done := handle { plain with streamId := .ofList streamId }
    let sessionId ← done.2.1.sessionId
    return withResponse done (buildRecordResponse cseq sessionId.toList)
  | _ => return withResponse (handle plain) (okResponse cseq)

/-- A request of which nothing more is read than its first line. -/
def plainRequest (parts : ℕ) (method cseq : List Char) : RtspRequest where
  parts := parts
  method := .ofList method
  streamId := ""
  cseq := .ofList cseq
  transportIsTcp := false
  clientPort := none
  tracks := []
  sps := none
  pps := none

/-- What is answered to a request that cannot be read. -/
def badRequest (m : StreamManager) (session : RtspSession) :
    StreamManager × RtspSession × RtspResponse :=
  (m, session, buildErrorResponse 400 "Bad Request".toList "0".toList)

/-- `RtspServer::process_rtsp_request`, up to the response that is written as its result. -/
def respond (env : RequestEnv) (setupServerPorts : Option (UInt16 × UInt16)) (m : StreamManager)
    (session : RtspSession) (request : List Char) :
    Option (StreamManager × RtspSession × RtspResponse) :=
  let ls := lines request
  if ls = [] then return badRequest m session
  else do
    let firstLine ← ls[0]?
    let parts := splitWhitespace firstLine
    if parts.length < 3 then return badRequest m session
    else do
      let method ← parts[0]?
      let url ← parts[1]?
      processMethod env setupServerPorts m session request url
        (plainRequest parts.length method (extractCseq request))

/-- `RtspServer::process_rtsp_request`. -/
def processRtspRequest (env : RequestEnv) (setupServerPorts : Option (UInt16 × UInt16))
    (m : StreamManager) (session : RtspSession) (request : List Char) :
    Option (StreamManager × RtspSession × List Char) :=
  (respond env setupServerPorts m session request).map fun (m, session, response) =>
    (m, session, response.written env.built)

/-- The words of the first line, for `process_request`. -/
def firstLineWord (request : List Char) (i : ℕ) : List Char :=
  ((lines request).head?.bind fun line => (splitWhitespace line)[i]?).getD []

/-- What `process_request` does for a `SETUP` before it is processed: the ports of a track over UDP.
-/
def readSetup (env : RequestEnv) (request : List Char) : Option (Option (UInt16 × UInt16)) :=
  if firstLineWord request 0 = "SETUP".toList then do
    let transport ← extractTransport request
    if !transport.isTcp env && transport.clientPort.isSome then do
      let _trackId ← extractTrackId env (firstLineWord request 1)
      return env.udpPorts
    else return none
  else return none

/-- What is sent where the response cannot be read back. -/
def internalServerError : RtspResponse :=
  (RtspResponse.new 500 "Internal Server Error".toList).withCseq "0".toList

/-- `process_request`, with the text that is sent. A `PLAY` that is accepted starts the sender,
which unwraps the stream. -/
def processRequest (env : RequestEnv) (m : StreamManager) (ss : RtspServerSession)
    (data : List UInt8) :
    Option (StreamManager × RtspServerSession × List Char) := do
  let request := lossyChars 0 data
  let setupServerPorts ← readSetup env request
  let (m, session, response) ← processRtspRequest env setupServerPorts m ss.session request
  let parsedResponse ← RtspResponse.parse response
  let sent := (parsedResponse.getD internalServerError).written env.sent
  if firstLineWord request 0 = "PLAY".toList ∧ session.playing ∧ session.streamId.isSome then do
    let _streamId ← session.streamId
    return (m, { ss with session }, sent)
  else return (m, { ss with session }, sent)

/-! ## Nothing of it panics -/

variable {env : RequestEnv} {m : StreamManager} {session : RtspSession}

/-- A prefix is taken off. -/
theorem isSome_sliceFrom {front text : List Char} (h : front.isPrefixOf text = true) :
    (sliceFrom (byteLen front) text).isSome := by
  obtain ⟨rest, rfl⟩ := List.isPrefixOf_iff_prefix.mp h
  simp

/-- What goes on where nothing panics. -/
theorem isSome_bind {α β : Type} {x : Option α} {f : α → Option β} (hx : x.isSome)
    (hf : ∀ a, (f a).isSome) :
    (x.bind f).isSome := by
  obtain ⟨a, rfl⟩ := Option.isSome_iff_exists.mp hx
  exact hf a

theorem isSome_getElem? {α : Type} {l : List α} {i : ℕ} (h : i < l.length) : l[i]?.isSome := by
  rw [List.getElem?_eq_getElem h]
  rfl

theorem isSome_portPair (rest : List Char) : (portPair rest).isSome := by
  simp only [portPair]
  split
  · next h =>
      exact isSome_bind (isSome_getElem? (by omega)) fun _ =>
      isSome_bind (isSome_getElem? h) fun _ => rfl
  · rfl

theorem isSome_transportPart (info : TransportInfo) (part : List Char) :
    (transportPart info part).isSome := by
  simp only [transportPart]
  split
  · next h => exact isSome_bind (isSome_sliceFrom h) fun _ => rfl
  split
  · next h => exact isSome_bind (isSome_sliceFrom h) fun _ =>
      isSome_bind (isSome_portPair _) fun _ => rfl
  split
  · next h => exact isSome_bind (isSome_sliceFrom h) fun _ =>
      isSome_bind (isSome_portPair _) fun _ => rfl
  split
  · next h => exact isSome_bind (isSome_sliceFrom h) fun _ =>
      isSome_bind (isSome_portPair _) fun _ => rfl
  · rfl

/-- A loop whose turns do not panic does not. -/
theorem isSome_foldlM {α β : Type} {f : β → α → Option β} (h : ∀ b a, (f b a).isSome) (l : List α)
    (b : β) :
    (l.foldlM f b).isSome := by
  induction l generalizing b with
  | nil => rfl
  | cons a l ih =>
    obtain ⟨b', hb'⟩ := Option.isSome_iff_exists.mp (h b a)
    rw [List.foldlM_cons, hb']
    exact ih b'

theorem isSome_extractTransport (request : List Char) : (extractTransport request).isSome := by
  rw [extractTransport]
  split
  · rfl
  · exact isSome_foldlM isSome_transportPart _ _

theorem isSome_trackIdAfter (front path : List Char) : (trackIdAfter front path).isSome := by
  rw [trackIdAfter]
  split
  · rfl
  · next idx hidx =>
    obtain ⟨a, b, rfl, rfl⟩ := exists_of_find hidx
    have hrest : sliceFrom (byteLen a + byteLen front) (a ++ (front ++ b)) = some b := by
      rw [← List.append_assoc, ← byteLen_append, sliceFrom_append]
    rw [hrest]
    simp only [Option.bind_eq_bind, Option.bind_some]
    split
    · next stop hstop =>
      -- the digits end between two characters
      obtain ⟨digits, rest, rfl, rfl⟩ := exists_of_findChar hstop
      have hdigits : sliceRange 0 (byteLen digits) (digits ++ rest) = some digits := by
        simpa using sliceRange_append [] digits rest
      rw [hdigits]
      rfl
    · rfl

theorem isSome_extractTrackId (env : RequestEnv) (url : List Char) :
    (extractTrackId env url).isSome := by
  refine isSome_bind (isSome_trackIdAfter _ _) fun first => ?_
  cases first with
  | some id => rfl
  | none => exact isSome_bind (isSome_trackIdAfter _ _) fun _ => rfl

theorem isSome_extractStreamId (env : RequestEnv) (url : List Char) :
    (extractStreamId env url).isSome := by
  simp only [extractStreamId]
  split
  · rfl
  · split
    · next h =>
      have hlen := (Bool.and_eq_true_iff.mp h).2
      rw [decide_eq_true_eq] at hlen
      exact isSome_getElem? (by omega)
    · rfl

theorem isSome_streamOfUrl (env : RequestEnv) (session : RtspSession) (url : List Char) :
    (streamOfUrl env session url).isSome := by
  rw [streamOfUrl]
  split
  · exact isSome_extractStreamId env url
  · rfl

theorem isSome_announceBody (request : List Char) : (announceBody request).isSome := by
  rw [announceBody]
  cases hfind : find Messages.HEADER_END request with
  | none =>
    have hall : sliceFrom 0 request = some request := by simpa using sliceFrom_append [] request
    rw [Option.map_none, Option.getD_none, hall]
    rfl
  | some n =>
    obtain ⟨a, b, rfl, rfl⟩ := exists_of_find hfind
    have hbody : sliceFrom (byteLen a + 4) (a ++ (Messages.HEADER_END ++ b)) = some b := by
      have hlen : byteLen (a ++ Messages.HEADER_END) = byteLen a + 4 := byteLen_append _ _
      rw [← List.append_assoc, ← hlen, sliceFrom_append]
    rw [Option.map_some, Option.getD_some, hbody]
    rfl

/-- A `SETUP` leaves a session id. -/
theorem isSome_sessionId_setup {req : RtspRequest} (h : req.Is "SETUP") (peerAddr newId : String) :
    (VcpMediaServer.processRtspRequest m session req peerAddr newId).2.1.sessionId.isSome := by
  unfold VcpMediaServer.processRtspRequest
  rw [if_neg (Nat.not_lt.mpr h.1), h.2]
  rfl

/-- A `RECORD` leaves a session id, also where it finds the slot taken. -/
theorem isSome_sessionId_record {req : RtspRequest} (h : req.Is "RECORD")
    (peerAddr newId : String) :
    (VcpMediaServer.processRtspRequest m session req peerAddr newId).2.1.sessionId.isSome := by
  unfold VcpMediaServer.processRtspRequest
  rw [if_neg (Nat.not_lt.mpr h.1), h.2]
  simp only [record]
  split
  · split <;> rfl
  · rfl

/-- A `PLAY` leaves the stream of the session. -/
theorem isSome_streamId_play {req : RtspRequest} (h : req.Is "PLAY")
    (hstream : session.streamId.isSome) (peerAddr newId : String) :
    (VcpMediaServer.processRtspRequest m session req peerAddr newId).2.1.streamId.isSome := by
  have hne : session.streamId ≠ none := Option.isSome_iff_ne_none.mp hstream
  unfold VcpMediaServer.processRtspRequest
  rw [if_neg (Nat.not_lt.mpr h.1), h.2]
  change (rtspPlay session req).1.streamId.isSome
  rw [rtspPlay, if_neg hne]
  exact hstream

/-! ## What is read has no line end in it -/

theorem headerValue_extractCseq (request : List Char) : HeaderValue (extractCseq request) := by
  rw [extractCseq]
  generalize hfound : (lines request).findSome? _ = found
  cases found with
  | none => exact ⟨by decide, by decide⟩
  | some value =>
    obtain ⟨line, hline, hvalue⟩ := List.exists_of_findSome?_eq_some hfound
    obtain ⟨-, hvalue⟩ := Option.ite_none_right_eq_some.mp hvalue
    obtain ⟨piece, hpiece, rfl⟩ := Option.map_eq_some_iff.mp hvalue
    refine ⟨fun hmem => newline_not_mem_of_mem_lines hline ?_, trim_trim piece⟩
    exact mem_of_mem_splitOn (List.mem_of_getElem? hpiece) _ (mem_of_mem_trim hmem)

/-- A stream is a piece of the URL. -/
theorem unspaced_extractStreamId {url id : List Char} (henv : env.Sound) (hurl : IsWord url)
    (h : extractStreamId env url = some id) : Unspaced id := by
  have hpath : Unspaced ((env.urlPath url).getD url) := by
    cases hpath : env.urlPath url with
    | none => exact hurl.unspaced
    | some path => exact henv.path url path hurl hpath
  have hparts : ∀ part ∈ (((env.urlPath url).getD url).splitOn '/').filter (· ≠ []),
      Unspaced part :=
    fun part hpart => hpath.of_mem_splitOn (List.mem_filter.mp hpart).1
  simp only [extractStreamId] at h
  split at h
  · obtain rfl := Option.some.inj h
    decide
  · next last hlast =>
    split at h
    · exact hparts id (List.mem_of_getElem? h)
    · obtain rfl := Option.some.inj h
      exact hparts last (List.mem_of_getLast? hlast)

theorem unspaced_streamOfUrl {url id : List Char} (henv : env.Sound) (hurl : IsWord url)
    (h : streamOfUrl env session url = some id) : Unspaced id := by
  rw [streamOfUrl] at h
  split at h
  · exact unspaced_extractStreamId henv hurl h
  · obtain rfl := Option.some.inj h
    exact fun _ hc => absurd hc List.not_mem_nil

/-! ## What is answered -/

/-- A request is answered as one that was read, with a response that is clean. -/
def Answers (env : RequestEnv) (m : StreamManager) (session : RtspSession)
    (result : Option (StreamManager × RtspSession × RtspResponse)) : Prop :=
  ∃ req ok,
    result =
      some (withResponse (VcpMediaServer.processRtspRequest m session req env.peerAddr env.newId)
      ok) ∧
      Unspaced req.streamId.toList ∧ HeaderValue req.cseq.toList ∧ ok.Clean

section

variable {req : RtspRequest} (hstream : Unspaced req.streamId.toList)
    (hcseq : HeaderValue req.cseq.toList)
include hstream hcseq

theorem answers_handle {ok : RtspResponse} (hok : ok.Clean) :
    Answers env m session
      (some (withResponse (VcpMediaServer.processRtspRequest m session req env.peerAddr env.newId)
          ok)) :=
  ⟨req, ok, rfl, hstream, hcseq, hok⟩

/-- A response with the session id that the request leaves. -/
theorem answers_sessionId (henv : env.Sound) (hsession : session.Named)
    {build : String → RtspResponse} (hbuild : ∀ id : String, Unspaced id.toList → (build id).Clean)
    (hsome :
      (VcpMediaServer.processRtspRequest m session req env.peerAddr env.newId).2.1.sessionId.isSome)
      :
    Answers env m session
      ((VcpMediaServer.processRtspRequest m session req env.peerAddr env.newId).2.1.sessionId.bind
          fun id =>
        some (withResponse (VcpMediaServer.processRtspRequest m session req env.peerAddr env.newId)
            (build id))) := by
  have hnamed := hsession.processRtspRequest hstream henv.newId m env.peerAddr
  obtain ⟨id, hid⟩ := Option.isSome_iff_exists.mp hsome
  rw [hid, Option.bind_some]
  exact answers_handle hstream hcseq (hbuild id (hnamed.sessionId id hid))

end

/-- Every method is answered. -/
theorem processMethod_answers (henv : env.Sound) (hsession : session.Named) {url : List Char}
    (hurl : IsWord url) (setupServerPorts : Option (UInt16 × UInt16)) (m : StreamManager)
    (request : List Char) {plain : RtspRequest} (hparts : 3 ≤ plain.parts)
    (hcseq : HeaderValue plain.cseq.toList) (hplain : plain.streamId = "") :
    Answers env m session (processMethod env setupServerPorts m session request url plain) := by
  obtain ⟨streamId, hstreamId⟩ := Option.isSome_iff_exists.mp (isSome_extractStreamId env url)
  obtain ⟨trackId, htrackId⟩ := Option.isSome_iff_exists.mp (isSome_extractTrackId env url)
  obtain ⟨transport, htransport⟩ := Option.isSome_iff_exists.mp (isSome_extractTransport request)
  obtain ⟨body, hbody⟩ := Option.isSome_iff_exists.mp (isSome_announceBody request)
  obtain ⟨id, hid⟩ := Option.isSome_iff_exists.mp (isSome_streamOfUrl env session url)
  have hnone : Unspaced plain.streamId.toList := by
    rw [hplain]
    decide
  have hname : Unspaced (String.ofList streamId).toList := by
    rw [String.toList_ofList]
    exact unspaced_extractStreamId henv hurl hstreamId
  have hname' : Unspaced (String.ofList id).toList := by
    rw [String.toList_ofList]
    exact unspaced_streamOfUrl henv hurl hid
  simp only [processMethod, hstreamId, htrackId, htransport, hbody, hid, Option.bind_eq_bind,
    Option.bind_some]
  split
  · exact answers_handle hnone hcseq (clean_buildOptionsResponse hcseq)
  · refine answers_handle ?_ ?_ (clean_buildDescribeResponse hcseq ?_)
    · exact hname
    · exact hcseq
    · simp [buildSdp, sdpText, sessionLines]
  · next hm =>
    refine answers_sessionId ?_ ?_ henv hsession
      (fun id hid => clean_buildSetupResponse hcseq hid _) (isSome_sessionId_setup ?_ _ _)
    · exact hname'
    · exact hcseq
    · exact ⟨hparts, hm⟩
  · next hm =>
    split
    · exact answers_handle hnone hcseq (clean_okResponse hcseq)
    · next hstream =>
      have hsome : session.streamId.isSome := by simpa [Option.isSome_iff_ne_none] using hstream
      have hnamed := hsession.processRtspRequest hnone henv.newId m env.peerAddr
      obtain ⟨playing, hplaying⟩ := Option.isSome_iff_exists.mp
        (isSome_streamId_play (m := m) ⟨hparts, hm⟩ hsome env.peerAddr env.newId)
      rw [hplaying, Option.bind_some]
      refine answers_handle hnone hcseq (clean_buildPlayResponse hcseq ?_
        (unspaced_buildRtpInfo (hnamed.streamId playing hplaying) m))
      intro text htext
      obtain ⟨id, hid, rfl⟩ := Option.map_eq_some_iff.mp htext
      exact hnamed.sessionId id hid
  · exact answers_handle hnone hcseq (clean_okResponse hcseq)
  · exact answers_handle hnone hcseq (clean_okResponse hcseq)
  · generalize parseSdpWithSpsPps env.b64 body = sdp
    obtain ⟨tracks, sps, pps⟩ := sdp
    refine answers_handle ?_ ?_ (clean_okResponse hcseq)
    · exact hname
    · exact hcseq
  · next hm =>
    refine answers_sessionId ?_ ?_ henv hsession (fun id hid => clean_buildRecordResponse hcseq hid)
      (isSome_sessionId_record ?_ _ _)
    · exact hname'
    · exact hcseq
    · exact ⟨hparts, hm⟩
  · exact answers_handle hnone hcseq (clean_okResponse hcseq)

/-- A request line that is too short is refused like any other. -/
theorem processRtspRequest_short (m : StreamManager) (session : RtspSession) {req : RtspRequest}
    (h : req.parts < 3) (peerAddr newId : String) :
    VcpMediaServer.processRtspRequest m session req peerAddr newId =
        (m, session, .error 400 "Bad Request" "0") := by
  unfold VcpMediaServer.processRtspRequest
  rw [if_pos h]

theorem badRequest_answers (env : RequestEnv) (m : StreamManager) (session : RtspSession) :
    Answers env m session (some (badRequest m session)) := by
  refine ⟨plainRequest 0 [] [], okResponse "0".toList, ?_, by decide, ⟨by decide, by decide⟩,
    clean_okResponse ⟨by decide, by decide⟩⟩
  rw [processRtspRequest_short m session (show (plainRequest 0 [] []).parts < 3 by decide)]
  rfl

/-- **Every** text is answered. -/
theorem respond_answers (henv : env.Sound) (hsession : session.Named)
    (setupServerPorts : Option (UInt16 × UInt16)) (m : StreamManager) (request : List Char) :
    Answers env m session (respond env setupServerPorts m session request) := by
  simp only [respond]
  rcases lines request with _ | ⟨firstLine, rest⟩
  · exact badRequest_answers env m session
  · rw [if_neg (List.cons_ne_nil _ _), List.getElem?_cons_zero]
    simp only [Option.bind_eq_bind, Option.bind_some]
    split
    · exact badRequest_answers env m session
    · next hlen =>
      have hwords : ∀ w ∈ splitWhitespace firstLine, IsWord w :=
        fun w => isWord_of_mem_splitWhitespace
      generalize splitWhitespace firstLine = parts at hlen hwords ⊢
      rw [List.getElem?_eq_getElem (show 0 < parts.length by omega),
        List.getElem?_eq_getElem (show 1 < parts.length by omega)]
      refine processMethod_answers henv hsession (hwords _ (List.getElem_mem _))
        setupServerPorts m request
        (Nat.le_of_not_lt hlen) ?_ rfl
      simpa [plainRequest] using headerValue_extractCseq request

/-! ## What is sent -/

/-- The response to the bytes of a request, before `process_rtsp_request` writes it. -/
def buildResponse (env : RequestEnv) (m : StreamManager) (ss : RtspServerSession)
    (data : List UInt8) :
    Option (StreamManager × RtspSession × RtspResponse) := do
  let request := lossyChars 0 data
  let setupServerPorts ← readSetup env request
  respond env setupServerPorts m ss.session request

theorem isSome_readSetup (env : RequestEnv) (request : List Char) :
    (readSetup env request).isSome := by
  rw [readSetup]
  split
  · refine isSome_bind (isSome_extractTransport request) fun transport => ?_
    split
    · exact isSome_bind (isSome_extractTrackId _ _) fun _ => rfl
    · rfl
  · rfl

/-- Whatever the bytes of a request are: it is handled as one that **was read**, its response is
clean, and the names of the session stay without whitespace. -/
theorem exists_buildResponse {ss : RtspServerSession} (henv : env.Sound)
    (hsession : ss.session.Named) (m : StreamManager) (data : List UInt8) :
    ∃ req r,
      buildResponse env m ss data =
          some ((ss.processRequest m req env.peerAddr env.newId).1,
            (ss.processRequest m req env.peerAddr env.newId).2.1.session, r) ∧
        (ss.processRequest m req env.peerAddr env.newId).2.1.session.Named ∧ r.Clean := by
  obtain ⟨ports, hports⟩ := Option.isSome_iff_exists.mp (isSome_readSetup env (lossyChars 0 data))
  obtain ⟨req, ok, hanswer, hstream, hcseq, hok⟩ :=
    respond_answers henv hsession ports m (lossyChars 0 data)
  refine ⟨req, _, ?_, hsession.processRtspRequest hstream henv.newId m env.peerAddr,
    clean_withResponse hcseq hok m ss.session env.peerAddr env.newId⟩
  rw [buildResponse, hports]
  exact hanswer

/-- What is sent is the response **as it was read back**, and never an internal error. -/
theorem processRequest_eq {ss : RtspServerSession} {data : List UInt8} {m' : StreamManager}
    {session' : RtspSession} {r : RtspResponse}
    (hbuild : buildResponse env m ss data = some (m', session', r)) (hclean : r.Clean)
    (hfit : byteLen (r.written env.built) < USIZE_VALUES) :
    ∃ r', RtspResponse.parse (r.written env.built) = some (some r') ∧ r.SameAs r' ∧
      processRequest env m ss data =
          some (m', { ss with session := session' }, r'.written env.sent) := by
  obtain ⟨r', hparse, hsame⟩ := RtspResponse.parse_toText hclean (env.built.perm r.headers) hfit
  refine ⟨r', hparse, hsame, ?_⟩
  obtain ⟨ports, hports, hrespond⟩ := Option.bind_eq_some_iff.mp hbuild
  have hread : RtspResponse.parse (r.written env.built) = some (some r') := hparse
  simp only [processRequest, hports, processRtspRequest, hrespond, Option.map_some, hread,
    Option.bind_eq_bind, Option.bind_some, Option.getD_some]
  split
  · next h =>
    obtain ⟨streamId, hstreamId⟩ := Option.isSome_iff_exists.mp h.2.2
    rw [hstreamId]
    rfl
  · rfl

end Checked

end VcpMediaServer
