import VcpMediaServer.Amf0
import VcpMediaServer.Authority
import VcpMediaServer.Timestamp

/-!
# An RTMP connection

What the RTMP server does with a message of a client: the session of
`rtmp/session.rs` and the handlers of `rtmp/mod.rs`. Three fields of the
connection say what it publishes, and they are written **apart**: `isPublishing`
and `publisherId` by `publish` and the commands that end it, `streamId` by
`connect` and `play` as well.

* `handleRtmpMessage` — one message. The branches for media look at different
  ones of the three fields: frames need `isPublishing`, a **sequence header**
  needs nothing.
* `handleAmf0Command` — one command; `writeOk` says whether the answer could be
  written, and a failed write is an error of the message.
* `releasePublishConnection` — gives back the slot of the stream that `streamId`
  names now.

The task that `play` starts for the viewer only reads, and is not part of this.
-/

namespace VcpMediaServer

/-- `SessionState`. -/
inductive SessionState where
  | handshaking
  | connected
  | createStream
  | ready
  | publishing
  | playing
  | closing
  deriving DecidableEq, Repr

/-- `SessionMode`. -/
inductive SessionMode where
  | none
  | publish
  | play
  deriving DecidableEq, Repr

/-- `RtmpSession`. -/
structure RtmpSession where
  /-- Where the session is. -/
  state : SessionState
  /-- The application, from `connect`. -/
  app : String
  /-- The name given last to `publish` or `play`. -/
  streamName : String
  /-- Whether that was a `publish`. -/
  mode : SessionMode
  /-- The chunk size of the server's own messages. -/
  chunkSize : ℕ
  /-- The message stream id, counted up by `createStream`. -/
  serverStreamId : UInt32
  /-- The transaction to answer, a double. -/
  transactionId : UInt64
  deriving DecidableEq, Repr

namespace RtmpSession

open Amf0

/-- `RtmpSession::new`. -/
def new : RtmpSession :=
  { state := .handshaking, app := "", streamName := "", mode := .none, chunkSize := 4096,
    serverStreamId := 0, transactionId := 0x3FF0000000000000 }

/-- `handle_connect`: the last argument with an `app` gives it. -/
def handleConnect (session : RtmpSession) (args : List Amf0Value) : RtmpSession × String :=
  let app := args.foldl (fun app arg => (getStringProp arg "app").getD app) session.app
  ({ session with app, state := .connected }, app)

/-- `handle_create_stream`: `none` if there is no transaction id to unwrap. -/
def handleCreateStream (session : RtmpSession) (args : List Amf0Value) :
    Option (RtmpSession × UInt32) :=
  match args[0]?.bind Amf0Value.asF64 with
  | none => none
  | some transactionId =>
    let serverStreamId := session.serverStreamId + 1
    some ({ session with serverStreamId, state := .ready, transactionId }, serverStreamId)

/-- The loop over the arguments of `handle_publish` and `handle_play`: the first
string that is not empty ends it, an object with a `streamName` does not. -/
def namedStream : String → List Amf0Value → String
  | name, [] => name
  | name, arg :: args =>
    match arg.asStr with
    | some s => if s ≠ "" then s else namedStream name args
    | none => namedStream ((getStringProp arg "streamName").getD name) args

/-- `handle_publish`. -/
def handlePublish (session : RtmpSession) (args : List Amf0Value) : RtmpSession × String :=
  let streamName := namedStream session.streamName args
  ({ session with streamName, mode := .publish, state := .publishing }, streamName)

/-- `handle_play`. -/
def handlePlay (session : RtmpSession) (args : List Amf0Value) : RtmpSession × String :=
  let streamName := namedStream session.streamName args
  ({ session with streamName, mode := .play, state := .playing }, streamName)

end RtmpSession

/-- `RtmpMessage`. -/
structure RtmpMessage where
  /-- The message type. -/
  msgType : UInt8
  /-- The timestamp in milliseconds. -/
  timestamp : UInt32
  /-- The message stream. -/
  streamId : UInt32
  /-- The bytes of the message. -/
  payload : List UInt8
  deriving DecidableEq, Repr

/-- `RtmpConnection`, without what the chunk parser and the viewer keep in it. -/
structure RtmpConnection where
  /-- The session. -/
  session : RtmpSession
  /-- The chunk size of the client. -/
  chunkSize : ℕ
  /-- The number of media messages. -/
  framesReceived : ℕ
  /-- A `publish` was accepted and not ended. -/
  isPublishing : Bool
  /-- The stream that media goes to. -/
  streamId : StreamId
  /-- The publisher id to release the slot with. -/
  publisherId : Option String
  deriving DecidableEq, Repr

/-- `RtmpConnection::new`. -/
def RtmpConnection.new : RtmpConnection :=
  { session := RtmpSession.new, chunkSize := 4096, framesReceived := 0, isPublishing := false,
    streamId := "", publisherId := none }

/-- A message that the server writes to the client. -/
inductive RtmpReply where
  | windowAckSize (size : ℕ)
  | setPeerBandwidth (size limit : ℕ)
  | setChunkSize (size : ℕ)
  | connectResult (transactionId : UInt64)
  | createStreamResult (transactionId : UInt64) (streamId : UInt32)
  | onStatus (code description level : String)
  | avcSequenceHeader (sps pps : List UInt8)
  | aacSequenceHeader
  | streamBegin (streamId : UInt32)
  | setBufferLength (streamId : UInt32) (bufferMs : ℕ)
  deriving DecidableEq, Repr

/-- How the handling of a message ends: it returns `Ok` with what it wrote and
the new chunk size of the client, returns an error, or panics. -/
inductive RtmpOutcome where
  | done (replies : List RtmpReply) (newChunkSize : Option ℕ)
  | failed
  | panicked
  deriving DecidableEq, Repr

/-- Write the replies; the `?` of every write returns from the handler. -/
def RtmpOutcome.answer (writeOk : Bool) (replies : List RtmpReply) : RtmpOutcome :=
  if writeOk then .done replies none else .failed

/-- The publisher id of the connection from `peerAddr`. -/
def rtmpPublisherId (peerAddr : String) : String := "rtmp:" ++ peerAddr

namespace RtmpConnection

open Amf0 Ownership

/-! ## Media -/

/-- The loop over the parameter sets of an `AVCDecoderConfigurationRecord`: the
last one it read and where it stopped. -/
def readParameterSets (config : List UInt8) :
    ℕ → ℕ → List UInt8 → List UInt8 × ℕ
  | 0, offset, last => (last, offset)
  | n + 1, offset, last =>
    if offset + 2 > config.length then (last, offset)
    else
      let len := beNat (slice config offset 2)
      let offset := offset + 2
      if offset + len > config.length then (last, offset)
      else readParameterSets config n (offset + len) (slice config offset len)

/-- What an AVC sequence header has stored: the **last** SPS and PPS in it, if
it has an SPS. -/
def sequenceHeaderConfig (data : List UInt8) : Option (List UInt8 × List UInt8) :=
  if data.length > 13 then
    let config := data.drop 5
    if config.length > 7 then
      let (sps, offset) := readParameterSets config (config.getD 5 0 &&& 0x1F).toNat 6 []
      let pps :=
        match config[offset]? with
        | none => []
        | some b => (readParameterSets config (b &&& 0x1F).toNat (offset + 1) []).1
      if sps = [] then none else some (sps, pps)
    else none
  else none

/-- The loop that puts start codes in place of the lengths of AVCC; every turn
takes four bytes, so the length of the payload is fuel enough. -/
def avccLoop : ℕ → List UInt8 → List UInt8
  | 0, _ => []
  | fuel + 1, payload =>
    if payload.length < 4 then []
    else
      let len := beNat (payload.take 4)
      let rest := payload.drop 4
      if len > rest.length then []
      else [0, 0, 0, 1] ++ rest.take len ++ avccLoop fuel (rest.drop len)

/-- Annex B from AVCC with lengths of four bytes. A NAL unit that is cut off
ends it. -/
def avccToAnnexB (payload : List UInt8) : List UInt8 := avccLoop payload.length payload

/-- The frame that a video message is published as, if there is anything in it. -/
def videoFrame (streamId : StreamId) (msg : RtmpMessage) : Option MediaFrame :=
  let annexB := avccToAnnexB (msg.payload.drop 5)
  if annexB = [] then none
  else
    some ((MediaFrame.new streamId 0 msg.timestamp.toUInt64 annexB
      (msg.payload.headD 0 &&& 0xF0 == 0x10) .h264).withClockRate MILLISECOND_CLOCK_RATE)

/-- The audio data of a message without its tag header. -/
def audioData (data : List UInt8) : List UInt8 :=
  if data.length > 1 ∧ data.take 2 = [0xAF, 0x01] then data.drop 2
  else if data.length > 1 then data.drop 1
  else data

/-- The frame that an audio message is published as. -/
def audioFrame (streamId : StreamId) (msg : RtmpMessage) : MediaFrame :=
  (MediaFrame.new streamId 1 msg.timestamp.toUInt64 (audioData msg.payload) false
    .aac).withClockRate MILLISECOND_CLOCK_RATE

/-- The type of a video packet. -/
def avcPacketType (data : List UInt8) : UInt8 := data.getD 1 0xFF

/-- The branch for video. Nothing but `isPublishing` is looked at, and that for
frames only. -/
def handleVideo (m : StreamManager) (conn : RtmpConnection) (msg : RtmpMessage) :
    Option (StreamManager × RtmpConnection × RtmpOutcome) :=
  if msg.payload = [] then some (m, conn, .done [] none)
  else if avcPacketType msg.payload = 0x00 then
    match sequenceHeaderConfig msg.payload with
    | none => some (m, conn, .done [] none)
    | some (sps, pps) => some (m.setStreamSpsPps conn.streamId sps pps, conn, .done [] none)
  else if avcPacketType msg.payload = 0x01 then
    let conn := { conn with framesReceived := conn.framesReceived + 1 }
    -- the slice behind the tag header is taken before anything is checked
    if msg.payload.length < 5 then some (m, conn, .panicked)
    else if conn.isPublishing then
      match videoFrame conn.streamId msg with
      | none => some (m, conn, .done [] none)
      | some frame => (m.publishFrame frame).map fun m => (m, conn, .done [] none)
    else some (m, conn, .done [] none)
  else some (m, conn, .done [] none)

/-- The branch for audio. -/
def handleAudio (m : StreamManager) (conn : RtmpConnection) (msg : RtmpMessage) :
    Option (StreamManager × RtmpConnection × RtmpOutcome) :=
  if msg.payload = [] then some (m, conn, .done [] none)
  else
    let isHeader := msg.payload.length > 1 && msg.payload.getD 1 0 == 0x00
    let conn := { conn with framesReceived := conn.framesReceived + 1 }
    if conn.isPublishing && !isHeader then
      (m.publishFrame (audioFrame conn.streamId msg)).map fun m => (m, conn, .done [] none)
    else some (m, conn, .done [] none)

/-! ## Commands -/

/-- `release_publish_connection`. -/
def releasePublishConnection (m : StreamManager) (conn : RtmpConnection) :
    StreamManager × RtmpConnection :=
  if conn.isPublishing then
    let m :=
      match conn.publisherId with
      | none => m
      | some publisherId => m.unpublish conn.streamId publisherId
    (m, { conn with publisherId := none, isPublishing := false })
  else (m, conn)

/-- The `connect` command. It names a stream too: the application. -/
def connect (conn : RtmpConnection) (args : List Amf0Value) (writeOk : Bool) :
    RtmpConnection × RtmpOutcome :=
  let (session, app) := conn.session.handleConnect args
  ({ conn with session, streamId := app },
    .answer writeOk [.windowAckSize 2500000, .setPeerBandwidth 2500000 2,
      .setChunkSize session.chunkSize, .connectResult session.transactionId])

/-- The `createStream` command. -/
def createStream (conn : RtmpConnection) (args : List Amf0Value) (writeOk : Bool) :
    RtmpConnection × RtmpOutcome :=
  match conn.session.handleCreateStream args with
  | none => (conn, .panicked)
  | some (session, streamId) =>
    ({ conn with session }, .answer writeOk [.createStreamResult session.transactionId streamId])

/-- The stream is there afterwards, made if need be. -/
def ensureStream (m : StreamManager) (streamName : StreamId) : StreamManager :=
  if m.getStream streamName = none then (m.createStream streamName .push .rtmp none).1 else m

/-- The default tracks, for a stream without any. -/
def ensureTracks (m : StreamManager) (streamName : StreamId) : StreamManager :=
  if (m.getStream streamName).any fun s => s.tracks.isEmpty then
    m.setStreamTracks streamName defaultLiveTracks
  else m

/-- The `publish` command. A write that fails leaves the slot taken. -/
def publish (m : StreamManager) (conn : RtmpConnection) (args : List Amf0Value)
    (peerAddr : String) (writeOk : Bool) : StreamManager × RtmpConnection × RtmpOutcome :=
  let (session, streamName) := conn.session.handlePublish args
  let publisherId := rtmpPublisherId peerAddr
  let conn := { conn with session }
  match (ensureStream m streamName).acquirePublisher streamName publisherId with
  | (m, .error _) =>
    (m, conn, .answer writeOk [.onStatus "NetStream.Publish.BadName"
      "Stream already has an active publisher." "error"])
  | (m, .ok ()) =>
    let conn :=
      { conn with isPublishing := true, streamId := streamName, publisherId := some publisherId }
    let m := ((ensureTracks m streamName).setUnpublished streamName).1
    if writeOk then
      ((m.setPublishing streamName).1, conn,
        .done [.onStatus "NetStream.Publish.Start" "Publishing started." "status"] none)
    else (m, conn, .failed)

/-- What `play` answers. -/
def playReplies (m : StreamManager) (session : RtmpSession) (streamName : StreamId) :
    List RtmpReply :=
  let notFound := [.onStatus "NetStream.Play.StreamNotFound" "Stream not found" "error"]
  match m.getStream streamName with
  | none => notFound
  | some stream =>
    if stream.status ≠ .publishing then notFound
    else
      [.onStatus "NetStream.Play.Start" "Play started." "status"] ++
        (match stream.sps, stream.pps with
          | some sps, some pps => [.avcSequenceHeader sps pps]
          | _, _ => []) ++
        (if stream.tracks.any fun t => t.codec = .aac then [.aacSequenceHeader] else []) ++
        [.streamBegin session.serverStreamId, .setBufferLength session.serverStreamId 100]

/-- The `play` command: the stream played **becomes** the stream of the
connection, found or not. -/
def play (m : StreamManager) (conn : RtmpConnection) (args : List Amf0Value) (writeOk : Bool) :
    RtmpConnection × RtmpOutcome :=
  let (session, streamName) := conn.session.handlePlay args
  ({ conn with session, streamId := streamName },
    .answer writeOk (playReplies m session streamName))

/-- The `deleteStream` and `closeStream` commands, which leave the session in
`state`. -/
def endPublish (m : StreamManager) (conn : RtmpConnection) (state : SessionState) :
    StreamManager × RtmpConnection × RtmpOutcome :=
  let (m, conn) := releasePublishConnection m conn
  (m, { conn with session := { conn.session with state } }, .done [] none)

/-- `handle_amf0_command`. -/
def handleAmf0Command (m : StreamManager) (conn : RtmpConnection) (command : String)
    (args : List Amf0Value) (peerAddr : String) (writeOk : Bool) :
    StreamManager × RtmpConnection × RtmpOutcome :=
  match command with
  | "connect" => (m, conn.connect args writeOk)
  | "releaseStream" => (m, conn, .done [] none)
  | "FCPublish" => (m, conn, .done [] none)
  | "FCUnpublish" => (m, conn, .done [] none)
  | "createStream" => (m, conn.createStream args writeOk)
  | "publish" => publish m conn args peerAddr writeOk
  | "play" => (m, play m conn args writeOk)
  | "deleteStream" => endPublish m conn .ready
  | "closeStream" => endPublish m conn .closing
  | _ => (m, conn, .done [] none)

/-! ## Messages -/

/-- The `SetChunkSize` message. -/
def setChunkSize (conn : RtmpConnection) (payload : List UInt8) : RtmpConnection × RtmpOutcome :=
  if 4 ≤ payload.length then
    let newSize := beNat (payload.take 4)
    ({ conn with chunkSize := newSize }, .done [] (some newSize))
  else (conn, .done [] none)

/-- `handle_rtmp_message`: `none` if the push of a frame never returns. -/
def handleRtmpMessage (m : StreamManager) (conn : RtmpConnection) (msg : RtmpMessage)
    (peerAddr : String) (writeOk : Bool) :
    Option (StreamManager × RtmpConnection × RtmpOutcome) :=
  if msg.msgType = 0x14 ∨ msg.msgType = 0x12 then
    match parseCommand msg.payload with
    | .error _ => some (m, conn, .done [] none)
    | .ok (command, args) => some (handleAmf0Command m conn command args peerAddr writeOk)
  else if msg.msgType = 0x09 then handleVideo m conn msg
  else if msg.msgType = 0x08 then handleAudio m conn msg
  else if msg.msgType = 0x01 then some (m, conn.setChunkSize msg.payload)
  else some (m, conn, .done [] none)

/-! ## What a message says -/

/-- The command in a message, if it has one. -/
def commandOf (msg : RtmpMessage) : Option (String × List Amf0Value) :=
  if msg.msgType = 0x14 ∨ msg.msgType = 0x12 then (parseCommand msg.payload).toOption else none

/-- The message is a sequence header with parameter sets in it. -/
def isConfig (msg : RtmpMessage) : Bool :=
  msg.msgType == 0x09 && avcPacketType msg.payload == 0x00 &&
    (sequenceHeaderConfig msg.payload).isSome

/-- The stream that the message, a `connect` or a `play`, puts in place of the
one the connection has. -/
def renamed (conn : RtmpConnection) (msg : RtmpMessage) : Option StreamId :=
  match commandOf msg with
  | some ("connect", args) => some (conn.session.handleConnect args).2
  | some ("play", args) => some (conn.session.handlePlay args).2
  | _ => none

/-- The stream that the message asks to publish. -/
def published (conn : RtmpConnection) (msg : RtmpMessage) : Option StreamId :=
  match commandOf msg with
  | some ("publish", args) => some (conn.session.handlePublish args).2
  | _ => none

/-- The message is a command that the server answers. -/
def isAnswered (msg : RtmpMessage) : Bool :=
  match commandOf msg with
  | some (command, _) => command ∈ ["connect", "createStream", "publish", "play"]
  | none => false

/-! ## What a message does -/

/-- The two connections publish alike. -/
structure SamePublish (conn conn' : RtmpConnection) : Prop where
  isPublishing : conn'.isPublishing = conn.isPublishing
  streamId : conn'.streamId = conn.streamId
  publisherId : conn'.publisherId = conn.publisherId

theorem SamePublish.refl (conn : RtmpConnection) : conn.SamePublish conn := ⟨rfl, rfl, rfl⟩

/-- What the handling of a message does to the streams and to what the
connection publishes as `own`. -/
inductive Handled (own : String) (m : StreamManager) (conn : RtmpConnection) (msg : RtmpMessage) :
    StreamManager → RtmpConnection → Prop
  /-- At most the media of the connection's stream changes. -/
  | media {m' : StreamManager} {conn' : RtmpConnection} (same : conn.SamePublish conn')
      (slots : m'.slots = m.slots)
      (media : ∀ k, m'.media k ≠ m.media k →
        k = conn.streamId ∧ m.slots k ≠ none ∧ (conn.isPublishing = true ∨ isConfig msg = true)) :
      Handled own m conn msg m' conn'
  /-- The connection has another stream. -/
  | renames {conn' : RtmpConnection} (name : StreamId) (renamed : conn.renamed msg = some name)
      (same : SamePublish { conn with streamId := name } conn') : Handled own m conn msg m conn'
  /-- A `publish` finds the slot taken. -/
  | rejects {m' : StreamManager} {conn' : RtmpConnection} (name : StreamId)
      (published : conn.published msg = some name)
      (taken : ¬ m.Accepts own name) (same : conn.SamePublish conn')
      (slots : m'.slots = create m.slots name) (media : ∀ k, m'.media k = m.media k) :
      Handled own m conn msg m' conn'
  /-- A `publish` takes the slot. -/
  | accepts {m' : StreamManager} {conn' : RtmpConnection} (name : StreamId)
      (published : conn.published msg = some name)
      (free : m.Accepts own name)
      (same : SamePublish
        { conn with isPublishing := true, streamId := name, publisherId := some own } conn')
      (slots : m'.slots = acquire (create m.slots name) name own)
      (media : ∀ k, m'.media k ≠ m.media k → k = name ∧ m'.media k = StreamManager.noMedia) :
      Handled own m conn msg m' conn'
  /-- Publishing ends. -/
  | ends {conn' : RtmpConnection} (same : (releasePublishConnection m conn).2.SamePublish conn') :
      Handled own m conn msg (releasePublishConnection m conn).1 conn'

variable {m m' : StreamManager} {conn conn' : RtmpConnection} {msg : RtmpMessage}
  {peerAddr own : String} {w : Bool} {o : RtmpOutcome}

/-- A message that leaves everything alone but the session and its counters. -/
theorem Handled.of_same (same : conn.SamePublish conn') : Handled own m conn msg m conn' :=
  .media same rfl fun _ hk => absurd rfl hk

/-- A frame of the connection's stream, published while publishing. -/
theorem Handled.of_publishFrame {frame : MediaFrame} (same : conn.SamePublish conn')
    (hpub : conn.isPublishing = true) (hframe : frame.streamId = conn.streamId)
    (h : m.publishFrame frame = some m') : Handled own m conn msg m' conn' := by
  refine .media same (StreamManager.slots_publishFrame h) fun k hk => ?_
  obtain ⟨rfl, hne⟩ := (StreamManager.onlyAt_publishFrame h).of_media_ne hk
  exact ⟨hframe, hne, .inl hpub⟩

/-- The stream of a video frame is the connection's. -/
theorem videoFrame_streamId {s : StreamId} {frame : MediaFrame}
    (h : videoFrame s msg = some frame) : frame.streamId = s := by
  simp only [videoFrame, Option.ite_none_left_eq_some, Option.some.injEq] at h
  rw [← h.2]
  rfl

theorem handleVideo_handled (h9 : msg.msgType = 0x09)
    (h : handleVideo m conn msg = some (m', conn', o)) : Handled own m conn msg m' conn' := by
  simp only [handleVideo] at h
  split at h
  · cases h
    exact .of_same (.refl conn)
  · split at h
    · next hheader =>
      -- the sequence header, whether or not the connection publishes
      split at h
      · cases h
        exact .of_same (.refl conn)
      · next sps pps hconfig =>
        cases h
        refine .media (.refl conn) (StreamManager.slots_setStreamSpsPps _ _ _ _) fun k hk => ?_
        obtain ⟨rfl, hne⟩ := (StreamManager.onlyAt_setStreamSpsPps _ _ _ _).of_media_ne hk
        exact ⟨rfl, hne, .inr (by simp [isConfig, h9, hheader, hconfig])⟩
    · split at h
      · split at h
        · cases h
          exact .of_same ⟨rfl, rfl, rfl⟩
        · split at h
          · next hpub =>
            split at h
            · cases h
              exact .of_same ⟨rfl, rfl, rfl⟩
            · next frame hframe =>
              obtain ⟨m₁, hm₁, heq⟩ := Option.map_eq_some_iff.mp h
              cases heq
              exact .of_publishFrame ⟨rfl, rfl, rfl⟩ hpub (videoFrame_streamId hframe) hm₁
          · cases h
            exact .of_same ⟨rfl, rfl, rfl⟩
      · cases h
        exact .of_same (.refl conn)

theorem handleAudio_handled (h : handleAudio m conn msg = some (m', conn', o)) :
    Handled own m conn msg m' conn' := by
  simp only [handleAudio] at h
  split at h
  · cases h
    exact .of_same (.refl conn)
  · split at h
    · next hpub =>
      obtain ⟨m₁, hm₁, heq⟩ := Option.map_eq_some_iff.mp h
      cases heq
      rw [Bool.and_eq_true] at hpub
      exact .of_publishFrame ⟨rfl, rfl, rfl⟩ hpub.1 rfl hm₁
    · cases h
      exact .of_same ⟨rfl, rfl, rfl⟩

/-! ### Making a stream ready -/

@[simp] theorem slots_ensureStream (m : StreamManager) (s : StreamId) :
    (ensureStream m s).slots = create m.slots s := by
  rw [ensureStream]
  split
  · exact StreamManager.slots_createStream _ _ _ _ _
  · next h =>
    rw [create, if_neg]
    rw [StreamManager.slots, Option.map_eq_none_iff]
    rwa [StreamManager.getStream, Option.map_eq_none_iff] at h

@[simp] theorem media_ensureStream (m : StreamManager) (s k : StreamId) :
    (ensureStream m s).media k = m.media k := by
  rw [ensureStream]
  split
  · exact StreamManager.media_createStream _ _ _ _ _ _
  · rfl

@[simp] theorem slots_ensureTracks (m : StreamManager) (s : StreamId) :
    (ensureTracks m s).slots = m.slots := by
  rw [ensureTracks]
  split
  · exact StreamManager.slots_setStreamTracks _ _ _
  · rfl

@[simp] theorem media_ensureTracks (m : StreamManager) (s k : StreamId) :
    (ensureTracks m s).media k = m.media k := by
  rw [ensureTracks]
  split
  · exact StreamManager.media_setStreamTracks _ _ _ _
  · rfl

/-! ### Commands -/

theorem publish_handled {args : List Amf0Value} (hcmd : commandOf msg = some ("publish", args)) :
    Handled (rtmpPublisherId peerAddr) m conn msg (publish m conn args peerAddr w).1
      (publish m conn args peerAddr w).2.1 := by
  have hname : conn.published msg = some (conn.session.handlePublish args).2 := by
    simp [published, hcmd]
  generalize hn : (conn.session.handlePublish args).2 = name at hname
  simp only [publish, hn]
  by_cases hav : Available (create m.slots name) name (rtmpPublisherId peerAddr)
  · have hav' : Available (ensureStream m name).slots name (rtmpPublisherId peerAddr) := by
      rwa [slots_ensureStream]
    -- the three status calls behind the acquisition touch neither slots nor media
    have hslots : ∀ st, ((ensureTracks ((ensureStream m name).acquirePublisher name
        (rtmpPublisherId peerAddr)).1 name).setStatus name st).1.slots =
          acquire (create m.slots name) name (rtmpPublisherId peerAddr) := by
      intro st
      simp
    have hmedia : ∀ k, ((ensureStream m name).acquirePublisher name
        (rtmpPublisherId peerAddr)).1.media k ≠ m.media k → k = name ∧
          ((ensureStream m name).acquirePublisher name (rtmpPublisherId peerAddr)).1.media k =
            StreamManager.noMedia := by
      intro k hk
      rw [← media_ensureStream m name k] at hk
      obtain ⟨rfl, -, hm⟩ := StreamManager.media_acquirePublisher_ne hk
      exact ⟨rfl, hm⟩
    have hok : ((ensureStream m name).acquirePublisher name (rtmpPublisherId peerAddr)).2 =
        .ok () := StreamManager.acquirePublisher_ok_iff.mpr hav'
    generalize (ensureStream m name).acquirePublisher name (rtmpPublisherId peerAddr) = r at *
    obtain ⟨m₁, e⟩ := r
    obtain rfl : e = .ok () := hok
    rcases w with _ | _
    · refine .accepts name hname hav ⟨rfl, rfl, rfl⟩ (hslots _) fun k hk => ?_
      simp [StreamManager.setUnpublished] at hk ⊢
      exact hmedia k hk
    · refine .accepts name hname hav ⟨rfl, rfl, rfl⟩ ?_ fun k hk => ?_
      · simp only [if_pos, StreamManager.setUnpublished, StreamManager.setPublishing,
          StreamManager.slots_setStatus]
        exact (StreamManager.slots_setStatus _ _ _).symm.trans (hslots .unpublished)
      · simp [StreamManager.setUnpublished, StreamManager.setPublishing] at hk ⊢
        exact hmedia k hk
  · have hav' : ¬ Available (ensureStream m name).slots name (rtmpPublisherId peerAddr) := by
      rwa [slots_ensureStream]
    obtain ⟨e, he⟩ := StreamManager.acquirePublisher_of_not_available hav'
    rw [he]
    exact .rejects name hname hav ⟨rfl, rfl, rfl⟩ (slots_ensureStream m name)
      (media_ensureStream m name)

/-- The end of publishing leaves the connection unpublished. -/
theorem releasePublishConnection_isPublishing (m : StreamManager) (conn : RtmpConnection) :
    (releasePublishConnection m conn).2.isPublishing = false := by
  rw [releasePublishConnection]
  split
  · rfl
  · next h => exact Bool.eq_false_iff.mpr h

/-- A connection that does not publish has nothing to give back. -/
theorem releasePublishConnection_of_not_publishing (h : conn.isPublishing = false) :
    releasePublishConnection m conn = (m, conn) := by
  rw [releasePublishConnection, if_neg (by simp [h])]

/-- A connection that publishes ends the publication of the stream that it names
**now**. -/
theorem releasePublishConnection_of_publishing (h : conn.isPublishing = true)
    (hid : conn.publisherId = some own) :
    (releasePublishConnection m conn).1 = m.unpublish conn.streamId own := by
  simp only [releasePublishConnection, if_pos h, hid]

/-- A connection that publishes as `own` **may** end that. -/
theorem authorisedChange_releasePublishConnection
    (hid : conn.isPublishing = true → conn.publisherId = some own) :
    m.AuthorisedChange own (releasePublishConnection m conn).1 := by
  rcases h : conn.isPublishing with _ | _
  · rw [releasePublishConnection_of_not_publishing h]
    exact .of_media fun _ => rfl
  · rw [releasePublishConnection_of_publishing h (hid h)]
    exact StreamManager.authorisedChange_unpublish own m conn.streamId

theorem handleAmf0Command_handled {command : String} {args : List Amf0Value}
    (hcmd : commandOf msg = some (command, args)) :
    Handled (rtmpPublisherId peerAddr) m conn msg
      (handleAmf0Command m conn command args peerAddr w).1
      (handleAmf0Command m conn command args peerAddr w).2.1 := by
  unfold handleAmf0Command
  split
  · exact .renames (conn.session.handleConnect args).2 (by simp [renamed, hcmd]) ⟨rfl, rfl, rfl⟩
  · exact .of_same (.refl conn)
  · exact .of_same (.refl conn)
  · exact .of_same (.refl conn)
  · rw [createStream]
    split
    · exact .of_same (.refl conn)
    · exact .of_same ⟨rfl, rfl, rfl⟩
  · exact publish_handled hcmd
  · exact .renames (conn.session.handlePlay args).2 (by simp [renamed, hcmd]) ⟨rfl, rfl, rfl⟩
  · exact .ends ⟨rfl, rfl, rfl⟩
  · exact .ends ⟨rfl, rfl, rfl⟩
  · exact .of_same (.refl conn)

/-! ### Messages -/

/-- **Every** message is one of the kinds. -/
theorem handleRtmpMessage_handled
    (h : handleRtmpMessage m conn msg peerAddr w = some (m', conn', o)) :
    Handled (rtmpPublisherId peerAddr) m conn msg m' conn' := by
  rw [handleRtmpMessage] at h
  split at h
  · next htype =>
    split at h
    · cases h
      exact .of_same (.refl conn)
    · next command args hparse =>
      have hcmd : commandOf msg = some (command, args) := by
        rw [commandOf, if_pos htype, hparse]
        rfl
      have hh : Handled (rtmpPublisherId peerAddr) m conn msg
          (handleAmf0Command m conn command args peerAddr w).1
          (handleAmf0Command m conn command args peerAddr w).2.1 := handleAmf0Command_handled hcmd
      rw [Option.some.inj h] at hh
      exact hh
  · split at h
    · next h9 => exact handleVideo_handled h9 h
    · split at h
      · exact handleAudio_handled h
      · split at h
        · obtain ⟨rfl, hset⟩ := Prod.mk.inj (Option.some.inj h)
          refine .of_same ?_
          rw [setChunkSize] at hset
          split at hset
          · cases hset
            exact ⟨rfl, rfl, rfl⟩
          · cases hset
            exact .refl conn
        · cases h
          exact .of_same (.refl conn)

/-- The handling of a message fails **only** if an answer cannot be written. -/
theorem failed_of_answer {replies : List RtmpReply}
    (h : RtmpOutcome.answer w replies = .failed) : w = false := by
  rcases w with _ | _
  · rfl
  · cases h

theorem handleAmf0Command_failed {command : String} {args : List Amf0Value}
    (h : (handleAmf0Command m conn command args peerAddr w).2.2 = .failed) :
    w = false ∧ command ∈ ["connect", "createStream", "publish", "play"] := by
  unfold handleAmf0Command at h
  split at h
  · exact ⟨failed_of_answer h, by simp⟩
  · cases h
  · cases h
  · cases h
  · refine ⟨?_, by simp⟩
    rw [createStream] at h
    split at h
    · cases h
    · exact failed_of_answer h
  · refine ⟨?_, by simp⟩
    simp only [publish] at h
    split at h
    · exact failed_of_answer h
    · split at h
      · cases h
      · next hw => exact Bool.eq_false_iff.mpr hw
  · exact ⟨failed_of_answer h, by simp⟩
  · cases h
  · cases h
  · cases h

theorem handleRtmpMessage_failed
    (h : handleRtmpMessage m conn msg peerAddr w = some (m', conn', .failed)) :
    w = false ∧ isAnswered msg = true := by
  rw [handleRtmpMessage] at h
  split at h
  · next htype =>
    split at h
    · cases h
    · next command args hparse =>
      have hcmd : commandOf msg = some (command, args) := by
        rw [commandOf, if_pos htype, hparse]
        rfl
      have hfail : (handleAmf0Command m conn command args peerAddr w).2.2 = .failed := by
        rw [Option.some.inj h]
      obtain ⟨hw, hmem⟩ := handleAmf0Command_failed hfail
      exact ⟨hw, by simpa [isAnswered, hcmd] using hmem⟩
  · split at h
    · simp only [handleVideo] at h
      repeat' split at h
      all_goals first | cases h | (obtain ⟨_, -, heq⟩ := Option.map_eq_some_iff.mp h; cases heq)
    · split at h
      · simp only [handleAudio] at h
        repeat' split at h
        all_goals first | cases h | (obtain ⟨_, -, heq⟩ := Option.map_eq_some_iff.mp h; cases heq)
      · split at h
        · have hfail : (conn.setChunkSize msg.payload).2 = .failed :=
            congrArg Prod.snd (congrArg Prod.snd (Option.some.inj h))
          rw [setChunkSize] at hfail
          split at hfail <;> cases hfail
        · cases h

end RtmpConnection

end VcpMediaServer
