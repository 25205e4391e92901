import VcpMediaServer.Exchange
import VcpMediaServer.RtmpHandshake
import VcpMediaServer.RtmpRelay

/-!
# The opening of an RTMP connection

A puller and the server that it pulls from, up to where the media begin: the handshake, `connect`,
`createStream` and `play`, each with a wait for its answer. A wait ends after 200 reads, whatever
they bring.

* `parseRtmpUrl` — what is pulled.
* `buildConnectCommand`, `buildCreateStreamCommand`, `buildPlayCommand` — the commands.
* `resultAnswer`, `createStreamAnswer` — what the waits look for.
* `PullConnection.read` — a read of the puller.
* `RtmpServing.read` — a read of the server.
* `opening` — both, as an exchange.
-/

namespace VcpMediaServer

/-! ## What is pulled -/

/-- What `Url::parse` gives of a URL. -/
structure ParsedUrl where
  /-- The scheme. -/
  scheme : String
  /-- The host. -/
  host : Option String
  /-- The port, if there is one in the URL. -/
  port : Option UInt16
  /-- The path. -/
  path : List Char

/-- `RtmpUrl`. -/
structure RtmpUrl where
  /-- The host. -/
  host : String
  /-- The port. -/
  port : UInt16
  /-- The application. -/
  app : String
  /-- The stream. -/
  streamName : String
  /-- The URL of the application. -/
  tcUrl : String

/-- `parse_rtmp_url`. -/
def parseRtmpUrl (parse : String → Except String ParsedUrl) (url : String) :
    Except String RtmpUrl :=
  match parse url with
  | .error e => .error ("Invalid RTMP URL: " ++ e)
  | .ok parsed =>
    if parsed.scheme ≠ "rtmp" then .error ("URL scheme must be rtmp, got " ++ parsed.scheme)
    else
      match parsed.host with
      | none => .error "Missing host in RTMP URL"
      | some host =>
        let port := parsed.port.getD 1935
        let path := parsed.path.dropWhile (· == '/')
        let parts := (path.splitOn '/').filter (· ≠ [])
        if parts.length < 2 then
          .error ("RTMP URL path must be /<app>/<stream_name>, got /" ++ String.ofList path)
        else
          let streamName := String.ofList (parts.getLastD [])
          let app := String.ofList (['/'].intercalate parts.dropLast)
          let tcUrl := "rtmp://" ++ host ++ ":" ++ toString port.toNat ++ "/" ++ app
          .ok { host, port, app, streamName, tcUrl }

/-- `CLIENT_CHUNK_SIZE`. -/
def clientChunkSize : ℕ := 128

/-- `tx_id` of `connect`, which is 1. -/
def connectTxId : UInt64 := 0x3FF0000000000000

/-- `tx_id` of `createStream`, which is 2. -/
def createStreamTxId : UInt64 := 0x4000000000000000

/-- `tx_id` of `play`, which is 3. -/
def playTxId : UInt64 := 0x4008000000000000

/-- The properties of `connect`. -/
def connectProps (app tcUrl : String) : List (String × Amf0Value) :=
  [("app", .string app), ("flashVer", .string "FMLE/3.0 (compatible; Lavf58.2.100)"),
    ("tcUrl", .string tcUrl), ("fpad", .boolean false),
    ("capabilities", .number 0x402E000000000000), ("audioCodecs", .number 0x40AFCE0000000000),
    ("videoCodecs", .number 0x406F800000000000), ("videoFunction", .number 0x3FF0000000000000)]

/-- `build_connect_command`, with its chunk stream. -/
def buildConnectCommand (order : MapOrder) (txId : UInt64) (app tcUrl : String) : ℕ × RtmpMessage :=
  (3,
    ⟨0x14, 0, 0, Amf0.encode [.string "connect", .number txId,
    .object (order.visit (connectProps app tcUrl))]⟩)

/-- `build_create_stream_command`. -/
def buildCreateStreamCommand (txId : UInt64) : ℕ × RtmpMessage :=
  (3, ⟨0x14, 0, 0, Amf0.encode [.string "createStream", .number txId, .null]⟩)

/-- `build_play_command`. The start is -2000, for a live stream. -/
def buildPlayCommand (txId : UInt64) (streamName : String) (msgStreamId : UInt32) :
    ℕ × RtmpMessage :=
  (3, ⟨0x14, 0, msgStreamId,
    Amf0.encode [.string "play", .number txId, .null, .string streamName,
      .number 0xC09F400000000000]⟩)

/-- The bytes of a command. -/
def commandBytes (command : ℕ × RtmpMessage) : List UInt8 :=
  (encodeAll [(clientChunkSize, command)]).getD []

/-! ## What the waits look for -/

/-- A double as a multiple of `2 ^ (-1074)`, if it is finite. -/
def f64Units (bits : UInt64) : Option ℤ :=
  let exponent := bits.toNat / 2 ^ 52 % 2048
  let fraction := bits.toNat % 2 ^ 52
  if exponent = 2047 then none
  else
    let magnitude : ℕ := if exponent = 0 then fraction else (2 ^ 52 + fraction) * 2 ^ (exponent - 1)
    some (if bits.toNat / 2 ^ 63 = 1 then -magnitude else magnitude)

/-- `(id - tx_id).abs() < 0.001`. Numbers that are so close have an exact difference. -/
def isNear (id txId : UInt64) : Bool :=
  match f64Units id, f64Units txId, f64Units 0x3F50624DD2F1A9FC with
  | some a, some b, some limit => (a - b).natAbs < limit.natAbs
  | _, _, _ => false

/-- `as u32` of a double: what does not fit is the nearest number that does. -/
def f64AsU32 (bits : UInt64) : UInt32 :=
  match f64Units bits with
  | some units => UInt32.ofNat (min (units.toNat / 2 ^ 1074) (2 ^ 32 - 1))
  | none => if bits = 0x7FF0000000000000 then 0xFFFFFFFF else 0

/-- What a message is to a wait. -/
inductive WaitAnswer (α : Type) where
  | found (a : α)
  | failed
  | nothing
  deriving DecidableEq

/-- The command in a message of the server. -/
def serverCommand (msg : RtmpMessage) : Option (String × List Amf0Value) :=
  if msg.msgType = 0x14 ∨ msg.msgType = 0x11 then (Amf0.parseCommand msg.payload).toOption else none

/-- The code of an `onStatus`. -/
def statusCode (args : List Amf0Value) : Option String :=
  match args[2]? with
  | some (Amf0Value.object info) =>
    match info.lookup "code" with
    | some (Amf0Value.string code) => some code
    | _ => none
  | _ => none

/-- A `_result` for the transaction. -/
def isResult (txId : UInt64) (args : List Amf0Value) : Bool :=
  match args.head? with
  | some (Amf0Value.number id) => isNear id txId
  | _ => false

/-- What `wait_for_result` finds in a message. -/
def resultAnswer (txId : UInt64) (msg : RtmpMessage) : WaitAnswer Unit :=
  match serverCommand msg with
  | none => .nothing
  | some (cmd, args) =>
    if cmd = "_result" then if isResult txId args then .found () else .nothing
    else if cmd = "_error" then .failed
    else if cmd = "onStatus" then
      match statusCode args with
      | some code =>
        if RtmpPull.containsWord "Failed" code || RtmpPull.containsWord "NotFound" code then .failed
        else .nothing
      | none => .nothing
    else .nothing

/-- What `wait_for_create_stream` finds in a message: the stream id. -/
def createStreamAnswer (txId : UInt64) (msg : RtmpMessage) : WaitAnswer UInt32 :=
  match serverCommand msg with
  | none => .nothing
  | some (cmd, args) =>
    if cmd = "_result" then
      if isResult txId args then
        match args[2]? with
        | some (Amf0Value.number streamId) => .found (f64AsU32 streamId)
        | _ => .nothing
      else .nothing
    else if cmd = "_error" then .failed
    else .nothing

/-! ## The puller -/

/-- Where `pull` is, up to the relay loop. -/
inductive PullStage where
  /-- `client_handshake`. -/
  | handshake
  /-- `wait_for_result`, for `connect`. -/
  | connect
  /-- `wait_for_create_stream`. -/
  | createStream
  /-- `wait_for_play_start`, on a message stream. -/
  | play (serverStreamId : UInt32)
  /-- The relay loop begins. -/
  | started
  /-- An error was returned. -/
  | failed
  deriving DecidableEq, Repr

/-- It is one of the waits. -/
def PullStage.waits : PullStage → Bool
  | .connect | .createStream | .play _ => true
  | _ => false

/-- The connection of a puller. -/
structure PullConnection where
  /-- Where it is. -/
  stage : PullStage
  /-- The reads that this wait has made. -/
  turns : ℕ
  /-- `chunk_size`. -/
  chunkSize : ℕ
  /-- `chunk_states` and `chunk_message_headers`. -/
  chunks : ChunkState
  /-- `buf`. -/
  buf : List UInt8
  /-- What has happened to the local stream. -/
  events : List RtmpPullEvent

/-- The reads of a wait. -/
def WAIT_TURNS : ℕ := 200

/-- S0, S1 and S2. -/
def responseSize : ℕ := 3073

namespace PullConnection

/-- The connection is made. -/
def new : PullConnection :=
  { stage := .handshake, turns := 0, chunkSize := initialChunkSize, chunks := .new, buf := [],
    events := [] }

/-- A message, in a wait: where the puller is then, and the command that it writes. -/
def onMessage (url : RtmpUrl) (c : PullConnection) (msg : RtmpMessage) :
    PullConnection × List UInt8 :=
  match c.stage with
  | .connect =>
    match resultAnswer connectTxId msg with
    | .found () =>
      ({ c with stage := .createStream, turns := 0 },
        commandBytes (buildCreateStreamCommand createStreamTxId))
    | .failed => ({ c with stage := .failed }, [])
    | .nothing => (c, [])
  | .createStream =>
    match createStreamAnswer createStreamTxId msg with
    | .found serverStreamId =>
      ({ c with stage := .play serverStreamId, turns := 0, events := c.events ++ [.created] },
        commandBytes (buildPlayCommand playTxId url.streamName serverStreamId))
    | .failed => ({ c with stage := .failed }, [])
    | .nothing => (c, [])
  | .play _ =>
    let c := { c with events := c.events ++ [.message msg] }
    match RtmpPull.playAnswer msg with
    | .started => ({ c with stage := .started }, [])
    | .failed => ({ c with stage := .failed }, [])
    | .nothing => (c, [])
  | _ => (c, [])

/-- A chunk, in a wait. What is left behind the answer of a wait is looked at by the next wait. -/
def takeChunk (url : RtmpUrl) (c : PullConnection) (buf : List UInt8) :
    Option (PullConnection × List UInt8 × List UInt8) :=
  if c.stage.waits then
    match c.chunks.takeChunk c.chunkSize buf with
    | none => none
    | some (chunks, rest, none) => some ({ c with chunks }, rest, [])
    | some (chunks, rest, some msg) =>
      let chunkSize := (handleControlMessage msg.payload msg.msgType).getD c.chunkSize
      let r := onMessage url { c with chunks, chunkSize } msg
      some (r.1, rest, r.2)
  else none

/-- A wait is over without its answer. The last one goes on all the same. -/
def expire (c : PullConnection) : PullConnection :=
  match c.stage with
  | .play _ => { c with stage := .started, events := c.events ++ [.waitOver] }
  | _ => { c with stage := .failed }

/-- No more messages are in the buffer. -/
def leave (c : PullConnection) (rest : List UInt8) : PullConnection :=
  { c with chunks := if c.stage.waits then c.chunks.seeHeader rest else c.chunks, buf := rest }

/-- What the next read takes at most. -/
def room (c : PullConnection) : ℕ :=
  match c.stage with
  | .handshake => responseSize - c.buf.length
  | .connect | .createStream | .play _ => 4096
  | .started | .failed => 0

/-- A read, with what is written then. -/
def read (order : MapOrder) (url : RtmpUrl) (c : PullConnection) (bytes : List UInt8) :
    PullConnection × List UInt8 :=
  let buf := c.buf ++ bytes
  if c.stage = .handshake then
    if buf.length < responseSize then ({ c with buf }, [])
    else if buf.headD 0 ≠ 0x03 then ({ c with stage := .failed, buf := [] }, [])
    else
      -- C2 is what S1 was, and `connect` is sent without waiting for anything
      ({ c with stage := .connect, buf := [] },
        slice buf 1 handshakeSize ++
          commandBytes (buildConnectCommand order connectTxId url.app url.tcUrl))
  else if c.stage.waits then
    let c := { c with turns := c.turns + 1 }
    if c.turns = WAIT_TURNS then ({ c.expire with buf }, [])
    else
      let d := Incremental.drain (takeChunk url) c buf
      (d.2.1.leave d.2.2, d.1)
  else (c, [])

end PullConnection

/-- A puller as a party. -/
def puller (order : MapOrder) (url : RtmpUrl) : Exchange.Party PullConnection UInt8 where
  room := PullConnection.room
  read := PullConnection.read order url

/-! ## The server -/

/-- A connection of the server, in `handle_connection`. -/
structure RtmpServing where
  /-- `handshake_done`. -/
  handshakeDone : Bool
  /-- `handshake_first_call`. -/
  firstCall : Bool
  /-- `chunk_size` and `pending_chunk_size`. -/
  vars : ServerVars
  /-- The chunk states and the last headers. -/
  chunks : ChunkState
  /-- The connection. -/
  conn : RtmpConnection
  /-- The streams, which nobody else changes meanwhile. -/
  manager : StreamManager
  /-- A handler has returned an error, or has panicked. -/
  closed : Bool
  /-- `buf`. -/
  buf : List UInt8

namespace RtmpServing

/-- The connection is accepted. -/
def new (m : StreamManager) : RtmpServing :=
  { handshakeDone := false, firstCall := true, vars := .new, chunks := .new, conn := .new,
    manager := m, closed := false, buf := [] }

/-- The bytes of answers. -/
def replyBytes (order : MapOrder) (session : RtmpSession) (replies : List RtmpReply) : List UInt8 :=
  (encodeAll (replies.map fun reply =>
    (reply.chunkSize session.chunkSize, reply.toMessage order session.serverStreamId))).getD []

/-- A message, with the answers to it. Every answer can be written. -/
def onMessage (order : MapOrder) (peerAddr : String) (s : RtmpServing) (msg : RtmpMessage) :
    RtmpServing × List UInt8 :=
  match RtmpConnection.handleRtmpMessage s.manager s.conn msg peerAddr true with
  | some (manager, conn, .done replies newChunkSize) =>
    ({ s with
        manager, conn
        vars := { s.vars with
          pendingChunkSize := newChunkSize.elim s.vars.pendingChunkSize some } },
      replyBytes order conn.session replies)
  | some (manager, conn, _) => ({ s with manager, conn, closed := true }, [])
  | none => ({ s with closed := true }, [])

/-- A chunk. -/
def takeChunk (order : MapOrder) (peerAddr : String) (s : RtmpServing) (buf : List UInt8) :
    Option (RtmpServing × List UInt8 × List UInt8) :=
  if s.closed then none
  else
    match s.chunks.takeChunk s.vars.chunkSize buf with
    | none => none
    | some (chunks, rest, none) => some ({ s with chunks }, rest, [])
    | some (chunks, rest, some msg) =>
      let r := onMessage order peerAddr { s with chunks } msg
      some (r.1, rest, r.2)

/-- The messages in the buffer, and what is done behind them. -/
def serve (order : MapOrder) (peerAddr : String) (s : RtmpServing) (buf : List UInt8) :
    RtmpServing × List UInt8 :=
  let d := Incremental.drain (takeChunk order peerAddr) s buf
  if d.2.1.closed then ({ d.2.1 with buf := d.2.2 }, d.1)
  else
    ({ d.2.1 with
        vars := serverLoop.afterRead d.2.1.vars
        chunks := d.2.1.chunks.seeHeader d.2.2
        buf := d.2.2 }, d.1)

/-- A read, with what is written then. -/
def read (order : MapOrder) (peerAddr : String) (s : RtmpServing) (bytes : List UInt8) :
    RtmpServing × List UInt8 :=
  let buf := s.buf ++ bytes
  if s.closed then (s, [])
  else if s.handshakeDone then s.serve order peerAddr buf
  else
    match handleHandshake buf s.firstCall with
    | (true, rest, response) =>
      let conn := { s.conn with session := { s.conn.session with state := .connected } }
      let r := RtmpServing.serve order peerAddr { s with handshakeDone := true, conn } rest
      (r.1, response ++ r.2)
    | (false, rest, response) => ({ s with firstCall := false, buf := rest }, response)

end RtmpServing

/-- A connection of the server as a party. -/
def serving (order : MapOrder) (peerAddr : String) : Exchange.Party RtmpServing UInt8 where
  room s := if s.closed then 0 else 8192
  read := RtmpServing.read order peerAddr

/-- C0 and C1. -/
def c0c1 : List UInt8 := 0x03 :: List.replicate handshakeSize 0

/-- The connection is made, and the puller has written C0 and C1. -/
def opening (m : StreamManager) : Exchange.State PullConnection RtmpServing UInt8 where
  client := .new
  server := .new m
  toClient := []
  toServer := c0c1

end VcpMediaServer
