import VcpMediaServer.RtmpParties

/-!
# What a puller and its server say to each other

* `toServing` — the three commands of the puller, on one chunk stream.
* `toPuller` — the answers of the server, up to its first answer to `play`.
* `RtmpServing.follows_toServing` — the server does not fail on the commands.
* `PullConnection.follows_toPuller` — every answer ends the wait that it is for, and nothing else
  does.
-/

namespace VcpMediaServer

open Exchange Lts

/-! ## Chunks -/

theorem basicHeader_ne_nil (fmt : ChunkFmt) (csId : ℕ) (form : BasicForm) :
    basicHeader fmt csId form ≠ [] := by
  cases form <;> simp [basicHeader]

theorem completes_laterChunks (csId : ℕ) (msg : RtmpMessage) {parts : List (List UInt8)}
    (h : parts ≠ []) :
    Exchange.Completes [msg] (laterChunks csId msg parts) := by
  induction parts with
  | nil => exact absurd rfl h
  | cons part parts ih =>
    have hne : basicHeader .type3 csId (formOf csId) ++ part ≠ [] :=
      List.append_ne_nil_of_left_ne_nil (basicHeader_ne_nil _ _ _) _
    rw [laterChunks]
    by_cases hparts : parts = []
    · rw [if_pos hparts, hparts]
      exact .message hne .nil
    · rw [if_neg hparts]
      exact .part hne (List.cons_ne_nil _ _) (ih hparts)

/-- The chunks of a message complete it, with the last of them. -/
theorem completes_messageChunks {size csId : ℕ} {msg : RtmpMessage} (hpos : 0 < size)
    (hmsg : msg.payload ≠ []) :
    Exchange.Completes [msg] (messageChunks size csId msg) := by
  have hne : ∀ part, basicHeader .type0 csId (formOf csId) ++
      (messageHeader msg.timestamp msg .type0 ++ extendedTimestamp msg.timestamp) ++ part ≠ [] :=
        fun part =>
    List.append_ne_nil_of_left_ne_nil
      (List.append_ne_nil_of_left_ne_nil (basicHeader_ne_nil _ _ _) _) _
  rw [messageChunks, pieces_of_ne_nil hpos hmsg]
  dsimp only
  by_cases hparts : pieces size (msg.payload.drop size) = []
  · rw [if_pos hparts, hparts]
    exact .message (hne _) .nil
  · rw [if_neg hparts]
    exact .part (hne _) (List.cons_ne_nil _ _) (completes_laterChunks csId msg hparts)

/-- The chunks of messages on one chunk stream. -/
theorem completes_flatMap_messageChunks {size csId : ℕ} (hpos : 0 < size) {msgs : List RtmpMessage}
    (h : ∀ msg ∈ msgs, msg.payload ≠ []) :
    Exchange.Completes msgs (msgs.flatMap (messageChunks size csId)) := by
  induction msgs with
  | nil => exact .nil
  | cons msg msgs ih =>
    obtain ⟨hmsg, hmsgs⟩ := List.forall_mem_cons.mp h
    exact (completes_messageChunks hpos hmsg).append (ih hmsgs)

/-- The chunks of messages that may announce sizes. -/
theorem completes_announced {sent : List (ℕ × RtmpMessage)} (hsent : ∀ p ∈ sent, Announceable p)
    {size : ℕ} (hpos : 0 < size) :
    Exchange.Completes (sent.map Prod.snd) (announced size sent) := by
  induction sent generalizing size with
  | nil => exact .nil
  | cons p sent ih =>
    obtain ⟨hp, hsent⟩ := List.forall_mem_cons.mp hsent
    exact (completes_messageChunks hpos hp.sendable.payload).append
      (ih hsent (hp.sizeAfter_pos hpos))

/-- The size behind messages. -/
def sizeBehind (size : ℕ) (sent : List (ℕ × RtmpMessage)) : ℕ :=
  sent.foldl (fun size p => sizeAfter size p.2) size

theorem announced_append (size : ℕ) (sent sent' : List (ℕ × RtmpMessage)) :
    announced size (sent ++ sent') = announced size sent ++
        announced (sizeBehind size sent) sent' := by
  induction sent generalizing size with
  | nil => rfl
  | cons p sent ih =>
    rw [List.cons_append, announced, announced, ih, List.append_assoc]
    rfl

/-- The bytes of messages that are cut with any sizes. -/
theorem encodeAll_of_pos {out : List (ℕ × ℕ × RtmpMessage)} (h : ∀ p ∈ out, 0 < p.1) :
    encodeAll out =
        some (out.flatMap fun p => (messageChunks p.1 p.2.1 p.2.2).flatMap Prod.fst) := by
  induction out with
  | nil => rfl
  | cons p out ih =>
    obtain ⟨hp, hout⟩ := List.forall_mem_cons.mp h
    obtain ⟨parts, hparts, hflatten⟩ := Option.map_eq_some_iff.mp (ih hout)
    rw [encodeAll, List.mapM_cons, encodeMessage_eq hp p.2.2 p.2.1 (Nat.lt_succ_self _), hparts]
    simp only [Option.pure_def, Option.bind_eq_bind, Option.bind_some, Option.map_some,
      List.flatten_cons, hflatten, List.flatMap_cons]

theorem commandBytes_eq (command : ℕ × RtmpMessage) :
    commandBytes command =
        (messageChunks clientChunkSize command.1 command.2).flatMap Prod.fst := by
  rw [commandBytes,
    encodeAll_of_pos (List.forall_mem_singleton.mpr (show 0 < clientChunkSize by decide)),
    Option.getD_some, List.flatMap_singleton]

/-! ## The commands -/

/-- What a URL can be pulled by: its texts fit into a command, and there is a stream in it. -/
structure RtmpUrl.Fits (url : RtmpUrl) : Prop where
  app : url.app.toByteArray.size < 65536
  tcUrl : url.tcUrl.toByteArray.size < 65536
  streamName : url.streamName.toByteArray.size < 65536
  streamName_ne : url.streamName ≠ ""

/-- The last part of a path that has parts has something in it. -/
theorem ofList_getLastD_ne {parts : List (List Char)} (hne : parts ≠ [])
    (hparts : ∀ part ∈ parts, part ≠ []) :
    String.ofList (parts.getLastD []) ≠ "" := by
  have hmem : parts.getLastD [] ∈ parts := by
    rw [List.getLastD_eq_getLast?, List.getLast?_eq_some_getLast hne, Option.getD_some]
    exact List.getLast_mem hne
  intro hempty
  refine hparts _ hmem ?_
  rw [← @String.toList_ofList (parts.getLastD []), hempty]
  rfl

/-- A URL that is parsed has a stream in it, and its application is in the URL of the application.
-/
theorem RtmpUrl.fits_of_parse {parse : String → Except String ParsedUrl} {text : String}
    {url : RtmpUrl} (h : parseRtmpUrl parse text = .ok url)
    (htcUrl : url.tcUrl.toByteArray.size < 65536)
    (hname : url.streamName.toByteArray.size < 65536) : url.Fits := by
  unfold parseRtmpUrl at h
  split at h
  · cases h
  · split at h
    · cases h
    · split at h
      · cases h
      · dsimp only at h
        split at h
        · cases h
        · next hlen =>
          obtain rfl := Except.ok.inj h
          refine ⟨?_, htcUrl, hname, ofList_getLastD_ne ?_ fun part hpart => ?_⟩
          · dsimp only at htcUrl ⊢
            rw [String.toByteArray_append, ByteArray.size_append] at htcUrl
            omega
          · intro hnil
            rw [hnil] at hlen
            exact hlen (Nat.succ_pos 1)
          · exact of_decide_eq_true (List.mem_filter.mp hpart).2

variable {url : RtmpUrl} (order : MapOrder) (peerAddr : String) (m : StreamManager)

/-- The properties of `connect`. -/
theorem soundProps_connect (h : url.Fits) :
    Amf0Value.SoundProps (connectProps url.app url.tcUrl) := by
  have hflash : "FMLE/3.0 (compatible; Lavf58.2.100)".toByteArray.size < 65536 := by decide
  simp only [connectProps, Amf0Value.SoundProps, Amf0Value.SoundProp, Amf0Value.Sound,
    List.map_cons, List.map_nil]
  exact ⟨by decide,
    ⟨by decide, by decide, h.app⟩, by decide,
    ⟨by decide, by decide, hflash⟩, by decide,
    ⟨by decide, by decide, h.tcUrl⟩, by decide,
    ⟨by decide, by decide, trivial⟩, by decide,
    ⟨by decide, by decide, trivial⟩, by decide,
    ⟨by decide, by decide, trivial⟩, by decide,
    ⟨by decide, by decide, trivial⟩, by decide, ⟨by decide, by decide, trivial⟩, trivial⟩

/-- `connect` is read back. -/
theorem parseCommand_connect (h : url.Fits) :
    Amf0.parseCommand (buildConnectCommand order connectTxId url.app url.tcUrl).2.payload =
      .ok ("connect",
          [.number connectTxId, .object (order.visit (connectProps url.app url.tcUrl))]) := by
  refine parseCommand_encode (by decide) ?_ ?_
  · exact List.forall_mem_cons.mpr ⟨trivial, List.forall_mem_singleton.mpr
      (order.sound_object (soundProps_connect h))⟩
  · exact List.forall_mem_cons.mpr ⟨by decide, List.forall_mem_singleton.mpr rfl⟩

/-- `createStream` is read back. -/
theorem parseCommand_createStream :
    Amf0.parseCommand (buildCreateStreamCommand createStreamTxId).2.payload =
      .ok ("createStream", [.number createStreamTxId, .null]) := by
  refine parseCommand_encode (by decide) ?_ ?_
  · exact List.forall_mem_cons.mpr ⟨trivial, List.forall_mem_singleton.mpr trivial⟩
  · exact List.forall_mem_cons.mpr ⟨by decide, List.forall_mem_singleton.mpr rfl⟩

/-- `play` is read back. -/
theorem parseCommand_play (h : url.Fits) (serverStreamId : UInt32) :
    Amf0.parseCommand (buildPlayCommand playTxId url.streamName serverStreamId).2.payload =
      .ok ("play",
        [.number playTxId, .null, .string url.streamName, .number 0xC09F400000000000]) := by
  refine parseCommand_encode (by decide) ?_ ?_
  · exact List.forall_mem_cons.mpr
      ⟨trivial, List.forall_mem_cons.mpr ⟨trivial, List.forall_mem_cons.mpr
      ⟨h.streamName, List.forall_mem_singleton.mpr trivial⟩⟩⟩
  · exact List.forall_mem_cons.mpr
      ⟨by decide, List.forall_mem_cons.mpr ⟨rfl, List.forall_mem_cons.mpr
      ⟨rfl, List.forall_mem_singleton.mpr (by decide)⟩⟩⟩

theorem length_number (n : UInt64) : (Amf0.encodeValue (.number n)).length = 9 :=
  congrArg (· + 1) (length_toBe 8 n.toNat)

/-- `connect` can be sent. -/
theorem sendable_connect (h : url.Fits) :
    Sendable 3 (buildConnectCommand order connectTxId url.app url.tcUrl).2 := by
  refine ⟨by decide, by decide, List.cons_ne_nil _ _, ?_⟩
  have happ := h.app
  have htcUrl := h.tcUrl
  have hsize : (Amf0.encodeObjectProperties (connectProps url.app url.tcUrl)).length ≤
      1024 + url.app.toByteArray.size + url.tcUrl.toByteArray.size := by
    have hkeys : (Amf0.encodeString "app").length = 5 ∧ (Amf0.encodeString "tcUrl").length = 7 ∧
        (Amf0.encodeProperty ("flashVer", .string "FMLE/3.0 (compatible; Lavf58.2.100)")).length =
          48 ∧
        (Amf0.encodeProperty ("fpad", .boolean false)).length = 8 := by decide
    obtain ⟨h₁, h₂, h₃, h₄⟩ := hkeys
    have hnumbers : (Amf0.encodeProperty ("capabilities", .number 0x402E000000000000)).length = 23 ∧
        (Amf0.encodeProperty ("audioCodecs", .number 0x40AFCE0000000000)).length = 22 ∧
        (Amf0.encodeProperty ("videoCodecs", .number 0x406F800000000000)).length = 22 ∧
        (Amf0.encodeProperty ("videoFunction", .number 0x3FF0000000000000)).length = 24 := by decide
    obtain ⟨h₅, h₆, h₇, h₈⟩ := hnumbers
    simp only [connectProps, Amf0.encodeObjectProperties, List.length_append, List.length_nil, h₃,
      h₄, h₅, h₆, h₇, h₈]
    simp only [Amf0.encodeProperty, List.length_append, h₁, h₂, RtmpReply.length_encodeString]
    omega
  simp only [buildConnectCommand, Amf0.encode, List.flatMap_cons, List.flatMap_nil,
    List.length_append, List.length_nil, order.length_encodeValue, length_number,
    RtmpReply.length_encodeString]
  rw [Amf0.encodeValue, List.length_cons, List.length_append]
  have hconnect : "connect".toByteArray.size = 7 := by decide
  simp only [List.length_cons, List.length_nil, hconnect]
  omega

theorem sendable_createStream : Sendable 3 (buildCreateStreamCommand createStreamTxId).2 :=
  ⟨by decide, by decide, List.cons_ne_nil _ _, by decide⟩

theorem sendable_play (h : url.Fits) (serverStreamId : UInt32) :
    Sendable 3 (buildPlayCommand playTxId url.streamName serverStreamId).2 := by
  refine ⟨by decide, by decide, List.cons_ne_nil _ _, ?_⟩
  have hname := h.streamName
  have hplay : "play".toByteArray.size = 4 := by decide
  have hnull : (Amf0.encodeValue .null).length = 1 := by decide
  simp only [buildPlayCommand, Amf0.encode, List.flatMap_cons, List.flatMap_nil, List.length_append,
    List.length_nil, length_number, RtmpReply.length_encodeString, hplay, hnull]
  omega

/-! ## The server -/

/-- The connection of the server, behind the handshake. -/
def handshaken : RtmpConnection :=
  { RtmpConnection.new with session := { RtmpSession.new with state := .connected } }

/-- It has an application. -/
def connected (url : RtmpUrl) : RtmpConnection :=
  { handshaken with session := { handshaken.session with app := url.app }, streamId := url.app }

/-- It has a message stream. -/
def created (url : RtmpUrl) : RtmpConnection :=
  { connected url with
    session := { (connected url).session with
      serverStreamId := 1
      state := .ready
      transactionId := createStreamTxId } }

/-- It plays the stream, or would. -/
def playing (url : RtmpUrl) : RtmpConnection :=
  { created url with
    session :=
      { (created url).session with streamName := url.streamName, mode := .play, state := .playing }
    streamId := url.streamName }

/-- The answers to `connect`. -/
def connectReplies : List RtmpReply :=
  [.windowAckSize 2500000, .setPeerBandwidth 2500000 2, .setChunkSize 4096,
    .connectResult connectTxId]

/-- The answer to `createStream`. -/
def createStreamReplies : List RtmpReply := [.createStreamResult createStreamTxId 1]

theorem handle_connect (h : url.Fits) :
    RtmpConnection.handleRtmpMessage m handshaken
      (buildConnectCommand order connectTxId url.app url.tcUrl).2 peerAddr
      true = some (m, connected url, .done connectReplies none) := by
  have happ : Amf0.getStringProp (.object (order.visit (connectProps url.app url.tcUrl))) "app" =
      some url.app := by
    have hlookup := order.lookup_visit (MapOrder.soundProps_iff.mp (soundProps_connect h)).1
      (show ("app", Amf0Value.string url.app) ∈
        connectProps url.app url.tcUrl from List.mem_cons_self)
    rw [Amf0.getStringProp, Amf0Value.asObject, Option.bind_some, hlookup]
    rfl
  rw [RtmpConnection.handleRtmpMessage, if_pos (.inl rfl), parseCommand_connect order h]
  change some (m, RtmpConnection.connect handshaken _ true) = _
  rw [RtmpConnection.connect, RtmpSession.handleConnect]
  simp only [List.foldl_cons, List.foldl_nil, happ]
  rfl

theorem handle_createStream (url : RtmpUrl) :
    RtmpConnection.handleRtmpMessage
      m (connected url) (buildCreateStreamCommand createStreamTxId).2 peerAddr true =
      some (m, created url, .done createStreamReplies none) := by
  rw [RtmpConnection.handleRtmpMessage, if_pos (.inl rfl), parseCommand_createStream]
  rfl

theorem handle_play (h : url.Fits) (serverStreamId : UInt32) :
    RtmpConnection.handleRtmpMessage m (created url)
      (buildPlayCommand playTxId url.streamName serverStreamId).2
      peerAddr true = some (m, playing url,
        .done (RtmpConnection.playReplies m (playing url).session url.streamName) none) := by
  have hname : RtmpSession.namedStream (created url).session.streamName
      [.number playTxId, .null, .string url.streamName, .number 0xC09F400000000000] =
          url.streamName :=
    if_pos h.streamName_ne
  rw [RtmpConnection.handleRtmpMessage, if_pos (.inl rfl), parseCommand_play h]
  change some (m, RtmpConnection.play m (created url) _ true) = _
  rw [RtmpConnection.play, RtmpSession.handlePlay, hname]
  rfl

/-- The stream can be played. -/
def canBePlayed (m : StreamManager) (streamName : StreamId) : Bool :=
  (m.getStream streamName).any fun stream => stream.status = .publishing

/-- The first answer to `play`. -/
def playStatus (m : StreamManager) (streamName : StreamId) : RtmpReply :=
  if canBePlayed m streamName then .onStatus "NetStream.Play.Start" "Play started." "status"
  else .onStatus "NetStream.Play.StreamNotFound" "Stream not found" "error"

/-- Nothing is announced in the answers to `play`. -/
theorem playReplies_eq_cons (session : RtmpSession) (streamName : StreamId) :
    ∃ more, RtmpConnection.playReplies m session streamName = playStatus m streamName :: more ∧
      ∀ reply ∈ playStatus m streamName :: more, ∀ size, reply.chunkSize size = size := by
  rw [RtmpConnection.playReplies, playStatus, canBePlayed]
  cases hstream : m.getStream streamName with
  | none => exact ⟨[], rfl, List.forall_mem_singleton.mpr fun _ => rfl⟩
  | some stream =>
    dsimp only
    by_cases hstatus : stream.status = .publishing
    · rw [if_neg (not_not.mpr hstatus), Option.any_some, decide_eq_true hstatus, if_pos rfl]
      refine ⟨_, rfl, List.forall_mem_cons.mpr ⟨fun _ => rfl, List.forall_mem_append.mpr
        ⟨List.forall_mem_append.mpr ⟨?_, ?_⟩, List.forall_mem_cons.mpr
          ⟨fun _ => rfl, List.forall_mem_singleton.mpr fun _ => rfl⟩⟩⟩⟩
      · split
        · exact List.forall_mem_singleton.mpr fun _ => rfl
        · exact List.forall_mem_nil _
      · split
        · exact List.forall_mem_singleton.mpr fun _ => rfl
        · exact List.forall_mem_nil _
    · rw [if_pos hstatus, Option.any_some, decide_eq_false hstatus, if_neg Bool.false_ne_true]
      exact ⟨[], rfl, List.forall_mem_singleton.mpr fun _ => rfl⟩

/-- What the server says, up to its first answer to `play`. -/
def toPuller (order : MapOrder) (m : StreamManager) (url : RtmpUrl) : List (ℕ × RtmpMessage) :=
  connectReplies.map (RtmpReply.toMessage order 0) ++
    (createStreamReplies.map (RtmpReply.toMessage order 1) ++
    [(playStatus m url.streamName).toMessage order 1])

theorem sizeBehind_connectReplies :
    sizeBehind initialChunkSize (connectReplies.map (RtmpReply.toMessage order 0)) = 4096 :=
  rfl

theorem sizeBehind_createStreamReplies :
    sizeBehind 4096 (createStreamReplies.map (RtmpReply.toMessage order 1)) = 4096 :=
  rfl

/-- The chunks of the answers, turn by turn. -/
theorem announced_toPuller (url : RtmpUrl) : announced initialChunkSize (toPuller order m url) =
    announced initialChunkSize (connectReplies.map (RtmpReply.toMessage order 0)) ++
      (announced 4096 (createStreamReplies.map (RtmpReply.toMessage order 1)) ++
        announced 4096 [(playStatus m url.streamName).toMessage order 1]) := by
  rw [toPuller, announced_append, sizeBehind_connectReplies, announced_append,
    sizeBehind_createStreamReplies]

theorem fits_playStatus (streamName : StreamId) : (playStatus m streamName).Fits := by
  rw [playStatus]
  split
  · simp only [RtmpReply.Fits]
    decide
  · simp only [RtmpReply.Fits]
    decide

theorem fits_connectReplies : ∀ reply ∈ connectReplies, reply.Fits := by
  simp only [connectReplies, List.forall_mem_cons]
  exact ⟨trivial, trivial, ⟨by decide, by decide⟩, trivial, List.forall_mem_nil _⟩

theorem fits_createStreamReplies : ∀ reply ∈ createStreamReplies, reply.Fits :=
  List.forall_mem_singleton.mpr trivial

theorem announceable_toPuller (url : RtmpUrl) : ∀ p ∈ toPuller order m url, Announceable p := by
  refine List.forall_mem_append.mpr ⟨List.forall_mem_map.mpr fun reply hreply => ?_,
    List.forall_mem_append.mpr
    ⟨List.forall_mem_map.mpr fun reply hreply => ?_, List.forall_mem_singleton.mpr ?_⟩⟩
  · exact reply.announceable order 0 (fits_connectReplies reply hreply)
  · exact reply.announceable order 1 (fits_createStreamReplies reply hreply)
  · exact RtmpReply.announceable order 1 (fits_playStatus m url.streamName)

/-- The bytes of the answers to `connect`. -/
theorem replyBytes_connect (url : RtmpUrl) :
    RtmpServing.replyBytes order (connected url).session connectReplies =
    (announced initialChunkSize (connectReplies.map (RtmpReply.toMessage order 0))).flatMap
        Prod.fst := by
  have hsized : Sized initialChunkSize (connectReplies.map fun reply =>
      (reply.chunkSize (connected url).session.chunkSize, reply.toMessage order 0)) := by
    rw [connectReplies]
    refine RtmpReply.sized_cons order _ (.windowAckSize 2500000) trivial rfl ?_
    refine RtmpReply.sized_cons order _ (.setPeerBandwidth 2500000 2) trivial rfl ?_
    refine RtmpReply.sized_cons order _ (.setChunkSize 4096) ⟨by decide, by decide⟩ rfl ?_
    exact RtmpReply.sized_cons order _ (.connectResult connectTxId) trivial rfl trivial
  have hall := encodeAll_eq (by decide) hsized (List.forall_mem_map.mpr fun reply hreply =>
    reply.announceable order 0 (fits_connectReplies reply hreply))
  rw [List.map_map] at hall
  exact congrArg (Option.getD · []) hall

/-- The bytes of answers that are cut with the size of the server. -/
theorem replyBytes_eq {session : RtmpSession} (hpos : 0 < session.chunkSize)
    {replies : List RtmpReply} (h : ∀ reply ∈ replies, ∀ size, reply.chunkSize size = size) :
    RtmpServing.replyBytes order session replies =
      replies.flatMap fun reply =>
        (messageChunks session.chunkSize (reply.toMessage order session.serverStreamId).1
        (reply.toMessage order session.serverStreamId).2).flatMap Prod.fst := by
  rw [RtmpServing.replyBytes, encodeAll_of_pos (List.forall_mem_map.mpr fun reply hreply => ?_),
    Option.getD_some, List.flatMap_map]
  · exact List.flatMap_congr fun reply hreply => by rw [h reply hreply]
  · rw [h reply hreply]
    exact hpos

/-- The bytes of the answer to `createStream`. -/
theorem replyBytes_createStream (url : RtmpUrl) :
    RtmpServing.replyBytes order (created url).session createStreamReplies =
      (announced 4096 (createStreamReplies.map (RtmpReply.toMessage order 1))).flatMap
        Prod.fst := by
  rw [createStreamReplies,
    replyBytes_eq order (show 0 < (created url).session.chunkSize from (by decide : 0 < 4096))
    (List.forall_mem_singleton.mpr fun _ => rfl), List.flatMap_singleton, List.map_cons,
      List.map_nil, announced,
    announced, List.append_nil]
  rfl

/-- The three commands. -/
def toServing (order : MapOrder) (url : RtmpUrl) : List RtmpMessage :=
  [(buildConnectCommand order connectTxId url.app url.tcUrl).2,
    (buildCreateStreamCommand createStreamTxId).2, (buildPlayCommand playTxId url.streamName 1).2]

theorem sendable_toServing (h : url.Fits) : ∀ msg ∈ toServing order url, Sendable 3 msg :=
  List.forall_mem_cons.mpr ⟨sendable_connect order h, List.forall_mem_cons.mpr
    ⟨sendable_createStream, List.forall_mem_singleton.mpr (sendable_play h 1)⟩⟩

namespace RtmpServing

variable {target t : RtmpConnection × StreamManager} {ms : List RtmpMessage}
  {chunks : List (List UInt8 × Option RtmpMessage)}

/-- A message that the server does not fail on, and that sets no size. -/
def Done (peerAddr : String) (t : RtmpConnection × StreamManager) (msg : RtmpMessage) : Prop :=
  ∃ manager conn replies,
    RtmpConnection.handleRtmpMessage t.2 t.1 msg peerAddr true =
      some (manager, conn, .done replies none)

theorem Goes.of_completes (h : Exchange.Completes ms chunks)
    (hms : Exchange.Follows (respond order peerAddr) (Done peerAddr) target t ms) :
    Goes order peerAddr target t chunks := by
  induction h generalizing t with
  | nil => exact hms
  | part _ _ _ ih => exact ih hms
  | message _ _ ih => exact ⟨hms.1, ih hms.2⟩

theorem respond_of_done {conn conn' : RtmpConnection} {msg : RtmpMessage} {replies : List RtmpReply}
    (h : RtmpConnection.handleRtmpMessage m conn msg peerAddr true =
      some (m, conn', .done replies none)) :
    respond order peerAddr (conn, m) msg =
        ((conn', m), replyBytes order conn'.session replies) := by
  rw [respond, h]

/-- The server does not fail on the commands. -/
theorem follows_toServing (h : url.Fits) :
    Exchange.Follows (respond order peerAddr) (Done peerAddr) (playing url, m) (handshaken, m)
      (toServing order url) := by
  have hconnect := handle_connect order peerAddr m h
  have hcreate := handle_createStream peerAddr m url
  have hplay := handle_play peerAddr m h 1
  refine ⟨⟨m, _, _, hconnect⟩, ?_⟩
  rw [respond_of_done order peerAddr m hconnect]
  refine ⟨⟨m, _, _, hcreate⟩, ?_⟩
  rw [respond_of_done order peerAddr m hcreate]
  refine ⟨⟨m, _, _, hplay⟩, ?_⟩
  rw [respond_of_done order peerAddr m hplay]
  rfl

/-- What the server expects behind the handshake. -/
theorem expects_toServing (h : url.Fits) : Expects order peerAddr (playing url, m) (new m).shaken
    (answered (respond order peerAddr) (handshaken, m)
      ((toServing order url).flatMap (messageChunks clientChunkSize 3))) := by
  have hsendable := sendable_toServing order h
  have hcompletes : Exchange.Completes (toServing order url)
      ((toServing order url).flatMap (messageChunks clientChunkSize 3)) :=
    completes_flatMap_messageChunks (show 0 < clientChunkSize by decide) fun msg hmsg =>
      (hsendable msg hmsg).payload
  refine ⟨_, ⟨rfl, rfl, rfl, ⟨_, hsendable, .inl ⟨?_, rfl⟩⟩, ?_⟩, rfl⟩
  · rintro assembler ⟨⟩
  · exact Goes.of_completes order peerAddr hcompletes (follows_toServing order peerAddr m h)

end RtmpServing

/-! ## The puller -/

/-- The result of a `connect` is read back. -/
theorem parseCommand_connectResult : ∃ args,
    Amf0.parseCommand (buildResultResponse order connectTxId "Connect") =
      .ok ("_result", .number connectTxId :: args) := by
  have hversion : Amf0Value.SoundProps [("fmsVer", .string "FMS/3.0.1.123"),
      ("capabilities", .number 0x403F000000000000), ("objectEncoding", .number 0)] := by
    simp only [Amf0Value.SoundProps, Amf0Value.SoundProp, Amf0Value.Sound]
    decide
  have hstatus :
    Amf0Value.SoundProps [("level", .string "status"),
    ("code", .string "NetConnection.Connect.Success"),
      ("description", .string "Connect succeeded."), ("data", .object [])] := by
    simp only [Amf0Value.SoundProps, Amf0Value.SoundProp, Amf0Value.Sound]
    decide
  refine ⟨_, parseCommand_encode (by decide) ?_ ?_⟩
  · exact List.forall_mem_cons.mpr ⟨trivial, List.forall_mem_cons.mpr ⟨order.sound_object hversion,
      List.forall_mem_singleton.mpr (order.sound_object hstatus)⟩⟩
  · exact List.forall_mem_cons.mpr
      ⟨by decide, List.forall_mem_cons.mpr ⟨rfl, List.forall_mem_singleton.mpr rfl⟩⟩

/-- The result of a `createStream` is read back. -/
theorem parseCommand_createStreamResult :
    Amf0.parseCommand
      (RtmpReply.toMessage order 1 (.createStreamResult createStreamTxId 1)).2.payload =
      .ok ("_result", [.number createStreamTxId, .null, .number (f64OfU32 1)]) := by
  refine parseCommand_encode (by decide) ?_ ?_
  · exact List.forall_mem_cons.mpr ⟨trivial, List.forall_mem_cons.mpr
      ⟨trivial, List.forall_mem_singleton.mpr trivial⟩⟩
  · exact List.forall_mem_cons.mpr ⟨by decide, List.forall_mem_cons.mpr
      ⟨rfl, List.forall_mem_singleton.mpr (by decide)⟩⟩

/-- The answer to a `play` that cannot be played is an error to the puller. -/
theorem playAnswer_notFound (serverStreamId : UInt32) :
    RtmpPull.playAnswer (RtmpReply.toMessage order serverStreamId
      (.onStatus "NetStream.Play.StreamNotFound" "Stream not found" "error")).2 = .failed := by
  obtain ⟨info, hparse, hcode⟩ := @parseCommand_buildOnStatus order "NetStream.Play.StreamNotFound"
    "Stream not found" "error" (by decide) (by decide) (by decide)
  have hword : RtmpPull.containsWord "NotFound" "NetStream.Play.StreamNotFound" = true := by decide
  rw [RtmpPull.playAnswer, RtmpReply.toMessage, if_pos (.inl rfl)]
  dsimp only
  rw [hparse]
  simp [hcode, hword]

/-- Where the puller is behind the answer to `play`. -/
def pullOutcome (m : StreamManager) (streamName : StreamId) : PullStage :=
  if canBePlayed m streamName then .started else .failed

namespace PullConnection

variable {target t : PullStage × List RtmpPullEvent} {ms : List RtmpMessage}
  {chunks : List (List UInt8 × Option RtmpMessage)}

theorem Goes.of_completes (h : Exchange.Completes ms chunks)
    (hms : Exchange.Follows (respond url) (fun t _ => t.1.waits = true) target t ms) :
    Goes url target t chunks := by
  induction h generalizing t with
  | nil => exact hms
  | @part _ ms _ _ hlater _ ih =>
    refine ⟨?_, ih hms⟩
    cases ms with
    | nil => exact absurd rfl hlater
    | cons msg ms => exact hms.1
  | message _ _ ih => exact ⟨hms.1, ih hms.2⟩

/-- In the first wait, messages of the protocol are nothing. -/
theorem respond_nothing {msg : RtmpMessage} (h : serverCommand msg = none)
    (events : List RtmpPullEvent) :
    respond url (.connect, events) msg = ((.connect, events), []) := by
  rw [respond, onMessage]
  dsimp only
  rw [resultAnswer, h]

/-- What comes in front of the result of `connect` is nothing. -/
theorem respond_settings (events : List RtmpPullEvent) :
    (respond url (.connect, events) (RtmpReply.toMessage order 0 (.windowAckSize 2500000)).2 =
      ((.connect, events), [])) ∧
    (respond url (.connect, events) (RtmpReply.toMessage order 0 (.setPeerBandwidth 2500000 2)).2 =
      ((.connect, events), [])) ∧
    (respond url (.connect, events) (RtmpReply.toMessage order 0 (.setChunkSize 4096)).2 =
        ((.connect, events), [])) :=
  ⟨respond_nothing rfl events, respond_nothing rfl events, respond_nothing rfl events⟩

theorem respond_connectResult (events : List RtmpPullEvent) :
    respond url (.connect, events) (RtmpReply.toMessage order 0 (.connectResult connectTxId)).2 =
      ((.createStream, events), commandBytes (buildCreateStreamCommand createStreamTxId)) := by
  obtain ⟨args, hparse⟩ := parseCommand_connectResult order
  have hcommand : serverCommand (RtmpReply.toMessage order 0 (.connectResult connectTxId)).2 =
      some ("_result", .number connectTxId :: args) := by
    rw [serverCommand, if_pos (.inl rfl), RtmpReply.toMessage, hparse]
    rfl
  have hresult : isResult connectTxId (.number connectTxId :: args) = true :=
    show isNear connectTxId connectTxId = true by decide +kernel
  rw [respond, onMessage]
  dsimp only
  rw [resultAnswer, hcommand]
  dsimp only
  rw [if_pos rfl, if_pos hresult]

theorem respond_createStreamResult (events : List RtmpPullEvent) :
    respond url (.createStream, events)
      (RtmpReply.toMessage order 1 (.createStreamResult createStreamTxId 1)).2 =
      ((.play 1, events ++ [.created]),
          commandBytes (buildPlayCommand playTxId url.streamName 1)) := by
  have hcommand :
    serverCommand (RtmpReply.toMessage order 1 (.createStreamResult createStreamTxId 1)).2 =
      some ("_result", [.number createStreamTxId, .null, .number (f64OfU32 1)]) := by
    rw [serverCommand, if_pos (.inl rfl), parseCommand_createStreamResult]
    rfl
  have hresult : isResult createStreamTxId [.number createStreamTxId, .null, .number (f64OfU32 1)] =
      true :=
    show isNear createStreamTxId createStreamTxId = true by decide +kernel
  have hid : f64AsU32 (f64OfU32 1) = 1 := by decide +kernel
  rw [respond, onMessage]
  dsimp only
  rw [createStreamAnswer, hcommand]
  dsimp only
  rw [if_pos rfl, if_pos hresult]
  simp only [List.getElem?_cons_succ, List.getElem?_cons_zero, hid]

theorem respond_playStatus (streamName : StreamId) (events : List RtmpPullEvent) :
    respond url (.play 1, events) ((playStatus m streamName).toMessage order 1).2 =
      ((pullOutcome m streamName, events ++
          [.message ((playStatus m streamName).toMessage order 1).2]), []) := by
  rw [playStatus, pullOutcome, respond, onMessage]
  dsimp only
  cases canBePlayed m streamName with
  | true =>
    rw [if_pos rfl, if_pos rfl, playAnswer_onStatus]
  | false =>
    rw [if_neg Bool.false_ne_true, if_neg Bool.false_ne_true, playAnswer_notFound]

/-- Where the puller is in the end, and what has happened to the local stream. -/
def goal (order : MapOrder) (m : StreamManager) (url : RtmpUrl) : PullStage × List RtmpPullEvent :=
  (pullOutcome m url.streamName,
    [.created, .message ((playStatus m url.streamName).toMessage order 1).2])

/-- The answers to `connect` end the first wait. -/
theorem answers_connectReplies : answers (respond url) (.connect, [])
    ((connectReplies.map (RtmpReply.toMessage order 0)).map Prod.snd) =
      ((.createStream, []), commandBytes (buildCreateStreamCommand createStreamTxId)) := by
  obtain ⟨hack, hbandwidth, hsize⟩ := @respond_settings url order []
  have hresult := @respond_connectResult url order []
  simp only [connectReplies, List.map_cons, List.map_nil, answers, hack, hbandwidth, hsize, hresult,
    List.nil_append, List.append_nil]

/-- The answer to `createStream` ends the second wait. -/
theorem answers_createStreamReplies (events : List RtmpPullEvent) :
    answers (respond url) (.createStream, events)
    ((createStreamReplies.map (RtmpReply.toMessage order 1)).map Prod.snd) =
      ((.play 1, events ++ [.created]),
          commandBytes (buildPlayCommand playTxId url.streamName 1)) := by
  simp only [createStreamReplies, List.map_cons, List.map_nil, answers, respond_createStreamResult,
    List.append_nil]

/-- The puller waits up to the answer to `play`. -/
theorem follows_toPuller : Exchange.Follows (respond url) (fun t _ => t.1.waits = true)
    (goal order m url) (.connect, []) ((toPuller order m url).map Prod.snd) := by
  obtain ⟨hack, hbandwidth, hsize⟩ := @respond_settings url order []
  refine ⟨rfl, ?_⟩
  rw [hack]
  refine ⟨rfl, ?_⟩
  rw [hbandwidth]
  refine ⟨rfl, ?_⟩
  rw [hsize]
  refine ⟨rfl, ?_⟩
  rw [respond_connectResult]
  refine ⟨rfl, ?_⟩
  rw [respond_createStreamResult]
  refine ⟨rfl, ?_⟩
  rw [respond_playStatus]
  rfl

/-- What the puller expects behind the handshake. -/
theorem expects_toPuller :
    Expects url (goal order m url) { new with stage := .connect }
      (answered (respond url) (.connect, [])
        (announced initialChunkSize (toPuller order m url))) := by
  have hsent := announceable_toPuller order m url
  refine ⟨_, ⟨⟨_, hsent, (by decide : 0 < initialChunkSize), .inl ⟨?_, rfl⟩⟩, ?_⟩, rfl⟩
  · rintro csId assembler ⟨⟩
  · exact Goes.of_completes (completes_announced hsent (by decide)) (follows_toPuller order m)

end PullConnection

end VcpMediaServer
