import VcpMediaServer.AvcSequenceHeader
import VcpMediaServer.ChunkDelivery
import VcpMediaServer.LivePlay
import VcpMediaServer.PlayClocks

/-!
# RTMP playback

What the `play` command starts: the answers, and then a task that sends a message for each frame
that it lets through, each with the time of the wall. The task ends at the first write that fails.

* `RtmpReply.toMessage` — an answer as a message, on its chunk stream.
* `RtmpPlay.step` — a step of the task; what is written is kept.
* `RtmpPlay.relayed` — what of a run passes the gate.
* `RtmpPlay.timesOf` — the times that the clock of the run has for these.
* `RtmpPlay.stands_run` — along every run, the answers are followed by a message for each of these,
  in order, at these times.
-/

namespace VcpMediaServer

open Lts WallclockMsTimeline

/-! ## Answers -/

/-- `CSID_PROTOCOL`. -/
def csidProtocol : ℕ := 2

/-- `CSID_COMMAND`. -/
def csidCommand : ℕ := 3

/-- `CSID_AUDIO`. -/
def csidAudio : ℕ := 4

/-- `CSID_VIDEO`. -/
def csidVideo : ℕ := 6

/-- An order in which the entries of a `HashMap` are visited. -/
structure MapOrder where
  /-- The entries in this order. -/
  visit : List (String × Amf0Value) → List (String × Amf0Value)
  /-- They are the same. -/
  perm : ∀ props, (visit props).Perm props

/-- `build_on_status`. -/
def buildOnStatus (order : MapOrder) (code description level : String) : List UInt8 :=
  Amf0.encode [.string "onStatus", .number 0, .null,
    .object (order.visit [("level", .string level), ("code", .string code),
      ("description", .string description)])]

/-- `build_result_response`. -/
def buildResultResponse (order : MapOrder) (transactionId : UInt64) (command : String) :
    List UInt8 :=
  Amf0.encode [.string "_result", .number transactionId,
    .object (order.visit [("fmsVer", .string "FMS/3.0.1.123"),
      ("capabilities", .number 0x403F000000000000), ("objectEncoding", .number 0)]),
    .object (order.visit [("level", .string "status"),
      ("code", .string ("NetConnection." ++ command ++ ".Success")),
      ("description", .string (command ++ " succeeded.")), ("data", .object [])])]

/-- The double of a number of 32 bits. -/
def f64OfU32 (n : UInt32) : UInt64 :=
  if n = 0 then 0
  else
    let e := Nat.log2 n.toNat
    UInt64.ofNat ((1023 + e) * 2 ^ 52 + (n.toNat - 2 ^ e) * 2 ^ (52 - e))

/-- `build_user_control_stream_begin`. -/
def buildUserControlStreamBegin (streamId : UInt32) : List UInt8 :=
  toBe 2 0 ++ toBe 4 streamId.toNat

/-- `build_user_control_set_buffer_length`. -/
def buildUserControlSetBufferLength (streamId : UInt32) (bufferMs : ℕ) : List UInt8 :=
  toBe 2 3 ++ toBe 4 streamId.toNat ++ toBe 4 bufferMs

namespace RtmpReply

/-- The message of an answer, and its chunk stream. -/
def toMessage (order : MapOrder) (serverStreamId : UInt32) : RtmpReply → ℕ × RtmpMessage
  | .windowAckSize size => (csidProtocol, ⟨0x05, 0, 0, toBe 4 size⟩)
  | .setPeerBandwidth size limit => (csidProtocol, ⟨0x06, 0, 0, toBe 4 size ++ [UInt8.ofNat limit]⟩)
  | .setChunkSize size => (csidProtocol, ⟨0x01, 0, 0, toBe 4 size⟩)
  | .connectResult transactionId =>
    (csidCommand, ⟨0x14, 0, 0, buildResultResponse order transactionId "Connect"⟩)
  | .createStreamResult transactionId streamId =>
    (csidCommand, ⟨0x14, 0, 0,
      Amf0.encode [.string "_result", .number transactionId, .null, .number (f64OfU32 streamId)]⟩)
  | .onStatus code description level =>
    (csidCommand, ⟨0x14, 0, serverStreamId, buildOnStatus order code description level⟩)
  | .avcSequenceHeader sps pps =>
    (csidVideo, ⟨0x09, 0, serverStreamId, avcSequenceHeaderData sps pps⟩)
  | .aacSequenceHeader => (csidAudio, ⟨0x08, 0, serverStreamId, aacSequenceHeaderData⟩)
  | .streamBegin streamId => (csidProtocol, ⟨0x04, 0, 0, buildUserControlStreamBegin streamId⟩)
  | .setBufferLength streamId bufferMs =>
    (csidProtocol, ⟨0x04, 0, 0, buildUserControlSetBufferLength streamId bufferMs⟩)

/-- The size that its chunks are cut with. The messages of the protocol are cut with the size before
any other. -/
def chunkSize (size : ℕ) : RtmpReply → ℕ
  | .windowAckSize _ | .setPeerBandwidth _ _ | .setChunkSize _ => initialChunkSize
  | _ => size

end RtmpReply

/-! ## The task -/

/-- `prepend_rtmp_video_config`. -/
def prependRtmpVideoConfig (m : StreamManager) (s : StreamId) (frame : MediaFrame) : MediaFrame :=
  if !frame.codec.isVideo then frame
  else
    match m.getStream s with
    | none => frame
    | some stream =>
      match stream.sps, stream.pps with
      | some sps, some pps =>
        (MediaFrame.new frame.streamId frame.trackId frame.timestamp
          (annexBWithConfig sps pps frame.data)
          frame.isKeyframe frame.codec).withOptionalClockRate frame.clockRate
      | _, _ => frame

/-- A frame, and what the rest of the server does while it is handled. -/
structure RtmpItem where
  /-- The frame. -/
  frame : MediaFrame
  /-- The streams. -/
  manager : StreamManager
  /-- The clock, as it is read for the anchor. -/
  first : ℕ
  /-- The clock, as it is read for the message. -/
  now : ℕ
  /-- The message can be written. -/
  sent : Bool

/-- What the clock is read at. -/
def RtmpItem.read (item : RtmpItem) : ℕ × ℕ := (item.first, item.now)

/-- Where the task stands. -/
inductive RtmpPlayPhase where
  /-- It waits for an IDR frame to start from. -/
  | priming
  /-- It is in the loop. -/
  | playing
  /-- It has returned, or was aborted. -/
  | ended
  deriving DecidableEq

/-- The task. -/
structure RtmpPlay where
  /-- The stream that is played. -/
  streamId : StreamId
  /-- The message stream. -/
  serverStreamId : UInt32
  /-- Where it stands. -/
  phase : RtmpPlayPhase
  /-- `video_streaming`. -/
  videoStreaming : Bool
  /-- `RtmpPlayClock`. -/
  clock : WallclockMsTimeline
  /-- What has been written, or tried to be: the messages, each with its chunk stream. -/
  written : List (ℕ × RtmpMessage)

/-- What happens to the task. -/
inductive RtmpPlayEvent where
  /-- `prime_live_play` returns; the flag is that of the reader then. -/
  | primed (pending : Option RtmpItem) (resync : Bool)
  /-- `recv_batch` returns a batch, and `take_muxer_resync` the flag. -/
  | batch (resync : Bool)
  /-- The next frame of the batch. -/
  | frame (item : RtmpItem)
  /-- The reader is closed, or the task aborted. -/
  | close

namespace RtmpPlay

/-- What `play` writes for a stream that can be played, and the task that it starts then. -/
def start (order : MapOrder) (m : StreamManager) (session : RtmpSession) (streamId : StreamId) :
    RtmpPlay :=
  { streamId, serverStreamId := session.serverStreamId, phase := .priming, videoStreaming := false,
    clock := .new
    written := (RtmpConnection.playReplies m session streamId).map
      (RtmpReply.toMessage order session.serverStreamId) }

/-- The data of the message for a frame, if there is one. -/
def dataOf (streamId : StreamId) (item : RtmpItem) : Option (List UInt8) :=
  match item.frame.codec with
  | .h264 | .h265 =>
    some (frameToRtmpVideo (prependRtmpVideoConfig item.manager streamId item.frame))
  | .aac => some (frameToRtmpAudio item.frame)
  | _ => none

/-- The type of the message, and its chunk stream. -/
def kindOf (frame : MediaFrame) : UInt8 × ℕ :=
  match frame.codec with
  | .h264 | .h265 => (0x09, csidVideo)
  | _ => (0x08, csidAudio)

/-- A frame that is let through. -/
def sendFrame (s : RtmpPlay) (item : RtmpItem) : RtmpPlay :=
  match dataOf s.streamId item with
  | none => s
  | some data =>
    if data = [] then s
    else
      let (msgType, csId) := kindOf item.frame
      let (clock, timestamp) := s.clock.mapMs item.first item.now
      { s with
        clock
        phase := if item.sent then s.phase else .ended
        written := s.written ++ [(csId, ⟨msgType, timestamp, s.serverStreamId, data⟩)] }

/-- A turn of the loop over a batch. -/
def takeFrame (s : RtmpPlay) (item : RtmpItem) : RtmpPlay :=
  match letThrough s.videoStreaming item.frame with
  | none => s
  | some videoStreaming => { s with videoStreaming }.sendFrame item

/-- A step. What `prime_live_play` returns is flagged as a key frame, and is a batch of its own. -/
def step (s : RtmpPlay) : RtmpPlayEvent → Option RtmpPlay
  | .primed pending resync =>
    if s.phase = .priming then
      match pending with
      | none => some { s with phase := .playing, videoStreaming := false }
      | some item =>
        if item.frame.isKeyframe && item.frame.codec.isVideo then
          some ({ s with phase := .playing, videoStreaming := !resync }.takeFrame item)
        else none
    else none
  | .batch resync =>
    if s.phase = .playing then some { s with videoStreaming := s.videoStreaming && !resync }
      else none
  | .frame item => if s.phase = .playing then some (s.takeFrame item) else none
  | .close => some { s with phase := .ended }

/-! ## What is sent -/

/-- What happens at the gate of video. -/
def gateEvents : RtmpPlayEvent → List (KeyGate.Event RtmpItem)
  | .primed (some item) resync => LiveGate.resets resync ++ LiveGate.items RtmpItem.frame item
  | .batch resync => LiveGate.resets resync
  | .frame item => LiveGate.items RtmpItem.frame item
  | _ => []

/-- What of a run passes the gate, and is sent. -/
def relayed (run : List RtmpPlayEvent) : List RtmpItem :=
  LiveGate.passed RtmpItem.frame false (run.flatMap gateEvents)

/-- The message for a frame at a time. -/
def messageAt (streamId : StreamId) (serverStreamId : UInt32) (item : RtmpItem) (ms : UInt64) :
    ℕ × RtmpMessage :=
  if item.frame.codec.isVideo then
    (csidVideo, ⟨0x09, (ms &&& 0xFFFFFFFF).toUInt32, serverStreamId,
      frameToRtmpVideo (prependRtmpVideoConfig item.manager streamId item.frame)⟩)
  else (csidAudio, ⟨0x08, (ms &&& 0xFFFFFFFF).toUInt32, serverStreamId,
    frameToRtmpAudio item.frame⟩)

/-- **The times of what is sent**: those of the clock, which is read for each of it. -/
def timesOf (items : List RtmpItem) : List UInt64 :=
  WallclockMsTimeline.new.times (items.map RtmpItem.read)

/-- The messages for what is sent. -/
def messagesOf (streamId : StreamId) (serverStreamId : UInt32) (items : List RtmpItem) :
    List (ℕ × RtmpMessage) :=
  List.zipWith (messageAt streamId serverStreamId) items (timesOf items)

variable {s s' s₀ : RtmpPlay} {run : List RtmpPlayEvent} {e : RtmpPlayEvent} {item : RtmpItem}
    {items : List RtmpItem}

/-- The next message has the time that the clock comes to. -/
theorem messagesOf_concat (streamId : StreamId) (serverStreamId : UInt32) (items : List RtmpItem)
    (item : RtmpItem) :
    messagesOf streamId serverStreamId (items ++ [item]) =
      messagesOf streamId serverStreamId items ++
      [messageAt streamId serverStreamId item
        ((WallclockMsTimeline.new.after (items.map RtmpItem.read)).mapMs
        item.first item.now).1.lastEmitMs] := by
  rw [messagesOf, timesOf, List.map_append, List.map_singleton, times_concat,
    List.zipWith_append (by rw [length_times, List.length_map]), messagesOf, timesOf]
  rfl

/-- A frame that is sent at all gets its message. -/
theorem sendFrame_eq (hcodec : item.frame.codec ≠ .unknown) (hopus : item.frame.codec ≠ .opus)
    (hg711 : item.frame.codec ≠ .g711) :
    s.sendFrame item = { s with
      clock := (s.clock.mapMs item.first item.now).1
      phase := if item.sent then s.phase else .ended
      written := s.written ++
        [messageAt s.streamId s.serverStreamId item
            (s.clock.mapMs item.first item.now).1.lastEmitMs] } := by
  have htime : (s.clock.mapMs item.first item.now).2 =
      ((s.clock.mapMs item.first item.now).1.lastEmitMs &&& 0xFFFFFFFF).toUInt32 := rfl
  rw [sendFrame, dataOf, messageAt, kindOf, ← htime]
  cases hc : item.frame.codec with
  | h264 | h265 => exact if_neg (List.cons_ne_nil _ _)
  | aac => exact if_neg (List.cons_ne_nil _ _)
  | opus => exact absurd hc hopus
  | g711 => exact absurd hc hg711
  | unknown => exact absurd hc hcodec

theorem sendFrame_of_unknown (hcodec : item.frame.codec = .unknown) : s.sendFrame item = s := by
  rw [sendFrame, dataOf, hcodec]

/-- What has been written: the first messages, and one for each frame. The clock has been read for
each. -/
structure Sent (s₀ s : RtmpPlay) (items : List RtmpItem) : Prop where
  clock : s.clock = WallclockMsTimeline.new.after (items.map RtmpItem.read)
  streamId : s.streamId = s₀.streamId
  serverStreamId : s.serverStreamId = s₀.serverStreamId
  written : s.written = s₀.written ++ messagesOf s₀.streamId s₀.serverStreamId items

/-- A message is behind all that were sent before it. -/
theorem Sent.sendFrame (h : Sent s₀ s items) (hcodec : item.frame.codec ≠ .unknown)
    (hopus : item.frame.codec ≠ .opus) (hg711 : item.frame.codec ≠ .g711) :
    Sent s₀ (s.sendFrame item) (items ++ [item]) := by
  rw [sendFrame_eq hcodec hopus hg711]
  refine ⟨?_, h.streamId, h.serverStreamId, ?_⟩
  · rw [List.map_append, List.map_singleton, after_concat, ← h.clock]
    rfl
  · rw [messagesOf_concat, ← h.clock, ← List.append_assoc, ← h.written, ← h.streamId,
      ← h.serverStreamId]

/-- **A frame of the loop**: it passes the gate and its message is sent, or nothing is. -/
theorem Sent.takeFrame (h : Sent s₀ s items) (item : RtmpItem) :
    Sent s₀ (s.takeFrame item)
        (items ++ LiveGate.passed RtmpItem.frame s.videoStreaming
          (LiveGate.items RtmpItem.frame item)) ∧
      (s.takeFrame item).videoStreaming =
        Mealy.final (LiveGate.gate RtmpItem.frame) s.videoStreaming
          (LiveGate.items RtmpItem.frame item) ∧
      ((s.takeFrame item).phase = s.phase ∨ (s.takeFrame item).phase = .ended) := by
  rw [RtmpPlay.takeFrame, (LiveGate.final_items _ _ _).1]
  cases hthrough : letThrough s.videoStreaming item.frame with
  | none =>
    rw [LiveGate.passed_of_none hthrough, List.append_nil]
    exact ⟨h, rfl, .inl rfl⟩
  | some videoStreaming =>
    obtain ⟨hopus, hg711⟩ := codec_of_letThrough hthrough
    have hopen : Sent s₀ { s with videoStreaming } items :=
      ⟨h.clock, h.streamId, h.serverStreamId, h.written⟩
    rw [LiveGate.passed_of_some hthrough]
    dsimp only
    by_cases hcodec : item.frame.codec = .unknown
    · rw [sendFrame_of_unknown hcodec, if_pos hcodec, List.append_nil]
      exact ⟨hopen, rfl, .inl rfl⟩
    · rw [if_neg hcodec]
      refine ⟨hopen.sendFrame hcodec hopus hg711, ?_, ?_⟩
      · rw [sendFrame_eq hcodec hopus hg711]
        rfl
      · rw [sendFrame_eq hcodec hopus hg711]
        dsimp only
        split
        · exact .inl rfl
        · exact .inr rfl

/-! ## Runs -/

/-- The gate of video is open at the end of a run. -/
def opened (run : List RtmpPlayEvent) : Bool :=
  Mealy.final (LiveGate.gate RtmpItem.frame) false (run.flatMap gateEvents)

/-- Where a run stands. -/
structure Stands (s₀ : RtmpPlay) (run : List RtmpPlayEvent) (s : RtmpPlay) : Prop where
  sent : Sent s₀ s (relayed run)
  priming : s.phase = .priming → run.flatMap gateEvents = []
  gate : s.phase = .playing → s.videoStreaming = opened run

theorem relayed_concat (run : List RtmpPlayEvent) (e : RtmpPlayEvent) :
    relayed (run ++ [e]) = relayed run ++ LiveGate.passed RtmpItem.frame (opened run)
        (gateEvents e) := by
  rw [relayed, List.flatMap_append, LiveGate.passed_append, List.flatMap_singleton, relayed, opened]

theorem gate_concat (run : List RtmpPlayEvent) (e : RtmpPlayEvent) :
    opened (run ++ [e]) = Mealy.final (LiveGate.gate RtmpItem.frame) (opened run)
        (gateEvents e) := by
  rw [opened, List.flatMap_append, Mealy.final_append, List.flatMap_singleton, opened]

/-- An event that is nothing at the gate. -/
theorem relayed_of_silent (h : gateEvents e = []) : relayed (run ++ [e]) = relayed run := by
  rw [relayed_concat, h]
  exact List.append_nil _

/-- Playback starts from a key frame. -/
theorem Stands.primed_some (h : Stands s₀ run s) {resync : Bool}
    (hkey : (item.frame.isKeyframe && item.frame.codec.isVideo) = true) :
    Stands s₀ (run ++ [.primed (some item) resync])
      ({ s with phase := .playing, videoStreaming := !resync }.takeFrame item) := by
  -- whatever the gate is like, the key frame opens it and passes
  have hopens := @LiveGate.final_primed _ RtmpItem.frame item hkey (opened run) resync
  have hrelayed : relayed (run ++ [.primed (some item) resync]) =
      relayed run ++ LiveGate.passed RtmpItem.frame (!resync)
          (LiveGate.items RtmpItem.frame item) := by
    rw [relayed_concat, gateEvents, LiveGate.passed, LiveGate.passed, hopens.2,
      (LiveGate.final_key hkey _).2]
  have hopen : Sent s₀ { s with phase := .playing, videoStreaming := !resync } (relayed run) :=
    ⟨h.sent.clock, h.sent.streamId, h.sent.serverStreamId, h.sent.written⟩
  obtain ⟨hsent, hvideo, hphase⟩ := hopen.takeFrame item
  refine ⟨hrelayed ▸ hsent, ?_, fun _ => ?_⟩
  · intro hpriming
    rcases hphase with hphase | hphase
    · cases hphase.symm.trans hpriming
    · cases hphase.symm.trans hpriming
  · rw [hvideo, (LiveGate.final_key hkey _).1, gate_concat, gateEvents, hopens.1]

/-- The task goes on from what `prime_live_play` returns. -/
theorem exists_step_primed {hub : StreamHub} {r : DispatchReader} {f : StoredFrame}
    {m : StreamManager} (hwell : Priming.StartsWell hub r f) (hphase : s.phase = .priming)
    (hframe : item.frame = prepareH264PlayFrame m s.streamId f.toMediaFrame) :
    ∃ s', s.step (.primed (some item) r.pendingMuxerResync) = some s' := by
  have hkey := hwell.prepared m s.streamId
  rw [← hframe] at hkey
  exact ⟨_, (if_pos hphase).trans (if_pos hkey)⟩

/-- A frame of a batch. -/
theorem Stands.played (h : Stands s₀ run s) (hphase : s.phase = .playing) (item : RtmpItem) :
    Stands s₀ (run ++ [.frame item]) (s.takeFrame item) := by
  obtain ⟨hsent, hvideo, hphase'⟩ := h.sent.takeFrame item
  refine ⟨?_, ?_, fun _ => ?_⟩
  · rw [relayed_concat, gateEvents, ← h.gate hphase]
    exact hsent
  · rcases hphase' with hphase' | hphase' <;> rw [hphase']
    · exact fun hpriming => absurd (hphase.symm.trans hpriming) nofun
    · exact nofun
  · rw [hvideo, h.gate hphase, gate_concat, gateEvents]

/-- **Every event** leads on. -/
theorem Stands.step (h : Stands s₀ run s) (hstep : s.step e = some s') :
    Stands s₀ (run ++ [e]) s' := by
  cases e with
  | primed pending resync =>
    obtain ⟨hphase, hstep⟩ := Option.ite_none_right_eq_some.mp hstep
    cases pending with
    | none =>
      obtain rfl := Option.some.inj hstep
      refine ⟨?_, nofun, fun _ => ?_⟩
      · rw [relayed_of_silent rfl]
        exact ⟨h.sent.clock, h.sent.streamId, h.sent.serverStreamId, h.sent.written⟩
      · rw [gate_concat, opened, h.priming hphase]
        rfl
    | some item =>
      obtain ⟨hkey, hstep⟩ := Option.ite_none_right_eq_some.mp hstep
      obtain rfl := Option.some.inj hstep
      exact h.primed_some hkey
  | batch resync =>
    obtain ⟨hphase, hstep⟩ := Option.ite_none_right_eq_some.mp hstep
    obtain rfl := Option.some.inj hstep
    refine ⟨?_, fun hpriming => absurd (hphase.symm.trans hpriming) nofun, fun _ => ?_⟩
    · rw [relayed_concat, gateEvents, LiveGate.passed_resets, List.append_nil]
      exact ⟨h.sent.clock, h.sent.streamId, h.sent.serverStreamId, h.sent.written⟩
    · dsimp only
      rw [h.gate hphase, gate_concat, gateEvents, LiveGate.final_resets]
  | frame item =>
    obtain ⟨hphase, hstep⟩ := Option.ite_none_right_eq_some.mp hstep
    obtain rfl := Option.some.inj hstep
    exact h.played hphase item
  | close =>
    obtain rfl := Option.some.inj hstep
    refine ⟨?_, nofun, nofun⟩
    rw [relayed_of_silent rfl]
    exact ⟨h.sent.clock, h.sent.streamId, h.sent.serverStreamId, h.sent.written⟩

/-- Along every run. -/
theorem stands_run (order : MapOrder) (m : StreamManager) (session : RtmpSession)
    (streamId : StreamId) (h : exec step (start order m session streamId) run = some s) :
    Stands (start order m session streamId) run s := by
  induction run using List.reverseRecOn generalizing s with
  | nil =>
    obtain rfl := Option.some.inj h
    exact ⟨⟨rfl, rfl, rfl, (List.append_nil _).symm⟩, fun _ => rfl, nofun⟩
  | append_singleton run e ih =>
    obtain ⟨s₁, hrun, hstep⟩ := exec_concat.mp h
    exact (ih hrun).step hstep

end RtmpPlay

end VcpMediaServer
