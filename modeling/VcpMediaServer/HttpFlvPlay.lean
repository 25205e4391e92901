import VcpMediaServer.Chunked
import VcpMediaServer.HttpFlv
import VcpMediaServer.LivePlay
import VcpMediaServer.PlayClocks

/-!
# HTTP-FLV playback

The branch of `handle_connection` that answers `GET /flv/<stream_id>`: it waits for the parameter
sets, sends the beginning of the file, starts at an IDR frame and then sends a tag for each frame
that it admits. The body is chunked, and **nothing ends it**.

* `FlvPlay.step` — a step of the connection; what is written is kept.
* `FlvPlay.tagged` — the frames of a run that have a tag, each with the time that the clock of the
  run has for it.
* `FlvPlay.body_run` — along every run the body is read as a file of these frames, in order, at
  these times.
-/

namespace VcpMediaServer

open Lts WallclockMsTimeline

/-- `format_chunk`. -/
def formatChunk (data : List UInt8) : List UInt8 :=
  Chunked.hex data.length ++ [0x0D, 0x0A] ++ data ++ [0x0D, 0x0A]

namespace HttpFlvSession

/-- `HttpFlvSession::needs_sequence_headers`. -/
def needsSequenceHeaders (s : HttpFlvSession) : Bool := !s.sequenceHeaderSent

/-- `HttpFlvSession::frame_to_flv_with_wallclock`: the timeline afterwards and the tag. The session
is not changed. -/
def frameToFlvWithWallclock (frame : MediaFrame) (timeline : WallclockMsTimeline) (first now : ℕ) :
    WallclockMsTimeline × List UInt8 :=
  let (timeline, timestamp) := timeline.mapMs first now
  (timeline,
    match frame.codec with
    | .h264 | .h265 => frameToFlvVideo frame timestamp
    | .aac | .opus | .g711 => frameToFlvAudio frame timestamp
    | .unknown => [])

end HttpFlvSession

/-! ## The connection -/

/-- What is written to the socket. -/
inductive FlvWrite where
  /-- An answer that is not a stream. -/
  | response (code : ℕ) (reason body : String)
  /-- The headers of the stream. -/
  | headers
  /-- A chunk of its body, by its data. -/
  | chunk (data : List UInt8)
  deriving DecidableEq

/-- Its bytes in the body. -/
def FlvWrite.bodyBytes : FlvWrite → List UInt8
  | .chunk data => formatChunk data
  | _ => []

/-- Where the connection stands. -/
inductive FlvPhase where
  /-- It waits for the parameter sets. -/
  | waiting
  /-- It waits for an IDR frame to start from. -/
  | priming
  /-- It is in the loop. -/
  | playing
  /-- It has returned. -/
  | ended
  deriving DecidableEq

/-- A frame, and what the rest of the server does while it is handled. -/
structure FlvItem where
  /-- The frame. -/
  frame : MediaFrame
  /-- What `get_stream` finds. -/
  stream : Option Stream
  /-- The clock, as it is read for the anchor. -/
  first : ℕ
  /-- The clock, as it is read for the tag. -/
  now : ℕ
  /-- The sequence headers can be written. -/
  headersSent : Bool
  /-- The tag can be written. -/
  sent : Bool
  deriving DecidableEq

/-- What the clock is read at. -/
def FlvItem.read (item : FlvItem) : ℕ × ℕ := (item.first, item.now)

/-- The connection. -/
structure FlvPlay where
  /-- The session. -/
  session : HttpFlvSession
  /-- Where it stands. -/
  phase : FlvPhase
  /-- `video_streaming`. -/
  videoStreaming : Bool
  /-- The times of the tags. -/
  wallclock : WallclockMsTimeline
  /-- A write has failed: the rest of the batch is left. -/
  broken : Bool
  /-- What has been written, or tried to be. -/
  written : List FlvWrite

/-- What happens to the connection. -/
inductive FlvPlayEvent where
  /-- The stream has its parameter sets. -/
  | ready (stream : Stream)
  /-- It has not got them in time. -/
  | notReady
  /-- There is no hub to subscribe to. -/
  | notFound
  /-- `prime_live_play` returns; the flag is that of the reader then. -/
  | primed (pending : Option FlvItem) (resync : Bool)
  /-- `recv_batch` returns a batch, and `take_muxer_resync` the flag. -/
  | batch (resync : Bool)
  /-- The next frame of the batch. -/
  | frame (item : FlvItem)
  /-- The reader is closed, or a write outside the loop has failed. -/
  | close

namespace FlvPlay

/-- The session that `create_session` gives. -/
def new (streamId : StreamId) : FlvPlay :=
  { session := HttpFlvSession.new streamId, phase := .waiting, videoStreaming := false,
    wallclock := .new, broken := false, written := [] }

/-- A chunk is written, and may fail. -/
def write (s : FlvPlay) (data : List UInt8) (sent : Bool) : FlvPlay :=
  { s with written := s.written ++ [.chunk data], broken := !sent }

/-- The sequence headers, if they are still to be sent: whether the frame is gone on with. -/
def sendHeaders (s : FlvPlay) (item : FlvItem) : FlvPlay × Bool :=
  if s.session.needsSequenceHeaders then
    match item.stream with
    | none => (s, false)
    | some stream =>
      let (session, more) := s.session.generateInitialData stream
      let s := { s with session }
      let s := if more = [] then s else s.write more item.headersSent
      (s, !s.broken && !session.needsSequenceHeaders)
  else (s, true)

/-- The tag of a frame, if there is one. -/
def sendTag (s : FlvPlay) (item : FlvItem) : FlvPlay :=
  let (wallclock, data) :=
    HttpFlvSession.frameToFlvWithWallclock item.frame s.wallclock item.first item.now
  let s := { s with wallclock }
  if data = [] then s else s.write data item.sent

/-- A turn of the loop over a batch. -/
def takeFrame (s : FlvPlay) (item : FlvItem) : FlvPlay :=
  match letThrough s.videoStreaming item.frame with
  | none => s
  | some videoStreaming =>
    let (s, goesOn) := { s with videoStreaming }.sendHeaders item
    if goesOn then s.sendTag item else s

/-- A batch has come: after a gap an IDR frame is waited for. -/
def beginBatch (s : FlvPlay) (resync : Bool) : FlvPlay :=
  { s with videoStreaming := s.videoStreaming && !resync, broken := false }

/-- A step. What `prime_live_play` returns is flagged as a key frame. -/
def step (s : FlvPlay) : FlvPlayEvent → Option FlvPlay
  | .ready stream =>
    if s.phase = .waiting ∧ stream.sps.isSome ∧ stream.pps.isSome then
      let (session, initialData) := s.session.generateInitialData stream
      some { s with
        session
        phase := .priming
        written := s.written ++ .headers :: if initialData = [] then [] else [.chunk initialData] }
    else none
  | .notReady =>
    if s.phase = .waiting then
      some { s with
        phase := .ended
        written := s.written ++ [.response 503 "Service Unavailable"
          "Stream not ready (waiting for video sequence header)"] }
    else none
  | .notFound =>
    if s.phase = .waiting then
      some { s with phase := .ended, written := s.written ++
        [.response 404 "Not Found" "Stream not found"] }
    else none
  | .primed pending resync =>
    if s.phase = .priming then
      match pending with
      | none => some { s with phase := .playing, videoStreaming := false }
      | some item =>
        if item.frame.isKeyframe && item.frame.codec.isVideo then
          some (({ s with phase := .playing, videoStreaming := true }.beginBatch resync).takeFrame
            item)
        else none
    else none
  | .batch resync => if s.phase = .playing then some (s.beginBatch resync) else none
  | .frame item => if s.phase = .playing ∧ s.broken = false then some (s.takeFrame item) else none
  | .close => some { s with phase := .ended }

/-! ## What is sent -/

/-- What happens at the gate of video. -/
def gateEvents : FlvPlayEvent → List (KeyGate.Event FlvItem)
  | .primed (some item) resync => LiveGate.resets resync ++ LiveGate.items FlvItem.frame item
  | .batch resync => LiveGate.resets resync
  | .frame item => LiveGate.items FlvItem.frame item
  | _ => []

/-- The gate of video is open at the end of a run. -/
def opened (run : List FlvPlayEvent) : Bool :=
  Mealy.final (LiveGate.gate FlvItem.frame) false (run.flatMap gateEvents)

/-- The frames of a run that pass the gate. The clock is read for each of them. -/
def admitted (run : List FlvPlayEvent) : List FlvItem :=
  LiveGate.admitted FlvItem.frame false (run.flatMap gateEvents)

/-- The frames of a run that pass the gate, and have a tag. -/
def relayed (run : List FlvPlayEvent) : List FlvItem :=
  LiveGate.passed FlvItem.frame false (run.flatMap gateEvents)

/-- Of the frames that the clock is read for, those that have a tag, each **with its time**. -/
def tagged (items : List FlvItem) : List (FlvItem × UInt64) :=
  (items.zip (WallclockMsTimeline.new.times (items.map FlvItem.read))).filter fun p =>
    p.1.frame.codec ≠ .unknown

/-- The tag of a frame at a time. -/
def tagAt (frame : MediaFrame) (ms : UInt64) : Flv.Tag :=
  if frame.codec.isVideo then ⟨0x09, (ms &&& 0xFFFFFFFF).toUInt32, frameToRtmpVideo frame⟩
  else ⟨0x08, (ms &&& 0xFFFFFFFF).toUInt32, frameToRtmpAudio frame⟩

/-- The tags of frames that the clock is read for. -/
def tagsOf (items : List FlvItem) : List Flv.Tag := (tagged items).map fun p => tagAt p.1.frame p.2

/-- The tags at the beginning of the file. -/
def firstTags (streamId : StreamId) (stream : Stream) : List Flv.Tag :=
  (HttpFlvSession.new streamId).tagsOf (.generateInitialData stream)

/-- What a tag can carry. -/
def FrameFits (frame : MediaFrame) : Prop :=
  (frameToRtmpVideo frame).length < 2 ^ 24 ∧ (frameToRtmpAudio frame).length < 2 ^ 24

instance : DecidablePred FrameFits := fun _ => inferInstanceAs (Decidable (_ ∧ _))

/-- What a run gives fits into tags. -/
structure Fits (streamId : StreamId) (run : List FlvPlayEvent) : Prop where
  metadata : (metadataData streamId).length < 2 ^ 24
  sets : ∀ stream, .ready stream ∈ run → ∀ sps ∈ stream.sps, ∀ pps ∈ stream.pps,
    (avcSequenceHeaderData sps pps).length < 2 ^ 24
  frames : ∀ item ∈ relayed run, FrameFits item.frame

variable {s s' : FlvPlay} {run : List FlvPlayEvent} {e : FlvPlayEvent} {item : FlvItem}
    {stream : Stream}
  {streamId : StreamId} {items : List FlvItem} {frame : MediaFrame}

/-- The next frame has the time that the clock comes to, if it has a tag. -/
theorem tagged_concat (items : List FlvItem) (item : FlvItem) :
    tagged (items ++ [item]) = tagged items ++
      if item.frame.codec = .unknown then []
      else [(item, ((WallclockMsTimeline.new.after (items.map FlvItem.read)).mapMs
        item.first item.now).1.lastEmitMs)] := by
  rw [tagged, List.map_append, List.map_singleton, times_concat,
    List.zip_append (by rw [length_times, List.length_map]), List.filter_append]
  by_cases hcodec : item.frame.codec = .unknown <;> simp [hcodec, tagged, FlvItem.read]

/-- The frames that have a tag are those of a known codec. -/
theorem map_fst_tagged (items : List FlvItem) :
    (tagged items).map Prod.fst = items.filter fun item => item.frame.codec ≠ .unknown := by
  induction items using List.reverseRecOn with
  | nil => rfl
  | append_singleton items item ih =>
    rw [tagged_concat, List.map_append, ih, List.filter_append, List.filter_singleton]
    by_cases hcodec : item.frame.codec = .unknown <;> simp [hcodec]

theorem rises_tagged (items : List FlvItem) : Rises ((tagged items).map Prod.snd) := by
  refine (rises_times .new (items.map FlvItem.read)).sublist ?_
  have hsub : ((tagged items).map Prod.snd).Sublist
      ((items.zip (WallclockMsTimeline.new.times (items.map FlvItem.read))).map Prod.snd) :=
    List.Sublist.map _ List.filter_sublist
  rwa [List.map_snd_zip (by rw [length_times, List.length_map])] at hsub

/-- Once the sequence headers are sent, a frame that is admitted gets its tag. -/
theorem takeFrame_eq (hsent : s.session.sequenceHeaderSent = true) (item : FlvItem) :
    s.takeFrame item =
      match letThrough s.videoStreaming item.frame with
      | none => s
      | some videoStreaming => { s with videoStreaming }.sendTag item := by
  rw [takeFrame]
  cases letThrough s.videoStreaming item.frame with
  | none => rfl
  | some videoStreaming =>
    simp only [sendHeaders, HttpFlvSession.needsSequenceHeaders, hsent, Bool.not_true,
      Bool.false_eq_true, if_false, if_true]

/-- The tag of a frame that is sent at all. -/
theorem frameToFlvWithWallclock_eq (hfits : FrameFits frame) (hcodec : frame.codec ≠ .unknown)
    (hopus : frame.codec ≠ .opus) (hg711 : frame.codec ≠ .g711) (timeline : WallclockMsTimeline)
    (first now : ℕ) :
    HttpFlvSession.frameToFlvWithWallclock frame timeline first now =
      ((timeline.mapMs first now).1,
        (tagAt frame (timeline.mapMs first now).1.lastEmitMs).bytes) := by
  have htime : (timeline.mapMs first now).2 =
    ((timeline.mapMs first now).1.lastEmitMs &&& 0xFFFFFFFF).toUInt32 := rfl
  have hvideo : frameToRtmpVideo frame ≠ [] := by
    rw [frameToRtmpVideo]
    exact List.cons_ne_nil _ _
  rw [HttpFlvSession.frameToFlvWithWallclock, tagAt, ← htime]
  cases hc : frame.codec with
  | h264 | h265 =>
    dsimp only
    rw [frameToFlvVideo, if_neg hvideo, generateFlvTag_eq hfits.1]
    rfl
  | aac =>
    dsimp only
    rw [frameToFlvAudio, generateFlvTag_eq hfits.2]
    rfl
  | opus => exact absurd hc hopus
  | g711 => exact absurd hc hg711
  | unknown => exact absurd hc hcodec

/-- What has been sent: the headers, and chunks that hold the file. The clock has been read for
`items`. -/
structure Sent (s : FlvPlay) (streamId : StreamId) (stream : Stream) (items : List FlvItem) :
    Prop where
  clock : s.wallclock = WallclockMsTimeline.new.after (items.map FlvItem.read)
  written : ∃ chunks : List (List UInt8), s.written = .headers :: chunks.map .chunk ∧
    (∀ data ∈ chunks, data ≠ []) ∧
    chunks.flatten = Flv.header (flvFlags (HttpFlvSession.hasVideo stream)
      (HttpFlvSession.hasAudio stream)) ++
      (firstTags streamId stream ++ tagsOf items).flatMap Flv.Tag.bytes

theorem bytes_ne_nil (tag : Flv.Tag) : tag.bytes ≠ [] := List.cons_ne_nil _ _

/-- A tag is behind all that were sent before it. -/
theorem Sent.sendTag (h : Sent s streamId stream items) (item : FlvItem)
    (hfits : item.frame.codec ≠ .unknown → FrameFits item.frame) (hopus : item.frame.codec ≠ .opus)
    (hg711 : item.frame.codec ≠ .g711) :
    Sent (s.sendTag item) streamId stream (items ++ [item]) := by
  have hclock : (s.wallclock.mapMs item.first item.now).1 =
      WallclockMsTimeline.new.after ((items ++ [item]).map FlvItem.read) := by
    rw [List.map_append, List.map_singleton, after_concat, ← h.clock]
    rfl
  obtain ⟨chunks, hwritten, hne, hdata⟩ := h.written
  by_cases hcodec : item.frame.codec = .unknown
  · have hnone :
        s.sendTag item = { s with wallclock := (s.wallclock.mapMs item.first item.now).1 } := by
      rw [FlvPlay.sendTag, HttpFlvSession.frameToFlvWithWallclock, hcodec]
      rfl
    have hsame : tagsOf (items ++ [item]) = tagsOf items := by
      rw [tagsOf, tagged_concat, if_pos hcodec, List.append_nil, tagsOf]
    rw [hnone]
    exact ⟨hclock, chunks, hwritten, hne, hsame ▸ hdata⟩
  · have htag :=
      frameToFlvWithWallclock_eq (hfits hcodec) hcodec hopus hg711 s.wallclock item.first item.now
    have hsend :
      s.sendTag item = { s with wallclock := (s.wallclock.mapMs item.first item.now).1 }.write
        (tagAt item.frame (s.wallclock.mapMs item.first item.now).1.lastEmitMs).bytes
          item.sent := by
      rw [FlvPlay.sendTag, htag]
      exact if_neg (bytes_ne_nil _)
    have hmore : tagsOf (items ++ [item]) = tagsOf items ++
        [tagAt item.frame (s.wallclock.mapMs item.first item.now).1.lastEmitMs] := by
      rw [tagsOf, tagged_concat, if_neg hcodec, ← h.clock, List.map_append, tagsOf]
      rfl
    rw [hsend]
    refine ⟨hclock,
      chunks ++ [(tagAt item.frame (s.wallclock.mapMs item.first item.now).1.lastEmitMs).bytes], ?_,
      ?_, ?_⟩
    · rw [FlvPlay.write, hwritten, List.map_append]
      rfl
    · exact List.forall_mem_append.mpr ⟨hne, List.forall_mem_singleton.mpr (bytes_ne_nil _)⟩
    · rw [List.flatten_append, hdata, hmore]
      simp only [List.flatMap_append, List.append_assoc, List.flatten_cons, List.flatten_nil,
        List.append_nil, List.flatMap_cons, List.flatMap_nil]

/-- There is no stream yet, and nothing has come to the gate. -/
structure Waits (streamId : StreamId) (run : List FlvPlayEvent) (s : FlvPlay) : Prop where
  phase : s.phase = .waiting ∨ s.phase = .ended
  session : s.session = HttpFlvSession.new streamId
  silent : .headers ∉ s.written
  gate : run.flatMap gateEvents = []
  first : s.phase = .waiting → s.written = [] ∧ s.wallclock = .new

/-- The stream is being sent. -/
structure Streams (streamId : StreamId) (stream : Stream) (run : List FlvPlayEvent) (s : FlvPlay) :
    Prop where
  ready : .ready stream ∈ run
  phase : s.phase ≠ .waiting
  session : s.session.sequenceHeaderSent = true
  priming : s.phase = .priming → run.flatMap gateEvents = []
  gate : s.phase = .playing → s.videoStreaming = opened run
  sent : Sent s streamId stream (admitted run)

/-- Where a run stands: nothing of the stream has been sent; or it has, and the session stays as it
is. -/
def Stands (streamId : StreamId) (run : List FlvPlayEvent) (s : FlvPlay) : Prop :=
  Waits streamId run s ∨ ∃ stream, Streams streamId stream run s

theorem admitted_concat (run : List FlvPlayEvent) (e : FlvPlayEvent) :
    admitted (run ++ [e]) = admitted run ++ LiveGate.admitted FlvItem.frame (opened run)
        (gateEvents e) := by
  rw [admitted, List.flatMap_append, LiveGate.admitted_append, List.flatMap_singleton, admitted,
    opened]

theorem relayed_concat (run : List FlvPlayEvent) (e : FlvPlayEvent) :
    relayed (run ++ [e]) = relayed run ++ LiveGate.passed FlvItem.frame (opened run)
        (gateEvents e) := by
  rw [relayed, List.flatMap_append, LiveGate.passed_append, List.flatMap_singleton, relayed, opened]

/-- What has a tag of what passes the gate. -/
theorem relayed_eq (run : List FlvPlayEvent) :
    relayed run = (admitted run).filter fun item => item.frame.codec ≠ .unknown := rfl

theorem Fits.of_concat (h : Fits streamId (run ++ [e])) : Fits streamId run where
  metadata := h.metadata
  sets := fun stream hmem => h.sets stream (List.mem_append_left _ hmem)
  frames := fun item hmem => h.frames item (relayed_concat run e ▸ List.mem_append_left _ hmem)

/-- A frame that comes to the gate and passes it fits, if it has a tag. -/
theorem Fits.of_admitted (h : Fits streamId (run ++ [e]))
    (hmem : item ∈ LiveGate.admitted FlvItem.frame (opened run) (gateEvents e))
    (hcodec : item.frame.codec ≠ .unknown) : FrameFits item.frame := by
  refine h.frames item ?_
  rw [relayed_eq, admitted_concat]
  exact List.mem_filter.mpr ⟨List.mem_append_right _ hmem, decide_eq_true hcodec⟩

/-- An event that is nothing at the gate. -/
theorem admitted_of_silent (h : gateEvents e = []) : admitted (run ++ [e]) = admitted run := by
  rw [admitted_concat, h]
  exact List.append_nil _

theorem sendTag_keeps (s : FlvPlay) (item : FlvItem) :
    (s.sendTag item).videoStreaming = s.videoStreaming ∧ (s.sendTag item).session = s.session ∧
      (s.sendTag item).phase = s.phase := by
  unfold sendTag
  dsimp only
  split
  · exact ⟨rfl, rfl, rfl⟩
  · exact ⟨rfl, rfl, rfl⟩

/-- **A frame of the loop**: it passes the gate and its tag is sent, or nothing is. -/
theorem Sent.takeFrame (h : Sent s streamId stream items)
    (hsession : s.session.sequenceHeaderSent = true) (item : FlvItem)
    (hfits : item ∈ LiveGate.admitted FlvItem.frame s.videoStreaming
      (LiveGate.items FlvItem.frame item) →
      item.frame.codec ≠ .unknown → FrameFits item.frame) :
    Sent (s.takeFrame item) streamId stream
        (items ++ LiveGate.admitted FlvItem.frame s.videoStreaming
          (LiveGate.items FlvItem.frame item)) ∧
      (s.takeFrame item).videoStreaming =
        Mealy.final (LiveGate.gate FlvItem.frame) s.videoStreaming
          (LiveGate.items FlvItem.frame item) ∧
      (s.takeFrame item).session = s.session ∧ (s.takeFrame item).phase = s.phase := by
  rw [takeFrame_eq hsession, (LiveGate.final_items FlvItem.frame _ _).1]
  cases hadmit : letThrough s.videoStreaming item.frame with
  | none =>
    rw [LiveGate.admitted_of_none hadmit, List.append_nil]
    exact ⟨h, rfl, rfl, rfl⟩
  | some videoStreaming =>
    obtain ⟨hopus, hg711⟩ := codec_of_letThrough hadmit
    obtain ⟨hvideo, hkept, hphase⟩ := sendTag_keeps { s with videoStreaming } item
    rw [LiveGate.admitted_of_some hadmit] at hfits ⊢
    have hopen : Sent { s with videoStreaming } streamId stream items := ⟨h.clock, h.written⟩
    exact ⟨hopen.sendTag item (hfits (List.mem_singleton_self _)) hopus hg711, hvideo, hkept,
      hphase⟩

/-! ## Runs -/

theorem firstTags_fit (hfits : (metadataData streamId).length < 2 ^ 24)
    (hsets : ∀ sps ∈ stream.sps, ∀ pps ∈ stream.pps,
      (avcSequenceHeaderData sps pps).length < 2 ^ 24) :
    ∀ tag ∈ firstTags streamId stream, tag.payload.length < 2 ^ 24 := by
  intro tag htag
  rcases List.mem_append.mp htag with htag | htag
  · rw [List.mem_singleton.mp htag]
    exact hfits
  · rw [HttpFlvSession.sequenceTags] at htag
    cases hsps : stream.sps with
    | none => simp [HttpFlvSession.new, hsps] at htag
    | some sps =>
      cases hpps : stream.pps with
      | none => simp [HttpFlvSession.new, hsps, hpps] at htag
      | some pps =>
        have havc := hsets sps hsps pps hpps
        have haac : aacSequenceHeaderData.length < 2 ^ 24 := by decide
        simp only [HttpFlvSession.new, hsps, hpps, Bool.false_eq_true, if_false, List.mem_append]
          at htag
        rcases htag with htag | htag <;> split at htag
        · exact List.mem_singleton.mp htag ▸ havc
        · cases htag
        · exact List.mem_singleton.mp htag ▸ haac
        · cases htag

/-- The beginning of the file. -/
theorem sent_ready (hfits : (metadataData streamId).length < 2 ^ 24)
    (hsets : ∀ sps ∈ stream.sps, ∀ pps ∈ stream.pps,
      (avcSequenceHeaderData sps pps).length < 2 ^ 24)
    (hsession : s.session = HttpFlvSession.new streamId) (hclock : s.wallclock = .new)
    (hwritten : s.written = []) :
    Sent { s with
      session := (s.session.generateInitialData stream).1
      phase := .priming
      written := s.written ++ .headers :: if (s.session.generateInitialData stream).2 = [] then []
        else [.chunk (s.session.generateInitialData stream).2] } streamId stream [] := by
  have hdata : ((HttpFlvSession.new streamId).generateInitialData stream).2 =
      Flv.header (flvFlags (HttpFlvSession.hasVideo stream) (HttpFlvSession.hasAudio stream)) ++
        (firstTags streamId stream).flatMap Flv.Tag.bytes :=
    HttpFlvSession.generateInitialData_eq _ stream (firstTags_fit hfits hsets)
  have hne : ((HttpFlvSession.new streamId).generateInitialData stream).2 ≠ [] := by
    rw [hdata]
    exact List.cons_ne_nil _ _
  have hnone : tagsOf [] = [] := rfl
  rw [hsession, hwritten, if_neg hne]
  refine ⟨hclock, [((HttpFlvSession.new streamId).generateInitialData stream).2], rfl,
    List.forall_mem_singleton.mpr hne, ?_⟩
  rw [List.flatten_singleton, hdata, hnone, List.append_nil]

theorem gate_concat (run : List FlvPlayEvent) (e : FlvPlayEvent) :
    opened (run ++ [e]) = Mealy.final (LiveGate.gate FlvItem.frame) (opened run)
        (gateEvents e) := by
  rw [opened, List.flatMap_append, Mealy.final_append, List.flatMap_singleton, opened]

theorem gate_of_silent (h : gateEvents e = []) (hrun : run.flatMap gateEvents = []) :
    (run ++ [e]).flatMap gateEvents = [] := by
  rw [List.flatMap_append, List.flatMap_singleton, h, hrun]
  rfl

theorem step_ready (h : s.step (.ready stream) = some s') :
    s.phase = .waiting ∧ stream.sps.isSome ∧ stream.pps.isSome ∧ s' = { s with
      session := (s.session.generateInitialData stream).1
      phase := .priming
      written := s.written ++ .headers :: if (s.session.generateInitialData stream).2 = [] then []
        else [.chunk (s.session.generateInitialData stream).2] } := by
  rw [step] at h
  obtain ⟨⟨hwaiting, hsps, hpps⟩, h⟩ := Option.ite_none_right_eq_some.mp h
  exact ⟨hwaiting, hsps, hpps, (Option.some.inj h).symm⟩

/-- The stream is ready: the beginning of the file is written. -/
theorem Waits.ready (h : Waits streamId run s) (hfits : Fits streamId (run ++ [.ready stream]))
    (hstep : s.step (.ready stream) = some s') :
    Streams streamId stream (run ++ [.ready stream]) s' := by
  obtain ⟨hwaiting, hsps, hpps, rfl⟩ := step_ready hstep
  have hmem : .ready stream ∈ run ++ [.ready stream] :=
    List.mem_append_right _ (List.mem_singleton_self _)
  have hsilent := gate_of_silent (e := .ready stream) rfl h.gate
  have hadmitted : admitted (run ++ [.ready stream]) = [] := by
    rw [admitted, hsilent]
    rfl
  obtain ⟨hwritten, hclock⟩ := h.first hwaiting
  have hsent := sent_ready hfits.metadata (hfits.sets stream hmem) h.session hclock hwritten
  refine ⟨hmem, nofun, ?_, fun _ => hsilent, nofun, hadmitted ▸ hsent⟩
  dsimp only
  rw [HttpFlvSession.generateInitialData_state]
  dsimp only
  rw [hsps, hpps]
  exact Bool.or_true _

/-- Another answer ends it. -/
theorem Waits.answered (h : Waits streamId run s) (hgate : gateEvents e = []) {code : ℕ}
    {reason body : String} :
    Waits streamId (run ++ [e])
      { s with phase := .ended, written := s.written ++ [.response code reason body] } := by
  refine ⟨.inr rfl, h.session, ?_, gate_of_silent hgate h.gate, nofun⟩
  simpa using h.silent

/-- **Every event**, while there is no stream. -/
theorem Waits.step (h : Waits streamId run s) (hfits : Fits streamId (run ++ [e]))
    (hstep : s.step e = some s') :
    Stands streamId (run ++ [e]) s' := by
  have hplaying : s.phase ≠ .playing ∧ s.phase ≠ .priming := by
    rcases h.phase with hphase | hphase <;> rw [hphase] <;> exact ⟨nofun, nofun⟩
  cases e with
  | ready stream => exact .inr ⟨stream, h.ready hfits hstep⟩
  | notReady =>
    obtain ⟨-, hstep⟩ := Option.ite_none_right_eq_some.mp hstep
    obtain rfl := Option.some.inj hstep
    exact .inl (h.answered rfl)
  | notFound =>
    obtain ⟨-, hstep⟩ := Option.ite_none_right_eq_some.mp hstep
    obtain rfl := Option.some.inj hstep
    exact .inl (h.answered rfl)
  | primed pending resync => exact absurd (Option.ite_none_right_eq_some.mp hstep).1 hplaying.2
  | batch resync => exact absurd (Option.ite_none_right_eq_some.mp hstep).1 hplaying.1
  | frame item => exact absurd (Option.ite_none_right_eq_some.mp hstep).1.1 hplaying.1
  | close =>
    obtain rfl := Option.some.inj hstep
    exact .inl ⟨.inr rfl, h.session, h.silent, gate_of_silent rfl h.gate, nofun⟩

/-- Playback starts from nothing. -/
theorem Streams.primed_none (h : Streams streamId stream run s) {resync : Bool}
    (hphase : s.phase = .priming) :
    Streams streamId stream (run ++ [.primed none resync])
      { s with phase := .playing, videoStreaming := false } where
  ready := List.mem_append_left _ h.ready
  phase := nofun
  session := h.session
  priming := nofun
  gate _ := by
    rw [opened, gate_of_silent rfl (h.priming hphase)]
    rfl
  sent := by
    rw [admitted_of_silent rfl]
    exact ⟨h.sent.clock, h.sent.written⟩

/-- Playback starts from a key frame. -/
theorem Streams.primed_some (h : Streams streamId stream run s) {resync : Bool}
    (hkey : (item.frame.isKeyframe && item.frame.codec.isVideo) = true)
    (hfits : Fits streamId (run ++ [.primed (some item) resync])) :
    Streams streamId stream (run ++ [.primed (some item) resync])
      (({ s with phase := .playing, videoStreaming := true }.beginBatch resync).takeFrame
        item) := by
  -- whatever the gate is like, the key frame opens it and passes
  have hopens := @LiveGate.final_primed _ FlvItem.frame item hkey (opened run) resync
  have hkeyed : ∀ videoStreaming, LiveGate.admitted FlvItem.frame videoStreaming
    (LiveGate.items FlvItem.frame item) =
      [item] := fun videoStreaming => (LiveGate.final_key hkey videoStreaming).2
  have hadmitted : admitted (run ++ [.primed (some item) resync]) = admitted run ++ [item] := by
    rw [admitted_concat, gateEvents, hopens.2]
  have hmem : item ∈ LiveGate.admitted FlvItem.frame (opened run)
      (gateEvents (.primed (some item) resync)) := by
    rw [gateEvents, hopens.2]
    exact List.mem_singleton_self _
  obtain ⟨hsent, hvideo, hkept, hphase'⟩ := Sent.takeFrame
    (s := { s with phase := .playing, videoStreaming := true }.beginBatch resync)
    ⟨h.sent.clock, h.sent.written⟩ h.session item fun _ hcodec => hfits.of_admitted hmem hcodec
  rw [hkeyed] at hsent
  refine ⟨List.mem_append_left _ h.ready, ?_, ?_, ?_, fun _ => ?_, hadmitted ▸ hsent⟩
  · rw [hphase']
    exact nofun
  · rw [hkept]
    exact h.session
  · rw [hphase']
    exact nofun
  · rw [hvideo, (LiveGate.final_key hkey _).1, gate_concat, gateEvents, hopens.1]

/-- A batch comes. -/
theorem Streams.batch (h : Streams streamId stream run s) {resync : Bool}
    (hphase : s.phase = .playing) :
    Streams streamId stream (run ++ [.batch resync]) (s.beginBatch resync) where
  ready := List.mem_append_left _ h.ready
  phase := hphase ▸ nofun
  session := h.session
  priming hpriming := absurd (hphase.symm.trans hpriming) nofun
  gate _ := by
    rw [gate_concat, ← h.gate hphase, gateEvents, LiveGate.final_resets]
    rfl
  sent := by
    rw [admitted_concat, gateEvents, LiveGate.admitted_resets, List.append_nil]
    exact ⟨h.sent.clock, h.sent.written⟩

/-- A frame of the batch. -/
theorem Streams.played (h : Streams streamId stream run s) (hphase : s.phase = .playing)
    (hfits : Fits streamId (run ++ [.frame item])) :
    Streams streamId stream (run ++ [.frame item]) (s.takeFrame item) := by
  have hgate : s.videoStreaming = opened run := h.gate hphase
  obtain ⟨hsent, hvideo, hkept, hphase'⟩ := h.sent.takeFrame h.session item fun hmem hcodec =>
    hfits.of_admitted (hgate ▸ hmem) hcodec
  refine ⟨List.mem_append_left _ h.ready, ?_, ?_, ?_, fun _ => ?_, ?_⟩
  · rw [hphase', hphase]
    exact nofun
  · rw [hkept]
    exact h.session
  · rw [hphase', hphase]
    exact nofun
  · rw [hvideo, gate_concat, hgate, gateEvents]
  · rw [admitted_concat, gateEvents, ← hgate]
    exact hsent

/-- **Every event**, while the stream is being sent. -/
theorem Streams.step (h : Streams streamId stream run s) (hfits : Fits streamId (run ++ [e]))
    (hstep : s.step e = some s') : Streams streamId stream (run ++ [e]) s' := by
  cases e with
  | ready stream' => exact absurd (Option.ite_none_right_eq_some.mp hstep).1.1 h.phase
  | notReady => exact absurd (Option.ite_none_right_eq_some.mp hstep).1 h.phase
  | notFound => exact absurd (Option.ite_none_right_eq_some.mp hstep).1 h.phase
  | primed pending resync =>
    obtain ⟨hphase, hstep⟩ := Option.ite_none_right_eq_some.mp hstep
    cases pending with
    | none =>
      obtain rfl := Option.some.inj hstep
      exact h.primed_none hphase
    | some item =>
      obtain ⟨hkey, hstep⟩ := Option.ite_none_right_eq_some.mp hstep
      obtain rfl := Option.some.inj hstep
      exact h.primed_some hkey hfits
  | batch resync =>
    obtain ⟨hphase, hstep⟩ := Option.ite_none_right_eq_some.mp hstep
    obtain rfl := Option.some.inj hstep
    exact h.batch hphase
  | frame item =>
    obtain ⟨⟨hphase, -⟩, hstep⟩ := Option.ite_none_right_eq_some.mp hstep
    obtain rfl := Option.some.inj hstep
    exact h.played hphase hfits
  | close =>
    obtain rfl := Option.some.inj hstep
    refine ⟨List.mem_append_left _ h.ready, nofun, h.session, nofun, nofun, ?_⟩
    rw [admitted_of_silent rfl]
    exact ⟨h.sent.clock, h.sent.written⟩

/-- **Every event** leads on. -/
theorem Stands.step (h : Stands streamId run s) (hfits : Fits streamId (run ++ [e]))
    (hstep : s.step e = some s') :
    Stands streamId (run ++ [e]) s' := by
  rcases h with hwaits | ⟨stream, hstreams⟩
  · exact hwaits.step hfits hstep
  · exact .inr ⟨stream, hstreams.step hfits hstep⟩

/-- Along every run that fits. -/
theorem stands_run (hfits : Fits streamId run) (h : exec step (new streamId) run = some s) :
    Stands streamId run s := by
  induction run using List.reverseRecOn generalizing s with
  | nil =>
    obtain rfl := Option.some.inj h
    exact .inl ⟨.inl rfl, rfl, nofun, rfl, fun _ => ⟨rfl, rfl⟩⟩
  | append_singleton run e ih =>
    obtain ⟨s₁, hrun, hstep⟩ := exec_concat.mp h
    exact (ih hfits.of_concat hrun).step hfits hstep

theorem firstTags_valid (hfits : (metadataData streamId).length < 2 ^ 24)
    (hsets : ∀ sps ∈ stream.sps, ∀ pps ∈ stream.pps,
      (avcSequenceHeaderData sps pps).length < 2 ^ 24) :
    ∀ tag ∈ firstTags streamId stream, tag.Valid := fun tag htag =>
  ⟨(HttpFlvSession.emitsTags_generateInitialData (HttpFlvSession.new streamId) stream).types tag
    htag, firstTags_fit hfits hsets tag htag⟩

theorem tagAt_valid (h : FrameFits frame) (ms : UInt64) : (tagAt frame ms).Valid := by
  have hvideo : (0x09 : UInt8) ∈ Flv.tagTypes := by decide
  have haudio : (0x08 : UInt8) ∈ Flv.tagTypes := by decide
  unfold tagAt
  split
  · exact ⟨hvideo, h.1⟩
  · exact ⟨haudio, h.2⟩

theorem tagsOf_valid (hfits : Fits streamId run) : ∀ tag ∈ tagsOf (admitted run), tag.Valid := by
  intro tag htag
  obtain ⟨p, hp, rfl⟩ := List.mem_map.mp htag
  have hrelayed : p.1 ∈ relayed run := by
    rw [relayed_eq, ← map_fst_tagged]
    exact List.mem_map_of_mem hp
  exact tagAt_valid (hfits.frames p.1 hrelayed) p.2

/-- A viewer goes on from what `prime_live_play` returns. -/
theorem exists_step_primed {hub : StreamHub} {r : DispatchReader} {f : StoredFrame}
    {m : StreamManager} (hwell : Priming.StartsWell hub r f) (hphase : s.phase = .priming)
    (hframe : item.frame = prepareH264PlayFrame m s.session.streamId f.toMediaFrame) :
    ∃ s', s.step (.primed (some item) r.pendingMuxerResync) = some s' := by
  have hkey := hwell.prepared m s.session.streamId
  rw [← hframe] at hkey
  exact ⟨_, (if_pos hphase).trans (if_pos hkey)⟩

/-- **The body of a run.** Once the stream is being sent, its body is one that nothing ends, and
what has been written of it is read as a file: the metadata and the sequence headers, then a tag for
each frame that has passed the gate, at the times of the clock of the run, which rise. Whatever part
of it has arrived is read as a part of this file. -/
theorem body_run (streamId : StreamId) {run : List FlvPlayEvent} (hfits : Fits streamId run)
    (h : exec step (new streamId) run = some s) (hheaders : .headers ∈ s.written) :
    (tagged (admitted run)).map Prod.fst = relayed run ∧
      Rises ((tagged (admitted run)).map Prod.snd) ∧
      ∃ stream data, .ready stream ∈ run ∧
        Chunked.decode (s.written.flatMap FlvWrite.bodyBytes) = (.start, data) ∧
        (∀ part, part <+: s.written.flatMap FlvWrite.bodyBytes →
          ¬(Chunked.decode part).1.Stuck ∧ (Chunked.decode part).2 <+: data) ∧
        Flv.parseFile data =
          some (flvFlags (HttpFlvSession.hasVideo stream) (HttpFlvSession.hasAudio stream),
          firstTags streamId stream ++ tagsOf (admitted run)) := by
  refine ⟨map_fst_tagged _, rises_tagged _, ?_⟩
  rcases stands_run hfits h with hwaits | ⟨stream, hstreams⟩
  · exact absurd hheaders hwaits.silent
  · obtain ⟨chunks, hwritten, hne, hdata⟩ := hstreams.sent.written
    have hbytes : s.written.flatMap FlvWrite.bodyBytes = chunks.flatMap Chunked.chunk := by
      rw [hwritten, List.flatMap_cons, List.flatMap_map]
      rfl
    have hflags : ∀ video audio, flvFlags video audio &&& 0xFA = 0 := by decide
    have hfirst := firstTags_valid hfits.metadata (hfits.sets stream hstreams.ready)
    have hvalid : ∀ tag ∈ firstTags streamId stream ++ tagsOf (admitted run), tag.Valid :=
      List.forall_mem_append.mpr ⟨hfirst, tagsOf_valid hfits⟩
    have hdecode : Chunked.decode (chunks.flatMap Chunked.chunk) = (.start, chunks.flatten) :=
      Chunked.feed_chunks hne []
    rw [hbytes]
    refine ⟨stream, chunks.flatten, hstreams.ready, hdecode, fun part hpart => ?_, ?_⟩
    · rw [← show (Chunked.decode (chunks.flatMap Chunked.chunk)).2 = chunks.flatten by rw [hdecode]]
      refine Chunked.prefix_of_feed ?_ hpart
      rw [← Chunked.decode, hdecode]
      exact Chunked.start_not_stuck
    · rw [hdata]
      exact Flv.parseFile_bytes (hflags _ _) hvalid

/-- A key frame to start from. -/
def keyItem : FlvItem :=
  { frame := HttpFlvSession.flvFrame, stream := none, first := 0, now := 0, headersSent := true,
    sent := true }

/-- A frame behind it. -/
def deltaItem : FlvItem :=
  { frame := (MediaFrame.new "cam" 0 40 [0x00, 0x00, 0x00, 0x01, 0x41]
    false .h264).withClockRate VIDEO_RTP_CLOCK_RATE, stream := none, first := 0, now := 40000000,
    headersSent := true, sent := true }

/-- A short run. -/
def shortRun : List FlvPlayEvent :=
  [.ready HttpFlvSession.flvStream, .primed (some keyItem) false, .batch false, .frame deltaItem]

theorem fits_shortRun : Fits "cam" shortRun := by
  refine ⟨by decide, fun stream hmem => ?_, by decide⟩
  obtain rfl : stream = HttpFlvSession.flvStream := by simpa [shortRun] using hmem
  rintro sps ⟨⟩ pps ⟨⟩
  decide

theorem body_run_short : ∃ s, exec step (new "cam") shortRun = some s ∧ .headers ∈ s.written ∧
    tagged (admitted shortRun) = [(keyItem, 1), (deltaItem, 40)] ∧
      (tagged (admitted shortRun)).map Prod.fst = relayed shortRun ∧
      Rises ((tagged (admitted shortRun)).map Prod.snd) ∧
      ∃ stream data, .ready stream ∈ shortRun ∧
        Chunked.decode (s.written.flatMap FlvWrite.bodyBytes) = (.start, data) ∧
        (∀ part, part <+: s.written.flatMap FlvWrite.bodyBytes →
          ¬(Chunked.decode part).1.Stuck ∧ (Chunked.decode part).2 <+: data) ∧
        Flv.parseFile data = some (flvFlags (HttpFlvSession.hasVideo stream)
          (HttpFlvSession.hasAudio stream),
            firstTags "cam" stream ++ tagsOf (admitted shortRun)) := by
  obtain ⟨s, hs, hheaders⟩ : ∃ s, exec step (new "cam") shortRun = some s ∧ .headers ∈ s.written :=
    ⟨_, rfl, List.mem_cons_self⟩
  have htagged : tagged (admitted shortRun) = [(keyItem, 1), (deltaItem, 40)] := by decide
  exact ⟨s, hs, hheaders, htagged, body_run "cam" fits_shortRun hs hheaders⟩

/-- An IDR frame of video has come since the last gap. -/
def IdrSinceGap (run : List FlvPlayEvent) : Prop :=
  KeyGate.Unlocked (fun item : FlvItem => item.frame.codec.isVideo)
    (fun item => isIdrFrame item.frame) (run.flatMap gateEvents)

/-- **Which frames are sent**, in every run: those that are relayed at all and have a tag, but of
video only an IDR frame, or what comes when there has been one since the last gap. -/
theorem sends_iff (streamId : StreamId) {run : List FlvPlayEvent}
    (hfits : Fits streamId (run ++ [.frame item])) (h : exec step (new streamId) run = some s)
    (hstep : s.step (.frame item) = some s') :
    (∃ ms, s'.written = s.written ++ [.chunk (tagAt item.frame ms).bytes]) ↔
      Relayable item.frame ∧ item.frame.codec ≠ .unknown ∧
        (item.frame.codec.isVideo = true → isIdrFrame item.frame = true ∨ IdrSinceGap run) := by
  obtain ⟨⟨hphase, -⟩, hstep⟩ := Option.ite_none_right_eq_some.mp hstep
  obtain rfl := Option.some.inj hstep
  rcases stands_run hfits.of_concat h with hwaits | ⟨stream, hstreams⟩
  · rcases hwaits.phase with hwaits | hwaits <;> cases hphase.symm.trans hwaits
  · have hopened : s.videoStreaming = true ↔ IdrSinceGap run := by
      rw [hstreams.gate hphase, opened, KeyGate.opened_final, KeyGate.Opened, IdrSinceGap]
      simp
    have hadmitted : Relayable item.frame ∧ item.frame.codec ≠ .unknown ∧
        (item.frame.codec.isVideo = true → isIdrFrame item.frame = true ∨ IdrSinceGap run) ↔
          (letThrough s.videoStreaming item.frame).isSome = true ∧ item.frame.codec ≠ .unknown := by
      rw [isSome_letThrough, hopened, and_assoc]
      exact and_congr_right fun _ => and_comm
    have hunchanged : ∀ ms :
        UInt64, s.written ≠ s.written ++ [.chunk (tagAt item.frame ms).bytes] := fun ms heq =>
      List.cons_ne_nil _ _ (List.self_eq_append_right.mp heq)
    rw [hadmitted, takeFrame_eq hstreams.session]
    cases hadmit : letThrough s.videoStreaming item.frame with
    | none =>
      refine iff_of_false ?_ fun h => Bool.false_ne_true h.1
      rintro ⟨ms, heq⟩
      exact hunchanged ms heq
    | some videoStreaming =>
      rw [and_iff_right (Option.isSome_some)]
      obtain ⟨hopus, hg711⟩ := codec_of_letThrough hadmit
      by_cases hcodec : item.frame.codec = .unknown
      · refine iff_of_false ?_ (not_not.mpr hcodec)
        rintro ⟨ms, heq⟩
        dsimp only at heq
        rw [sendTag, HttpFlvSession.frameToFlvWithWallclock, hcodec] at heq
        exact hunchanged ms heq
      · refine iff_of_true ⟨(s.wallclock.mapMs item.first item.now).1.lastEmitMs, ?_⟩ hcodec
        have hmem : item ∈ LiveGate.admitted FlvItem.frame (opened run)
            (gateEvents (.frame item)) := by
          rw [← hstreams.gate hphase, gateEvents, LiveGate.admitted_of_some hadmit]
          exact List.mem_singleton_self _
        dsimp only
        rw [sendTag, frameToFlvWithWallclock_eq (hfits.of_admitted hmem hcodec) hcodec hopus hg711]
        dsimp only
        rw [if_neg (bytes_ne_nil _)]
        rfl

theorem sends_iff_short : ∃ s s', exec step (new "cam") (shortRun.take 3) = some s ∧
    s.step (.frame deltaItem) = some s' ∧
      ((∃ ms, s'.written = s.written ++ [.chunk (tagAt deltaItem.frame ms).bytes]) ↔
        Relayable deltaItem.frame ∧ deltaItem.frame.codec ≠ .unknown ∧
          (deltaItem.frame.codec.isVideo = true →
            isIdrFrame deltaItem.frame = true ∨ IdrSinceGap (shortRun.take 3))) := by
  obtain ⟨s, s', hs, hstep⟩ : ∃ s s', exec step (new "cam") (shortRun.take 3) = some s ∧
      s.step (.frame deltaItem) = some s' := ⟨_, _, rfl, rfl⟩
  exact ⟨s, s', hs, hstep, sends_iff "cam" fits_shortRun hs hstep⟩

end FlvPlay

end VcpMediaServer
