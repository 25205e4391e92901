import VcpMediaServer.HlsSegments
import VcpMediaServer.ReaderCursor

/-!
# The mux loop

The task that `HlsServer::start_stream` spawns: it reads the frames of a stream in batches, gives
them to the session, and writes the segments that this completes. A loop that lags is put to the
latest key frame, **wherever that is**, and the open segment is thrown away.

* `HlsLoop.step` — a publish or a reset of the hub, or what the loop does between two awaits.
* `SameReading` — what a recovery and a frame leave alone; `take_eq`, for a batch.

A run also keeps its history: the numbers that `on_frame` was given, the frames of the open segment
and of those that were completed, and what became of these. No step looks at it.
-/

namespace VcpMediaServer

open Lts

/-- `HLS_MUX_LAG_SNAP_THRESHOLD`. -/
def HLS_MUX_LAG_SNAP_THRESHOLD : ℕ := 30

/-- What becomes of a segment. -/
inductive SegmentEvent where
  /-- It is written and in the playlist. -/
  | committed (sequence : ℕ) (discontinuity : Bool)
  /-- It could not be written, or not be renamed. -/
  | failed
  /-- It is thrown away before it is complete. -/
  | discarded
  deriving DecidableEq, Repr

/-- Where the loop stands. -/
inductive LoopPhase where
  /-- The stream is not subscribed to. -/
  | unsubscribed
  /-- `finish_prime` is next. -/
  | subscribed
  /-- The frames of a batch are next; if there are none, the loop begins again. -/
  | muxing (frames : List StoredFrame)
  /-- `recv_batch` is next, or waits. -/
  | receiving (waiting : Bool)

/-- The loop, its session and its hub, and the history of the run. -/
structure HlsLoop (F : Type) where
  /-- The hub. -/
  hub : StreamHub
  /-- The reader, once there is one. -/
  reader : DispatchReader
  /-- The session. -/
  session : HlsSession F
  /-- Where the loop stands. -/
  phase : LoopPhase
  /-- The numbers of the frames that `on_frame` was given. -/
  passed : List ℕ
  /-- The frames of the open segment. -/
  inSegment : List MediaFrame
  /-- The completed segments, and their frames. -/
  completed : List (CompletedSegment F × List MediaFrame)
  /-- What became of the segments. -/
  events : List SegmentEvent

/-- What a frame meets: the time, the parameter sets of the stream if it has both, and whether a
segment that it completes is written and renamed. -/
structure FrameEnv where
  /-- The wall clock. -/
  now : ℤ
  /-- `stream.sps` and `stream.pps`. -/
  config : Option (List UInt8 × List UInt8)
  /-- Both file operations succeed. -/
  written : Bool

/-- A call on the hub, or a step of the loop. -/
inductive HlsLoopStep where
  | publish (frame : MediaFrame)
  | reset
  | subscribe
  | finishPrime
  /-- The check for a lag. -/
  | check
  /-- `recv_batch` is called. -/
  | recv
  /-- A waiting `recv_batch` finds the watch channel changed. -/
  | wake
  /-- The next frame of the batch. -/
  | mux (env : FrameEnv)

/-- A key frame of H264 is given the parameter sets of the stream. -/
def withConfig (config : Option (List UInt8 × List UInt8)) (frame : MediaFrame) : MediaFrame :=
  match config with
  | some (sps, pps) =>
    if frame.codec = .h264 ∧ isHlsVideoKeyframe frame then
      (MediaFrame.new frame.streamId frame.trackId frame.timestamp
        (annexBWithConfig sps pps frame.data)
        frame.isKeyframe frame.codec).withOptionalClockRate frame.clockRate
    else frame
  | none => frame

namespace HlsLoop

variable {F : Type} [F64 F]

/-- A new session on a new hub. -/
def init (stream : Stream) (segmentDuration : F) (maxSegments : ℕ) : HlsLoop F where
  hub := StreamHub.withStream stream
  reader := DispatchReader.new (StreamHub.withStream stream) .sequentialFromIdr
  session := .new stream.id segmentDuration maxSegments
  phase := .unsubscribed
  passed := []
  inSegment := []
  completed := []
  events := []

/-- The session recovers from a lag. -/
def recover (s : HlsLoop F) : HlsLoop F :=
  { s with session := s.session.recoverFromLag, inSegment := [], events := s.events ++
    [.discarded] }

/-- The lag. -/
def lag (s : HlsLoop F) : ℕ := s.hub.latestSeq - s.reader.cursor

/-- The check for a lag. -/
def check (s : HlsLoop F) : HlsLoop F :=
  if HLS_MUX_LAG_SNAP_THRESHOLD < s.lag then
    { s.recover with reader := s.reader.snapToLatestIdr s.hub, phase := .receiving false }
  else { s with phase := .receiving false }

/-- A batch is taken, and the flags of the reader with it. -/
def take (s : HlsLoop F) (r : DispatchReader) : HlsLoop F :=
  let (frames, r) := r.recvBatch s.hub
  if frames = [] then { s with reader := r, phase := .muxing [] }
  else
    let (liveSnap, r) := r.takeLiveSnap
    let s := if liveSnap then s.recover else s
    let (resync, r) := r.takeMuxerResync
    let s := if resync then s.recover else s
    { s with reader := r, phase := .muxing frames }

/-- The frame as `on_frame` is given it, unless the loop passes over it. -/
def given (env : FrameEnv) (f : StoredFrame) : Option MediaFrame :=
  if f.codec = .opus ∨ f.codec = .g711 then none else some (withConfig env.config f.toMediaFrame)

/-- A segment is written: if it could be, it is put into the playlist. -/
def commit (session : HlsSession F) (c : CompletedSegment F) (written : Bool) : HlsSession F :=
  if written then
    { session with playlist := session.playlist.addSegment c.duration c.seq c.pdt c.discontinuity }
  else session

/-- `on_frame` is given a frame, and what it completes is written. -/
def onFrame (s : HlsLoop F) (env : FrameEnv) (frame : MediaFrame) : HlsLoop F :=
  let (session, completed) := s.session.onFrame env.now frame
  match completed with
  | none =>
    { s with
      session
      inSegment := if s.session.accepts frame then s.inSegment ++ [frame] else s.inSegment }
  | some c =>
    { s with
      session := commit session c env.written
      inSegment := [frame]
      completed := s.completed ++ [(c, s.inSegment)]
      events := s.events ++ [if env.written then .committed c.seq c.discontinuity else .failed] }

/-- The next frame of the batch. -/
def mux (s : HlsLoop F) (env : FrameEnv) (f : StoredFrame) (rest : List StoredFrame) : HlsLoop F :=
  match given env f with
  | none => { s with phase := .muxing rest }
  | some frame => { s.onFrame env frame with phase := .muxing rest, passed := s.passed ++ [f.seq] }

/-- One step. -/
def step (s : HlsLoop F) : HlsLoopStep → Option (HlsLoop F)
  | .publish frame => (s.hub.publish frame).map fun hub => { s with hub }
  | .reset => some { s with hub := s.hub.reset }
  | .subscribe =>
    match s.phase with
    | .unsubscribed =>
      some { s with reader := DispatchReader.new s.hub .sequentialFromIdr, phase := .subscribed }
    | _ => none
  | .finishPrime =>
    match s.phase with
    | .subscribed => some { s with reader := s.reader.finishPrime s.hub, phase := .muxing [] }
    | _ => none
  | .check =>
    match s.phase with
    | .muxing [] => some s.check
    | _ => none
  | .recv =>
    match s.phase with
    | .receiving false =>
      some (if s.reader.ensureReady s.hub then s.take s.reader
        else { s with phase := .receiving true })
    | _ => none
  | .wake =>
    match s.phase with
    | .receiving true =>
      if s.reader.wake != s.hub.seqTx then some (s.take (s.reader.seen s.hub.seqTx)) else none
    | _ => none
  | .mux env =>
    match s.phase with
    | .muxing (f :: rest) => some (s.mux env f rest)
    | _ => none

/-! ## What the steps keep -/

section Frame

variable {s : HlsLoop F} {env : FrameEnv} {frame : MediaFrame} {session : HlsSession F}

/-- A frame that completes no segment. -/
theorem onFrame_of_none (h : s.session.onFrame env.now frame = (session, none)) :
    s.onFrame env frame = { s with
      session
      inSegment := if s.session.accepts frame then s.inSegment ++ [frame] else s.inSegment } := by
  rw [onFrame, h]

/-- A frame that completes one. -/
theorem onFrame_of_some {c : CompletedSegment F}
    (h : s.session.onFrame env.now frame = (session, some c)) :
    s.onFrame env frame = { s with
      session := commit session c env.written
      inSegment := [frame]
      completed := s.completed ++ [(c, s.inSegment)]
      events := s.events ++
        [if env.written then .committed c.seq c.discontinuity else .failed] } := by
  rw [onFrame, h]

end Frame

/-- What is changed neither by a recovery nor by a frame. -/
structure SameReading (s' s : HlsLoop F) : Prop where
  hub : s'.hub = s.hub
  reader : s'.reader = s.reader
  phase : s'.phase = s.phase
  passed : s'.passed = s.passed

theorem sameReading_recover (s : HlsLoop F) (n : ℕ) : SameReading (recover^[n] s) s := by
  induction n generalizing s with
  | zero => exact ⟨rfl, rfl, rfl, rfl⟩
  | succ n ih =>
    obtain ⟨hhub, hreader, hphase, hpassed⟩ := ih s.recover
    exact ⟨hhub, hreader, hphase, hpassed⟩

theorem sameReading_onFrame (s : HlsLoop F) (env : FrameEnv) (frame : MediaFrame) :
    SameReading (s.onFrame env frame) s := by
  rw [onFrame]
  generalize s.session.onFrame env.now frame = r
  obtain ⟨session, _ | c⟩ := r
  · exact ⟨rfl, rfl, rfl, rfl⟩
  · exact ⟨rfl, rfl, rfl, rfl⟩

/-- A batch is taken by a session that may have recovered first. -/
theorem take_eq (s : HlsLoop F) (r : DispatchReader) :
    ∃ n r', r'.cursor = (r.recvBatch s.hub).2.cursor ∧ r'.policy = (r.recvBatch s.hub).2.policy ∧
      s.take r = { recover^[n] s with reader := r', phase := .muxing (r.recvBatch s.hub).1 } := by
  rw [take]
  generalize r.recvBatch s.hub = batch
  obtain ⟨frames, r'⟩ := batch
  dsimp only
  split
  · next hnil => exact ⟨0, r', rfl, rfl, by rw [hnil]; rfl⟩
  · refine ⟨(if r'.takeLiveSnap.2.takeMuxerResync.1 then 1 else 0) +
      (if r'.takeLiveSnap.1 then 1 else 0), r'.takeLiveSnap.2.takeMuxerResync.2, rfl, rfl, ?_⟩
    rw [Function.iterate_add_apply]
    cases r'.takeLiveSnap.1 <;> cases r'.takeLiveSnap.2.takeMuxerResync.1 <;> rfl

omit [F64 F] in
/-- The same session, with the same history of its segments. -/
structure SameSegments (s' s : HlsLoop F) : Prop where
  session : s'.session = s.session
  inSegment : s'.inSegment = s.inSegment
  completed : s'.completed = s.completed
  events : s'.events = s.events

/-- To the session, the next frame of a batch is the frame that it is given. -/
theorem sameSegments_mux (s : HlsLoop F) {env : FrameEnv} {f : StoredFrame} {frame : MediaFrame}
    (hgiven : given env f = some frame) (rest : List StoredFrame) :
    SameSegments (s.mux env f rest) (s.onFrame env frame) := by
  rw [mux, hgiven]
  exact ⟨rfl, rfl, rfl, rfl⟩

/-- The next frame of a batch is given to the session. -/
structure Gives (s : HlsLoop F) (l : HlsLoopStep) (env : FrameEnv) (frame : MediaFrame) : Prop where
  label : l = .mux env
  given : ∃ f rest, s.phase = .muxing (f :: rest) ∧ HlsLoop.given env f = some frame

/-- To the session a step does one of two things: it recovers, once or twice or not at all, or it is
given a frame. -/
theorem step_cases {s s' : HlsLoop F} {l : HlsLoopStep} (h : s.step l = some s') :
    (∃ n, SameSegments s' (recover^[n] s)) ∨
      ∃ env frame, s.Gives l env frame ∧ SameSegments s' (s.onFrame env frame) := by
  have htake : ∀ r, ∃ n, SameSegments (s.take r) (recover^[n] s) := by
    intro r
    obtain ⟨n, r', -, -, heq⟩ := s.take_eq r
    rw [heq]
    exact ⟨n, rfl, rfl, rfl, rfl⟩
  have hleft : ∀ {t : HlsLoop F}, some t = some s' → SameSegments t s →
      ∃ n, SameSegments s' (recover^[n] s) := by
    intro t ht hsame
    obtain rfl := Option.some.inj ht
    exact ⟨0, hsame⟩
  cases l with
  | publish frame =>
    obtain ⟨hub, -, rfl⟩ := Option.map_eq_some_iff.mp h
    exact .inl ⟨0, rfl, rfl, rfl, rfl⟩
  | reset => exact .inl (hleft h ⟨rfl, rfl, rfl, rfl⟩)
  | subscribe =>
    rw [step] at h
    split at h
    · exact .inl (hleft h ⟨rfl, rfl, rfl, rfl⟩)
    · cases h
  | finishPrime =>
    rw [step] at h
    split at h
    · exact .inl (hleft h ⟨rfl, rfl, rfl, rfl⟩)
    · cases h
  | check =>
    rw [step] at h
    split at h
    · obtain rfl := Option.some.inj h
      rw [check]
      split
      · exact .inl ⟨1, rfl, rfl, rfl, rfl⟩
      · exact .inl ⟨0, rfl, rfl, rfl, rfl⟩
    · cases h
  | recv =>
    rw [step] at h
    split at h
    · obtain rfl := Option.some.inj h
      split
      · exact .inl (htake s.reader)
      · exact .inl ⟨0, rfl, rfl, rfl, rfl⟩
    · cases h
  | wake =>
    rw [step] at h
    split at h
    · split at h
      · obtain rfl := Option.some.inj h
        exact .inl (htake _)
      · cases h
    · cases h
  | mux env =>
    rw [step] at h
    split at h
    · next f rest hphase =>
      obtain rfl := Option.some.inj h
      cases hgiven : given env f with
      | none =>
        rw [mux, hgiven]
        exact .inl ⟨0, rfl, rfl, rfl, rfl⟩
      | some frame =>
        exact .inr ⟨env, frame, ⟨rfl, f, rest, hphase, hgiven⟩, s.sameSegments_mux hgiven rest⟩
    · cases h

/-- A session with segments of a second. -/
def testLoop : HlsLoop ℚ :=
  .init (StreamHub.new "live").stream 1 5

/-- Every segment is written. -/
def testEnv : FrameEnv where
  now := 0
  config := none
  written := true

end HlsLoop

end VcpMediaServer
