import VcpMediaServer.FlvPlayTimeline
import VcpMediaServer.H264Util
import VcpMediaServer.MediaPaths
import VcpMediaServer.TsMuxer

/-!
# The recorder

`record/mod.rs`: a recording session is a task that writes the frames of a stream into segments, and
keeps an entry for each of them in an index that all sessions share. `RecorderManager` lists the
sessions that it has started.

* `SegmentWriter` — a segment: its file, its muxer and what is counted.
* `Recorder` — the manager and its tasks; calls of `start` and the tasks take **one step at a
  time**, with a reading of the clock where the source reads it.
* `Recorder.step` — the steps, those of a task that ends by itself included.
-/

namespace VcpMediaServer

open Paths

/-- `ACTIVE_INDEX_FLUSH_INTERVAL_MS`. -/
def ACTIVE_INDEX_FLUSH_INTERVAL_MS : ℕ := 5000

/-! ## The index -/

/-- The status of an entry. -/
inductive RecordStatus
  | recording
  | empty
  | completed
  deriving DecidableEq, Repr

/-- `RecordingEntry`. -/
structure RecordingEntry where
  id : List Char
  streamId : StreamId
  sessionId : List Char
  startedAtMs : ℕ
  endedAtMs : ℕ
  durationMs : ℕ
  path : Path
  bytes : ℕ
  videoFrames : ℕ
  audioFrames : ℕ
  keyframes : ℕ
  status : RecordStatus
  deriving DecidableEq

/-- `upsert_index_entry`: the first entry with the id is replaced. -/
def upsertIndexEntry (index : List RecordingEntry) (entry : RecordingEntry) : List RecordingEntry :=
  match index with
  | [] => [entry]
  | existing :: index =>
    if existing.id = entry.id then entry :: index else existing :: upsertIndexEntry index entry

/-! ## Sessions -/

/-- `RecordConfig`. -/
structure RecordConfig where
  enabled : Bool
  baseDir : Path
  /-- In seconds. -/
  segmentDuration : ℕ
  alignKeyframe : Bool

/-- `StartRecordRequest`; the only format is TS. -/
structure StartRecordRequest where
  streamId : StreamId
  /-- In seconds. -/
  segmentDuration : Option ℕ
  alignKeyframe : Option Bool

/-- `RecordTask`, without what it shares with the manager. -/
structure RecordTask where
  streamId : StreamId
  /-- The reading of the clock in the id of the session. -/
  sessionMs : ℕ
  baseDir : Path
  segmentDurationMs : ℕ
  alignKeyframe : Bool
  declaredHasVideo : Bool
  declaredHasAudio : Bool

def RecordTask.sessionId (task : RecordTask) : List Char :=
  recordSessionId task.streamId.toList task.sessionMs

/-- The task that `start` spawns. -/
def RecordConfig.newTask (config : RecordConfig) (req : StartRecordRequest) (tracks : List Track)
    (now : ℕ) :
    RecordTask where
  streamId := req.streamId
  sessionMs := now
  baseDir := config.baseDir
  segmentDurationMs := max (req.segmentDuration.getD config.segmentDuration) 1 * 1000
  alignKeyframe := req.alignKeyframe.getD config.alignKeyframe
  declaredHasVideo := tracks.isEmpty || tracks.any fun track => track.codec.isVideo
  declaredHasAudio := tracks.isEmpty || tracks.any fun track => track.codec = .aac

/-! ## Segments -/

/-- `SegmentWriter`. -/
structure SegmentWriter where
  id : List Char
  streamId : StreamId
  sessionId : List Char
  path : Path
  muxer : TsMuxer
  timeline : FlvPlayTimeline
  startedAtMs : ℕ
  endedAtMs : ℕ
  hasVideo : Bool
  hasAudio : Bool
  videoFrames : ℕ
  audioFrames : ℕ
  keyframes : ℕ
  bytes : ℕ
  headerWritten : Bool
  lastIndexFlushMs : ℕ

namespace SegmentWriter

/-- `SegmentWriter::new` at the reading `now`, on the day `date`. `create_dir_all` makes the
directory of the day, so `File::create` finds **no directory** for a name that has a separator in
it. -/
def new (date : ℕ → ℕ × ℕ × ℕ) (task : RecordTask) (now : ℕ) : Option SegmentWriter :=
  let id := recordSegmentId task.sessionId now
  let file := id ++ ".ts".toList
  if '/' ∈ file then none
  else some {
    id
    streamId := task.streamId
    sessionId := task.sessionId
    path := join (dayDir task.baseDir task.streamId.toList (date now)) file
    muxer := .new
    timeline := .new
    startedAtMs := now
    endedAtMs := now
    hasVideo := task.declaredHasVideo
    hasAudio := task.declaredHasAudio
    videoFrames := 0
    audioFrames := 0
    keyframes := 0
    bytes := 0
    headerWritten := false
    lastIndexFlushMs := now }

/-- `SegmentWriter::build_entry`. -/
def buildEntry (w : SegmentWriter) (status : RecordStatus) : RecordingEntry where
  id := w.id
  streamId := w.streamId
  sessionId := w.sessionId
  startedAtMs := w.startedAtMs
  endedAtMs := w.endedAtMs
  durationMs := w.endedAtMs - w.startedAtMs
  path := w.path
  bytes := w.bytes
  videoFrames := w.videoFrames
  audioFrames := w.audioFrames
  keyframes := w.keyframes
  status

/-- `SegmentWriter::finish`: the entry that it puts into the index. -/
def finish (w : SegmentWriter) : RecordingEntry :=
  w.buildEntry (if w.bytes = 0 ∨ w.videoFrames = 0 then .empty else .completed)

theorem finish_status_ne (w : SegmentWriter) : w.finish.status ≠ .recording := by
  unfold finish buildEntry
  dsimp only
  split_ifs <;> exact RecordStatus.noConfusion

/-- `should_rotate` at the reading `now`; the sum is one of 64 bits. -/
def shouldRotate (w : SegmentWriter) (task : RecordTask) (frame : MediaFrame) (now : ℕ) : Bool :=
  if w.bytes = 0 then false
  else if now < (w.startedAtMs + task.segmentDurationMs) % 2 ^ 64 then false
  else if !task.alignKeyframe then true
  else frame.codec.isVideo && frame.isKeyframe

/-- What `write_frame` counts of a frame. -/
def count (w : SegmentWriter) (frame : MediaFrame) : SegmentWriter :=
  if frame.codec.isVideo then
    { w with
      hasVideo := true
      videoFrames := w.videoFrames + 1
      keyframes := if frame.isKeyframe then w.keyframes + 1 else w.keyframes }
  else { w with hasAudio := true, audioFrames := w.audioFrames + 1 }

/-- The tables in front of the first frame. -/
def writeHeader (w : SegmentWriter) : SegmentWriter :=
  if w.headerWritten then w
  else
    let (muxer, header) := w.muxer.generatePatPmt w.hasVideo w.hasAudio
    { w with muxer, bytes := w.bytes + header.length, headerWritten := true }

/-- The end of `write_frame`, with the readings at which the segment ends, at which the index is
looked at, and behind the flush of the index; the entry is the one that is flushed. -/
def writeData (w : SegmentWriter) (data : List UInt8) (ended looked flushed : ℕ) :
    SegmentWriter × Option RecordingEntry :=
  if data = [] then (w, none)
  else
    let w := { w with bytes := w.bytes + data.length, endedAtMs := ended }
    if ACTIVE_INDEX_FLUSH_INTERVAL_MS ≤ looked - w.lastIndexFlushMs then
      ({ w with lastIndexFlushMs := flushed }, some (w.buildEntry .recording))
    else (w, none)

end SegmentWriter

/-- `prepare_video_frame_for_record`. -/
def prepareVideoFrameForRecord (m : StreamManager) (streamId : StreamId) (frame : MediaFrame) :
    MediaFrame :=
  if frame.codec ≠ .h264 then frame
  else
    let prepared := (MediaFrame.new frame.streamId frame.trackId frame.timestamp
      (prependH264Config m streamId frame) frame.isKeyframe frame.codec).withOptionalClockRate
        frame.clockRate
    match frame.rtpData with
    | some rtpData => prepared.withRtpData rtpData
    | none => prepared

/-- `SegmentWriter::write_frame` behind the rotation. A rate of zero panics. -/
def SegmentWriter.writeFrame (w : SegmentWriter) (m : StreamManager) (frame : MediaFrame)
    (ended looked flushed : ℕ) :
    Option (SegmentWriter × Option RecordingEntry) :=
  if frame.codec.isVideo = false ∧ frame.codec ≠ .aac then some (w, none)
  else
    let w := (w.count frame).writeHeader
    let frame := if frame.codec.isVideo then prepareVideoFrameForRecord m w.streamId frame
      else frame
    (w.timeline.map frame).map fun (timeline, ts) =>
      let muxTsMs := ts.toUInt64
      let (muxer, data) := (w.muxer.updatePcr muxTsMs).frameToTs
        ({ frame with timestamp := muxTsMs }.withClockRate MILLISECOND_CLOCK_RATE)
      { w with timeline, muxer }.writeData data ended looked flushed

/-! ## The tasks -/

/-- Where a task is in `run`. -/
inductive RecordPhase
  /-- Spawned: it has no segment yet. -/
  | opening
  | writing (w : SegmentWriter)
  /-- Its segment is finished and it has no other one yet. Behind a resync the next one is put into
  the index at once, behind a rotation it is **not**. -/
  | renewing (w : SegmentWriter) (resync : Bool)
  /-- `run` has returned. -/
  | ended

/-- A task, and what it shares with the manager about its end. -/
structure RecordRun where
  task : RecordTask
  /-- The manager has sent `true` on the channel for the stop. -/
  told : Bool
  phase : RecordPhase

/-- What a task does next. -/
inductive RecordEvent
  /-- `SegmentWriter::new` and `persist_index`, with a reading of the clock each. -/
  | create (now flushed : ℕ)
  | resync
  /-- The rotation of `write_frame`, up to its `SegmentWriter::new`. -/
  | rotate (frame : MediaFrame) (now : ℕ)
  | write (m : StreamManager) (frame : MediaFrame) (ended looked flushed : ℕ)
  /-- It finds that it is told to stop. -/
  | finish
  /-- Its reader is closed. -/
  | close
  /-- An error, at any of the calls that may fail. -/
  | fail

/-- The reading that a segment is made at. -/
def RecordEvent.creates : RecordEvent → Option ℕ
  | create now _ => some now
  | _ => none

/-- What has come of an event: the phase, an entry for the index, a file that is made, and the
clock. -/
structure RecordOutcome where
  phase : RecordPhase
  entry : Option RecordingEntry
  made : Option SegmentWriter
  clock : ℕ

/-- Whether a segment is to be made, and then whether it is put into the index at once. -/
def RecordPhase.opens : RecordPhase → Option Bool
  | opening => some true
  | renewing _ resync => some resync
  | _ => none

/-- One step of a task, at a time not before `clock`. -/
def RecordRun.advance (date : ℕ → ℕ × ℕ × ℕ) (run : RecordRun) (clock : ℕ) :
    RecordEvent → Option RecordOutcome
  | .create now flushed =>
    run.phase.opens.bind fun listed =>
      if clock ≤ now then
        (SegmentWriter.new date run.task now).map fun w =>
          if listed then ⟨.writing { w with lastIndexFlushMs := flushed },
            some (w.buildEntry .recording), some w, now⟩
          else ⟨.writing w, none, some w, now⟩
      else none
  | .resync =>
    match run.phase with
    | .writing w => some ⟨.renewing w true, some w.finish, none, clock⟩
    | _ => none
  | .rotate frame now =>
    match run.phase with
    | .writing w =>
      if clock ≤ now ∧ w.shouldRotate run.task frame now then some
        ⟨.renewing w false, some w.finish, none, now⟩ else none
    | _ => none
  | .write m frame ended looked flushed =>
    match run.phase with
    | .writing w =>
      (w.writeFrame m frame ended looked flushed).map fun (w, entry) =>
        ⟨.writing w, entry, none, clock⟩
    | _ => none
  | .finish =>
    match run.phase with
    | .writing w => if run.told then some ⟨.ended, some w.finish, none, clock⟩ else none
    | _ => none
  | .close =>
    match run.phase with
    | .writing w => some ⟨.ended, some w.finish, none, clock⟩
    | _ => none
  | .fail =>
    match run.phase with
    | .ended => none
    | _ => some ⟨.ended, none, none, clock⟩

/-- The segment that a task has, finished or not. -/
def RecordPhase.current : RecordPhase → Option SegmentWriter
  | writing w => some w
  | renewing w _ => some w
  | _ => none

/-- The same segment, further on. -/
structure SegmentWriter.Same (w w' : SegmentWriter) : Prop where
  id : w'.id = w.id
  sessionId : w'.sessionId = w.sessionId
  startedAtMs : w'.startedAtMs = w.startedAtMs

theorem SegmentWriter.Same.trans {w w' w'' : SegmentWriter} (h : w.Same w') (h' : w'.Same w'') :
    w.Same w'' :=
  ⟨h'.id.trans h.id, h'.sessionId.trans h.sessionId, h'.startedAtMs.trans h.startedAtMs⟩

theorem SegmentWriter.same_count (w : SegmentWriter) (frame : MediaFrame) :
    w.Same (w.count frame) := by
  unfold SegmentWriter.count
  split <;> exact ⟨rfl, rfl, rfl⟩

theorem SegmentWriter.same_writeHeader (w : SegmentWriter) : w.Same w.writeHeader := by
  unfold SegmentWriter.writeHeader
  split <;> exact ⟨rfl, rfl, rfl⟩

/-- A segment that is made has the id of its session and of the reading. -/
theorem SegmentWriter.new_eq_some {date : ℕ → ℕ × ℕ × ℕ} {task : RecordTask} {now : ℕ}
    {w : SegmentWriter} (h : SegmentWriter.new date task now = some w) :
    '/' ∉ w.id ++ ".ts".toList ∧ w.id = recordSegmentId task.sessionId now ∧
      w.sessionId = task.sessionId ∧
      w.startedAtMs = now ∧
      w.path = join (dayDir task.baseDir task.streamId.toList (date now))
          (w.id ++ ".ts".toList) := by
  unfold SegmentWriter.new at h
  dsimp only at h
  split at h
  · cases h
  · next hslash =>
    obtain rfl := Option.some.inj h
    exact ⟨hslash, rfl, rfl, rfl, rfl⟩

theorem SegmentWriter.same_writeData {w w' : SegmentWriter} {data : List UInt8}
    {ended looked flushed : ℕ} {entry : Option RecordingEntry}
    (h : w.writeData data ended looked flushed = (w', entry)) :
    w.Same w' ∧ ∀ e ∈ entry, e.id = w.id ∧ e.sessionId = w.sessionId := by
  unfold SegmentWriter.writeData at h
  dsimp only at h
  split_ifs at h
  · cases h
    exact ⟨⟨rfl, rfl, rfl⟩, fun e he => absurd he (Option.not_mem_none e)⟩
  · cases h
    exact ⟨⟨rfl, rfl, rfl⟩, fun e he => Option.some.inj he ▸ ⟨rfl, rfl⟩⟩
  · cases h
    exact ⟨⟨rfl, rfl, rfl⟩, fun e he => absurd he (Option.not_mem_none e)⟩

/-- A frame is written to the **same** segment, whose entry in the index is the one of a recording.
-/
theorem SegmentWriter.writeFrame_eq_some {w w' : SegmentWriter} {m : StreamManager}
    {frame : MediaFrame} {ended looked flushed : ℕ} {entry : Option RecordingEntry}
    (h : w.writeFrame m frame ended looked flushed = some (w', entry)) :
    w.Same w' ∧ ∀ e ∈ entry, e.id = w.id ∧ e.sessionId = w.sessionId := by
  unfold SegmentWriter.writeFrame at h
  split at h
  · cases h
    exact ⟨⟨rfl, rfl, rfl⟩, fun e he => absurd he (Option.not_mem_none e)⟩
  · obtain ⟨r, -, hr⟩ := Option.map_eq_some_iff.mp h
    have hcount : w.Same (w.count frame).writeHeader :=
      (w.same_count frame).trans (SegmentWriter.same_writeHeader _)
    dsimp only at hr
    obtain ⟨hsame, hentry⟩ := SegmentWriter.same_writeData hr
    refine ⟨hcount.trans ⟨hsame.id, hsame.sessionId, hsame.startedAtMs⟩, fun e he => ?_⟩
    obtain ⟨hid, hsession⟩ := hentry e he
    exact ⟨hid.trans hcount.id, hsession.trans hcount.sessionId⟩

/-- What an event may come to. -/
inductive RecordRun.Goes (date : ℕ → ℕ × ℕ × ℕ) (run : RecordRun) (clock : ℕ) :
    RecordEvent → RecordOutcome → Prop
  | create {now flushed : ℕ} {listed : Bool} {w w' : SegmentWriter}
    (hopens : run.phase.opens = some listed)
      (hclock : clock ≤ now) (hnew : SegmentWriter.new date run.task now = some w)
      (hsame : w.Same w') :
      Goes date run clock (.create now flushed)
        ⟨.writing w', if listed then some (w.buildEntry .recording) else none, some w, now⟩
  | renew {event : RecordEvent} {w : SegmentWriter} {now : ℕ} (resync : Bool)
    (hevent : event.creates = none)
      (hphase : run.phase = .writing w) (hclock : clock ≤ now) :
      Goes date run clock event ⟨.renewing w resync, some w.finish, none, now⟩
  | write {event : RecordEvent} {w w' : SegmentWriter} {entry : Option RecordingEntry}
    (hevent : event.creates = none)
      (hphase : run.phase = .writing w) (hsame : w.Same w')
      (hentry : ∀ e ∈ entry, e.id = w.id ∧ e.sessionId = w.sessionId) :
      Goes date run clock event ⟨.writing w', entry, none, clock⟩
  | finish {event : RecordEvent} {w : SegmentWriter}
    (hevent : event = .close ∨ event = .finish ∧ run.told = true)
      (hphase : run.phase = .writing w) :
      Goes date run clock event ⟨.ended, some w.finish, none, clock⟩
  | fail (hphase : run.phase ≠ .ended) : Goes date run clock .fail ⟨.ended, none, none, clock⟩

theorem RecordRun.goes_of_advance {date : ℕ → ℕ × ℕ × ℕ} {run : RecordRun} {clock : ℕ}
    {event : RecordEvent} {out : RecordOutcome} (h : run.advance date clock event = some out) :
    run.Goes date clock event out := by
  cases event with
  | create now flushed =>
    obtain ⟨listed, hopens, h⟩ := Option.bind_eq_some_iff.mp h
    split at h
    · next hclock =>
      obtain ⟨w, hnew, rfl⟩ := Option.map_eq_some_iff.mp h
      cases listed with
      | true => exact .create hopens hclock hnew ⟨rfl, rfl, rfl⟩
      | false => exact .create hopens hclock hnew ⟨rfl, rfl, rfl⟩
    · cases h
  | resync =>
    simp only [RecordRun.advance] at h
    split at h
    · next w hphase =>
      obtain rfl := Option.some.inj h
      exact .renew true rfl hphase le_rfl
    · cases h
  | rotate frame now =>
    simp only [RecordRun.advance] at h
    split at h
    · next w hphase =>
      split at h
      · next hnow =>
        obtain rfl := Option.some.inj h
        exact .renew false rfl hphase hnow.1
      · cases h
    · cases h
  | write m frame ended looked flushed =>
    simp only [RecordRun.advance] at h
    split at h
    · next w hphase =>
      obtain ⟨⟨w', entry⟩, hwrite, rfl⟩ := Option.map_eq_some_iff.mp h
      obtain ⟨hsame, hentry⟩ := SegmentWriter.writeFrame_eq_some hwrite
      exact .write rfl hphase hsame hentry
    · cases h
  | finish =>
    simp only [RecordRun.advance] at h
    split at h
    · next w hphase =>
      split at h
      · next htold =>
        obtain rfl := Option.some.inj h
        exact .finish (.inr ⟨rfl, htold⟩) hphase
      · cases h
    · cases h
  | close =>
    simp only [RecordRun.advance] at h
    split at h
    · next w hphase =>
      obtain rfl := Option.some.inj h
      exact .finish (.inl rfl) hphase
    · cases h
  | fail =>
    simp only [RecordRun.advance] at h
    split at h
    · cases h
    · next hphase =>
      obtain rfl := Option.some.inj h
      exact .fail hphase

theorem RecordRun.Goes.clock_le {date : ℕ → ℕ × ℕ × ℕ} {run : RecordRun} {clock : ℕ}
    {event : RecordEvent} {out : RecordOutcome} (h : run.Goes date clock event out) :
    clock ≤ out.clock := by
  cases h with
  | create hopens hclock hnew hsame => exact hclock
  | renew resync hevent hphase hclock => exact hclock
  | write hevent hphase hsame hentry => exact le_rfl
  | finish hevent hphase => exact le_rfl
  | fail hphase => exact le_rfl

/-- A task that has ended goes nowhere. -/
theorem RecordRun.Goes.running {date : ℕ → ℕ × ℕ × ℕ} {run : RecordRun} {clock : ℕ}
    {event : RecordEvent} {out : RecordOutcome} (h : run.Goes date clock event out) :
    run.phase ≠ .ended := by
  intro hended
  cases h with
  | create hopens =>
    rw [hended] at hopens
    cases hopens
  | renew resync hevent hphase => cases hended.symm.trans hphase
  | write hevent hphase => cases hended.symm.trans hphase
  | finish hevent hphase => cases hended.symm.trans hphase
  | fail hphase => exact hphase hended

/-- No task goes back to where it has no segment yet. -/
theorem RecordRun.Goes.phase_ne {date : ℕ → ℕ × ℕ × ℕ} {run : RecordRun} {clock : ℕ}
    {event : RecordEvent} {out : RecordOutcome} (h : run.Goes date clock event out) :
    out.phase ≠ .opening := by
  cases h <;> exact RecordPhase.noConfusion

theorem RecordRun.Goes.creates {date : ℕ → ℕ × ℕ × ℕ} {run : RecordRun} {clock : ℕ}
    {event : RecordEvent} {out : RecordOutcome} (h : run.Goes date clock event out)
    (hout : out.made = none) : event.creates = none := by
  cases h with
  | create => cases hout
  | renew resync hevent => exact hevent
  | write hevent => exact hevent
  | finish hevent => rcases hevent with rfl | ⟨rfl, -⟩ <;> rfl
  | fail => rfl

/-- The tasks behind a step of one of them. -/
theorem getElem?_set_run {runs : List RecordRun} {k : ℕ} {run : RecordRun} (h : runs[k]? = some run)
    (run' : RecordRun) (j : ℕ) : (runs.set k run')[j]? = if k = j then some run' else runs[j]? := by
  obtain ⟨hlt, -⟩ := List.getElem?_eq_some_iff.mp h
  rw [List.getElem?_set, if_pos hlt]

theorem getElem?_concat_run (runs : List RecordRun) (run' : RecordRun) (j : ℕ) :
    (runs ++ [run'])[j]? = if j = runs.length then some run' else runs[j]? := by
  split_ifs with hj
  · rw [hj, List.getElem?_concat_length]
  · rcases Nat.lt_or_gt_of_ne hj with hlt | hgt
    · exact List.getElem?_append_left hlt
    · have hout : (runs ++ [run']).length ≤ j := by
        rw [List.length_append]
        exact hgt
      rw [List.getElem?_eq_none hout, List.getElem?_eq_none (Nat.le_of_lt hgt)]

theorem getElem?_tell_run (runs : List RecordRun) (k j : ℕ) :
    (runs.modify k fun run => { run with told := true })[j]? =
      runs[j]?.map fun run => { run with told := run.told || k = j } := by
  rw [List.getElem?_modify]
  cases runs[j]? with
  | none => rfl
  | some run => by_cases hkj : k = j <;> simp [hkj]

/-! ## The manager -/

/-- `RecorderManager` with the tasks it has spawned, and the calls of `start` that are under way. -/
structure Recorder where
  config : RecordConfig
  /-- The number of the task that is listed for a stream. -/
  active : StreamId → Option ℕ
  index : List RecordingEntry
  runs : List RecordRun
  /-- Calls of `start` that have found nothing listed. -/
  checked : List (StartRecordRequest × List Track)
  /-- The tasks of calls of `start` that have spawned and not inserted. -/
  spawned : List ℕ
  /-- The last reading that something is named after. -/
  clock : ℕ
  /-- The files that were made, and the tasks that made them. -/
  created : List (ℕ × SegmentWriter)

/-- A step of a call, or of a task. A session to stop is found by its stream in the end. -/
inductive RecorderStep
  | check (m : StreamManager) (req : StartRecordRequest)
  | spawn (call now : ℕ)
  | insert (call : ℕ)
  | stop (streamId : StreamId)
  | task (k : ℕ) (event : RecordEvent)

namespace Recorder

/-- `RecorderManager::new`. -/
def new (config : RecordConfig) : Recorder :=
  { config, active := fun _ => none, index := [], runs := [], checked := [], spawned := [],
    clock := 0, created := [] }

/-- The checks of `start`, and the tracks that it finds. -/
def startCheck (s : Recorder) (m : StreamManager) (req : StartRecordRequest) :
    Except String (List Track) :=
  if !s.config.enabled then .error "recording is disabled"
  else if Text.trim req.streamId.toList = [] then .error "missing stream_id"
  else
    match m.getStream req.streamId with
    | none => .error "stream not found"
    | some stream =>
      if (s.active req.streamId).isSome then .error "recording already active for stream"
        else .ok stream.tracks

/-- One step. A call that fails changes nothing. -/
def step (date : ℕ → ℕ × ℕ × ℕ) (s : Recorder) : RecorderStep → Option Recorder
  | .check m req =>
    match s.startCheck m req with
    | .error _ => some s
    | .ok tracks => some { s with checked := s.checked ++ [(req, tracks)] }
  | .spawn call now =>
    s.checked[call]?.bind fun (req, tracks) =>
      if s.clock ≤ now then
        some { s with
          checked := s.checked.eraseIdx call
          spawned := s.spawned ++ [s.runs.length]
          runs := s.runs ++ [⟨s.config.newTask req tracks now, false, .opening⟩]
          clock := now }
      else none
  | .insert call =>
    s.spawned[call]?.bind fun k => s.runs[k]?.map fun run =>
      { s with
        active := Function.update s.active run.task.streamId (some k)
        spawned := s.spawned.eraseIdx call }
  | .stop streamId =>
    match s.active streamId with
    | none => some s
    | some k =>
      some { s with
        active := Function.update s.active streamId none
        runs := s.runs.modify k fun run => { run with told := true } }
  | .task k event =>
    s.runs[k]?.bind fun run => (run.advance date s.clock event).map fun out =>
      { s with
        runs := s.runs.set k { run with phase := out.phase }
        index := out.entry.elim s.index (upsertIndexEntry s.index)
        created := s.created ++ (out.made.map fun w => (k, w)).toList
        clock := out.clock }

/-- What a step may come to. -/
inductive Goes (date : ℕ → ℕ × ℕ × ℕ) (s : Recorder) : RecorderStep → Recorder → Prop
  | refuseCheck {m : StreamManager} {req : StartRecordRequest} : Goes date s (.check m req) s
  | refuseStop {streamId : StreamId} : Goes date s (.stop streamId) s
  | check {m : StreamManager} {req : StartRecordRequest} {tracks : List Track}
    (hcheck : s.startCheck m req = .ok tracks) :
      Goes date s (.check m req) { s with checked := s.checked ++ [(req, tracks)] }
  | spawn {call now : ℕ} {req : StartRecordRequest} {tracks : List Track}
    (hcall : s.checked[call]? = some (req, tracks))
      (hclock : s.clock ≤ now) :
      Goes date s (.spawn call now) { s with
        checked := s.checked.eraseIdx call
        spawned := s.spawned ++ [s.runs.length]
        runs := s.runs ++ [⟨s.config.newTask req tracks now, false, .opening⟩]
        clock := now }
  | insert {call k : ℕ} {run : RecordRun} (hcall : s.spawned[call]? = some k)
    (hrun : s.runs[k]? = some run) :
      Goes date s (.insert call) { s with
        active := Function.update s.active run.task.streamId (some k)
        spawned := s.spawned.eraseIdx call }
  | stop {streamId : StreamId} {k : ℕ} (hactive : s.active streamId = some k) :
      Goes date s (.stop streamId) { s with
        active := Function.update s.active streamId none
        runs := s.runs.modify k fun run => { run with told := true } }
  | task {k : ℕ} {event : RecordEvent} {run : RecordRun} {out : RecordOutcome}
    (hrun : s.runs[k]? = some run)
      (hgoes : run.Goes date s.clock event out) :
      Goes date s (.task k event) { s with
        runs := s.runs.set k { run with phase := out.phase }
        index := out.entry.elim s.index (upsertIndexEntry s.index)
        created := s.created ++ (out.made.map fun w => (k, w)).toList
        clock := out.clock }

theorem goes_of_step {date : ℕ → ℕ × ℕ × ℕ} {s s' : Recorder} {e : RecorderStep}
    (h : s.step date e = some s') :
    s.Goes date e s' := by
  cases e with
  | check m req =>
    simp only [step] at h
    split at h
    · obtain rfl := Option.some.inj h
      exact .refuseCheck
    · next tracks hcheck =>
      obtain rfl := Option.some.inj h
      exact .check hcheck
  | spawn call now =>
    obtain ⟨⟨req, tracks⟩, hcall, h⟩ := Option.bind_eq_some_iff.mp h
    dsimp only at h
    split at h
    · next hclock =>
      obtain rfl := Option.some.inj h
      exact .spawn hcall hclock
    · cases h
  | insert call =>
    obtain ⟨k, hcall, h⟩ := Option.bind_eq_some_iff.mp h
    obtain ⟨run, hrun, rfl⟩ := Option.map_eq_some_iff.mp h
    exact .insert hcall hrun
  | stop streamId =>
    simp only [step] at h
    split at h
    · obtain rfl := Option.some.inj h
      exact .refuseStop
    · next k hactive =>
      obtain rfl := Option.some.inj h
      exact .stop hactive
  | task k event =>
    obtain ⟨run, hrun, h⟩ := Option.bind_eq_some_iff.mp h
    obtain ⟨out, hout, rfl⟩ := Option.map_eq_some_iff.mp h
    exact .task hrun (RecordRun.goes_of_advance hout)

end Recorder

end VcpMediaServer
