import VcpMediaServer.Lts
import VcpMediaServer.Media
import Mathlib.Logic.Function.Basic

/-!
# The life of HLS sessions

`HlsServer` of `hls/mod.rs` without what a session does to its frames: three maps, **each behind a
lock of its own**, the tasks that read the hubs, and the calls. A call goes from one critical
section to the next, and anything may come in between; a task is stopped by an abort, which takes
effect at its next await.

* `HlsServer.step` — one critical section of a call, one step of a task, or a call of the stream
  manager.
* `HlsServer.Lifecycle` — an id with a session has one live task, which reads the registered hub and
  feeds the registered session, and an id without one has no live task.
* `HlsServer.Orderly` — what keeps it.
* `hls_lifecycle_run` — in every run of such steps, at every point where nothing is under way.

A task looks its session up by id, so it feeds **whichever** is registered. Its own exit is never
taken: the reader that would be told that the hub is gone holds the hub.
-/

namespace VcpMediaServer

open Lts

/-- A call of the server, for one stream. -/
inductive HlsOp where
  /-- `ensure_stream`; `restart_stream` is the one with a reset. -/
  | ensureStream (reset : Bool)
  /-- `start_stream`. -/
  | startStream
  /-- `stop_stream`. -/
  | stopStream
  /-- The idle reaper, for an id that it has found stale. -/
  | reap
  deriving DecidableEq, Repr

/-- What a call does next. -/
inductive HlsPhase where
  /-- `ensure_stream` asks for the stream. -/
  | lookup (reset : Bool)
  /-- `ensure_stream` with a reset, or the reaper, asks whether there is a session. -/
  | stopCheck
  /-- `stop_stream` takes the abort handle, and aborts the task. -/
  | abort
  /-- `stop_stream` forgets the last access. -/
  | forget
  /-- `stop_stream` takes the session. -/
  | remove
  /-- `ensure_stream` asks whether there is a session. -/
  | ensureCheck
  /-- `start_stream` asks whether there is a session. -/
  | startCheck
  /-- `start_stream` makes a session and puts it into the map. -/
  | insert
  /-- `start_stream` subscribes to the hub, and spawns the task. -/
  | subscribe
  /-- `start_stream` puts the abort handle of the task into the map. -/
  | register (task : ℕ)
  /-- `start_stream` notes the access. -/
  | touchStarted
  /-- `ensure_stream` notes the access. -/
  | touch
  /-- The reaper forgets the last access. -/
  | reapForget
  | returned
  deriving DecidableEq, Repr

/-- A call that was made. -/
structure HlsServerCall where
  /-- The stream. -/
  streamId : StreamId
  /-- Which call it is. -/
  op : HlsOp
  /-- What it does next. -/
  phase : HlsPhase
  deriving DecidableEq, Repr

/-- Whether a task goes on. -/
inductive HlsTaskPhase where
  | running
  /-- It is aborted, and runs up to its next await. -/
  | aborted
  | ended
  deriving DecidableEq, Repr

/-- The task of `start_stream`. -/
structure HlsTask where
  /-- The stream. -/
  streamId : StreamId
  /-- The hub that it reads. -/
  hub : ℕ
  /-- Whether it goes on. -/
  phase : HlsTaskPhase
  deriving DecidableEq, Repr

/-- `HlsServer`, with the hubs of the stream manager and everything that runs. Hubs, sessions and
tasks are known by the order of their making. -/
structure HlsServer where
  /-- `StreamManager::hubs`. -/
  hubs : StreamId → Option ℕ
  /-- How many hubs have been made. -/
  hubsMade : ℕ
  /-- `sessions`. -/
  sessions : StreamId → Option ℕ
  /-- The sessions made so far, each with the tasks whose frames it was given. -/
  fed : List (List ℕ)
  /-- `task_aborts`. -/
  taskAborts : StreamId → Option ℕ
  /-- The keys of `last_access`. -/
  lastAccess : StreamId → Bool
  /-- The tasks. -/
  tasks : List HlsTask
  /-- The calls. -/
  calls : List HlsServerCall

/-- What happens. -/
inductive HlsServerStep where
  /-- A call begins. -/
  | begin (op : HlsOp) (id : StreamId)
  /-- A call goes on; `ok` says whether a session can be made, where it is to make one. -/
  | advance (i : ℕ) (ok : Bool)
  /-- A viewer asks for a playlist or a segment. -/
  | access (id : StreamId)
  | createStream (id : StreamId)
  | removeStream (id : StreamId)
  /-- A task gives a frame to the session. -/
  | feed (k : ℕ)
  /-- A task that was aborted comes to an await. -/
  | yield (k : ℕ)
  /-- `recv_batch` of a task is told that the hub is gone. -/
  | close (k : ℕ)
  deriving DecidableEq, Repr

namespace HlsOp

/-- What a call begins with. -/
def first : HlsOp → HlsPhase
  | .ensureStream reset => .lookup reset
  | .startStream => .startCheck
  | .stopStream => .abort
  | .reap => .stopCheck

/-- What comes after `stop_stream`, or in its place. -/
def afterStop : HlsOp → HlsPhase
  | .ensureStream _ => .ensureCheck
  | .reap => .reapForget
  | .startStream | .stopStream => .returned

/-- What comes after `start_stream`. -/
def afterStart : HlsOp → HlsPhase
  | .ensureStream _ => .touch
  | .startStream | .stopStream | .reap => .returned

end HlsOp

/-- `AbortHandle::abort`. -/
def HlsTask.abort (task : HlsTask) : HlsTask :=
  if task.phase = .running then { task with phase := .aborted } else task

namespace HlsServer

/-- Nothing has happened yet. -/
def start : HlsServer :=
  ⟨fun _ => none, 0, fun _ => none, [], fun _ => none, fun _ => false, [], []⟩

/-- `has_stream`. -/
def hasStream (s : HlsServer) (id : StreamId) : Bool := (s.sessions id).isSome

/-- The session that a task looks up. -/
def feeds (s : HlsServer) (k : ℕ) : Option ℕ :=
  (s.tasks[k]?).bind fun task => s.sessions task.streamId

/-- Nobody holds the hub that the task reads. -/
def senderDropped (s : HlsServer) (task : HlsTask) : Prop :=
  s.hubs task.streamId ≠ some task.hub ∧ ∀ other ∈ s.tasks, other.hub = task.hub →
    other.phase = .ended

instance (s : HlsServer) (task : HlsTask) : Decidable (s.senderDropped task) :=
  inferInstanceAs (Decidable (_ ∧ _))

/-- The call goes on to the next phase. -/
def goTo (s : HlsServer) (i : ℕ) (call : HlsServerCall) (phase : HlsPhase) : HlsServer :=
  { s with calls := s.calls.set i { call with phase } }

/-- One critical section of a call. -/
def advance (s : HlsServer) (i : ℕ) (call : HlsServerCall) (ok : Bool) : Option HlsServer :=
  let id := call.streamId
  match call.phase with
  | .lookup reset =>
    some (s.goTo i call (if s.hubs id = none then .returned else if reset then .stopCheck
      else .ensureCheck))
  | .stopCheck => some (s.goTo i call (if s.hasStream id then .abort else call.op.afterStop))
  | .abort =>
    let tasks := (s.taskAborts id).elim s.tasks fun k => s.tasks.modify k HlsTask.abort
    some ({ s with tasks, taskAborts := Function.update s.taskAborts id none }.goTo i call .forget)
  | .forget =>
    some ({ s with lastAccess := Function.update s.lastAccess id false }.goTo i call .remove)
  | .remove =>
    some ({ s with sessions := Function.update s.sessions id none }.goTo i call call.op.afterStop)
  | .ensureCheck => some (s.goTo i call (if s.hasStream id then .touch else .startCheck))
  | .startCheck => some (s.goTo i call (if s.hasStream id then call.op.afterStart else .insert))
  | .insert =>
    if ok then
      some ({ s with
        sessions := Function.update s.sessions id (some s.fed.length)
        fed := s.fed ++ [[]] }.goTo i call .subscribe)
    else some (s.goTo i call .returned)
  | .subscribe =>
    match s.hubs id with
    | some hub =>
      some ({ s with tasks := s.tasks ++ [HlsTask.mk id hub .running] }.goTo i call
        (.register s.tasks.length))
    | none => some (s.goTo i call call.op.afterStart)
  | .register k =>
    some ({ s with taskAborts := Function.update s.taskAborts id (some k) }.goTo i call
      .touchStarted)
  | .touchStarted =>
    some ({ s with lastAccess := Function.update s.lastAccess id true }.goTo i call
      call.op.afterStart)
  | .touch =>
    some ({ s with lastAccess := Function.update s.lastAccess id true }.goTo i call .returned)
  | .reapForget =>
    some ({ s with lastAccess := Function.update s.lastAccess id false }.goTo i call .returned)
  | .returned => none

/-- The exit of a task. It holds the lock of `sessions` to its end, so that both maps change at once
for the rest. -/
def exit (s : HlsServer) (k : ℕ) (task : HlsTask) : HlsServer :=
  { s with
    sessions := Function.update s.sessions task.streamId none
    taskAborts := Function.update s.taskAborts task.streamId none
    tasks := s.tasks.set k { task with phase := .ended } }

/-- One step; `none` if it cannot happen. -/
def step (s : HlsServer) : HlsServerStep → Option HlsServer
  | .begin op id =>
    if op = .reap ∧ s.lastAccess id = false then none
    else some { s with calls := s.calls ++ [⟨id, op, op.first⟩] }
  | .advance i ok => (s.calls[i]?).bind fun call => s.advance i call ok
  | .access id => some { s with lastAccess := Function.update s.lastAccess id true }
  | .createStream id =>
    match s.hubs id with
    | some _ => some s
    | none => some { s with
        hubs := Function.update s.hubs id (some s.hubsMade)
        hubsMade := s.hubsMade + 1 }
  | .removeStream id => some { s with hubs := Function.update s.hubs id none }
  | .feed k =>
    (s.tasks[k]?).bind fun task =>
      if task.phase = .ended then none
      else some { s with fed := (s.feeds k).elim s.fed fun session => s.fed.modify session (· ++
        [k]) }
  | .yield k =>
    (s.tasks[k]?).bind fun task =>
      if task.phase = .aborted then some
        { s with tasks := s.tasks.set k { task with phase := .ended } } else none
  | .close k =>
    (s.tasks[k]?).bind fun task =>
      if task.phase ≠ .ended ∧ s.senderDropped task then some (s.exit k task) else none

/-! ## One task for each session -/

/-- Nothing is under way: every call has returned, and no task is left that was aborted. -/
def Quiescent (s : HlsServer) : Prop :=
  (∀ call ∈ s.calls, call.phase = .returned) ∧ ∀ task ∈ s.tasks, task.phase ≠ .aborted

instance (s : HlsServer) : Decidable s.Quiescent := inferInstanceAs (Decidable (_ ∧ _))

/-- Sessions and tasks belong together. -/
structure Lifecycle (s : HlsServer) : Prop where
  /-- An id with a session has **one** live task. -/
  served : ∀ id session, s.sessions id = some session →
    ∃ (k : ℕ) (task : HlsTask), s.tasks[k]? = some task ∧
    task.streamId = id ∧ task.phase ≠ .ended ∧ s.hubs id = some task.hub ∧
      s.feeds k = some session ∧
    ∀ (j : ℕ) (other : HlsTask), s.tasks[j]? = some other → other.streamId = id →
      other.phase ≠ .ended → j = k
  /-- An id without one has **none**. -/
  stopped : ∀ id, s.sessions id = none → ∀ task ∈ s.tasks, task.streamId = id → task.phase = .ended

/-- What a call has half done. -/
inductive HlsStage where
  | idle
  /-- The session is registered, and there is no task yet. -/
  | subscribing
  /-- The task runs, and its handle is not registered. -/
  | registering (task : ℕ)
  /-- The task is aborted, and its session still registered. -/
  | stopping
  deriving DecidableEq, Repr

/-- What a call has half done before a phase. -/
def HlsStage.of : HlsPhase → HlsStage
  | .subscribe => .subscribing
  | .register k => .registering k
  | .forget | .remove => .stopping
  | _ => .idle

/-- The condition. A session is put into the map when there is none and no other call is half done
with the stream; a task is aborted when no call is half done starting one; the hub is there when it
is subscribed to; and a stream is not removed under a running task. -/
def Orderly (s : HlsServer) : HlsServerStep → Prop
  | .advance i ok => ∀ call ∈ s.calls[i]?,
    (call.phase = .insert → ok = true → s.sessions call.streamId = none ∧
      ∀ other ∈ s.calls, other.streamId = call.streamId → HlsStage.of other.phase = .idle) ∧
    (call.phase = .abort → ∀ other ∈ s.calls, other.streamId = call.streamId →
      HlsStage.of other.phase = .idle ∨ HlsStage.of other.phase = .stopping) ∧
    (call.phase = .subscribe → s.hubs call.streamId ≠ none)
  | .removeStream id => ∀ task ∈ s.tasks, task.streamId = id → task.phase ≠ .running
  | _ => True

instance (s : HlsServer) : ∀ e, Decidable (s.Orderly e)
  | .advance i ok => inferInstanceAs (Decidable (∀ call ∈ s.calls[i]?,
      (call.phase = .insert → ok = true → s.sessions call.streamId = none ∧
        ∀ other ∈ s.calls, other.streamId = call.streamId → HlsStage.of other.phase = .idle) ∧
      (call.phase = .abort → ∀ other ∈ s.calls, other.streamId = call.streamId →
        HlsStage.of other.phase = .idle ∨ HlsStage.of other.phase = .stopping) ∧
      (call.phase = .subscribe → s.hubs call.streamId ≠ none)))
  | .removeStream id =>
    inferInstanceAs (Decidable (∀ task ∈ s.tasks, task.streamId = id → task.phase ≠ .running))
  | .begin _ _ | .access _ | .createStream _ | .feed _ | .yield _ | .close _ => isTrue trivial

/-! ## What is kept -/

variable {s s' : HlsServer} {i j k hub : ℕ} {id : StreamId} {stage : HlsStage}
    {call : HlsServerCall} {phase : HlsPhase}

/-- A task runs for a stream, on a hub. -/
def Runs (s : HlsServer) (k : ℕ) (id : StreamId) (hub : ℕ) : Prop :=
  s.tasks[k]? = some ⟨id, hub, .running⟩

/-- A call on a stream has a stage half done. -/
def Stands (s : HlsServer) (i : ℕ) (id : StreamId) (stage : HlsStage) : Prop :=
  ∃ call, s.calls[i]? = some call ∧ call.streamId = id ∧ HlsStage.of call.phase = stage

/-- The maps, the tasks and the calls agree on a stream. -/
structure KeptAt (s : HlsServer) (id : StreamId) : Prop where
  running : ∀ k hub, s.Runs k id hub → s.hubs id = some hub ∧ s.sessions id ≠ none ∧
    (s.taskAborts id = some k ∨ ∃ i, s.Stands i id (.registering k))
  aborts : ∀ k, s.taskAborts id = some k → ∃ hub, s.Runs k id hub
  registering : ∀ i k, s.Stands i id (.registering k) → ∃ hub, s.Runs k id hub
  unlisted : ∀ i stage, s.Stands i id stage → stage ≠ .idle → s.taskAborts id = none
  subscribing : ∀ i, s.Stands i id .subscribing → s.sessions id ≠ none
  /-- A call that is half done starting a task is the only one that is half done. -/
  alone : ∀ i j stage stage', s.Stands i id stage → stage ≠ .idle → stage ≠ .stopping →
    s.Stands j id stage' → stage' ≠ .idle → i = j
  served : s.sessions id ≠ none → s.taskAborts id ≠ none ∨ ∃ i stage, s.Stands i id stage ∧
    stage ≠ .idle

/-- The states do not differ in what concerns a stream. -/
structure Agrees (s s' : HlsServer) (id : StreamId) : Prop where
  hubs : s'.hubs id = s.hubs id
  sessions : s'.sessions id = s.sessions id
  taskAborts : s'.taskAborts id = s.taskAborts id
  runs : ∀ k hub, s'.Runs k id hub ↔ s.Runs k id hub
  stands : ∀ i stage, stage ≠ .idle → (s'.Stands i id stage ↔ s.Stands i id stage)

theorem KeptAt.of_agrees (h : s.KeptAt id) (ha : s.Agrees s' id) : s'.KeptAt id := by
  have hstands := fun {i stage} hstage => (ha.stands i stage hstage).mp
  constructor
  · intro k hub hruns
    obtain ⟨hhub, hsession, hlisted⟩ := h.running k hub ((ha.runs k hub).mp hruns)
    refine ⟨ha.hubs.trans hhub, ha.sessions ▸ hsession, ?_⟩
    refine hlisted.imp ha.taskAborts.trans fun ⟨i, hi⟩ =>
      ⟨i, (ha.stands i _ HlsStage.noConfusion).mpr hi⟩
  · intro k hk
    obtain ⟨hub, hruns⟩ := h.aborts k (ha.taskAborts.symm.trans hk)
    exact ⟨hub, (ha.runs k hub).mpr hruns⟩
  · intro i k hi
    obtain ⟨hub, hruns⟩ := h.registering i k (hstands HlsStage.noConfusion hi)
    exact ⟨hub, (ha.runs k hub).mpr hruns⟩
  · exact fun i stage hi hstage =>
      ha.taskAborts.trans (h.unlisted i stage (hstands hstage hi) hstage)
  · exact fun i hi => ha.sessions ▸ h.subscribing i (hstands HlsStage.noConfusion hi)
  · intro i j stage stage' hi hstage hstarts hj hstage'
    exact h.alone i j stage stage' (hstands hstage hi) hstage hstarts (hstands hstage' hj) hstage'
  · intro hsession
    refine (h.served (ha.sessions ▸ hsession)).imp (fun hlisted => ha.taskAborts ▸ hlisted) ?_
    rintro ⟨i, stage, hi, hstage⟩
    exact ⟨i, stage, (ha.stands i stage hstage).mpr hi, hstage⟩

/-- The invariant. -/
def Kept (s : HlsServer) : Prop := ∀ id, s.KeptAt id

theorem kept_start : start.Kept := by
  intro id
  have hruns : ∀ k hub, ¬ start.Runs k id hub := fun k hub h =>
    Option.some_ne_none _ (h.symm.trans List.getElem?_nil)
  have hstands : ∀ i stage, ¬ start.Stands i id stage := by
    rintro i stage ⟨call, h, -⟩
    exact Option.some_ne_none _ (h.symm.trans List.getElem?_nil)
  constructor
  · exact fun k hub h => absurd h (hruns k hub)
  · exact fun k h => absurd h.symm (Option.some_ne_none k)
  · exact fun i k h => absurd h (hstands i _)
  · exact fun i stage h => absurd h (hstands i stage)
  · exact fun i h => absurd h (hstands i _)
  · exact fun i j stage stage' h => absurd h (hstands i stage)
  · exact fun h => absurd rfl h

theorem Kept.lifecycle (h : s.Kept) (hq : s.Quiescent) : s.Lifecycle := by
  obtain ⟨hcalls, htasks⟩ := hq
  have hidle : ∀ i id stage, s.Stands i id stage → stage = .idle := by
    rintro i id stage ⟨call, hcall, -, rfl⟩
    rw [hcalls call (List.mem_of_getElem? hcall)]
    rfl
  -- what is not ended runs, and is listed
  have hlive : ∀ {k : ℕ} {task : HlsTask}, s.tasks[k]? = some task → task.phase ≠ .ended →
      s.Runs k task.streamId task.hub := by
    intro k task htask hphase
    have haborted := htasks task (List.mem_of_getElem? htask)
    obtain ⟨id, hub, phase⟩ := task
    cases phase with
    | running => exact htask
    | aborted => exact absurd rfl haborted
    | ended => exact absurd rfl hphase
  have hlisted : ∀ {k id hub}, s.Runs k id hub →
      s.hubs id = some hub ∧ s.sessions id ≠ none ∧ s.taskAborts id = some k := by
    intro k id hub hruns
    obtain ⟨hhub, hsession, hk | ⟨i, hi⟩⟩ := (h id).running k hub hruns
    · exact ⟨hhub, hsession, hk⟩
    · exact HlsStage.noConfusion (hidle i id _ hi)
  constructor
  · intro id session hsession
    have hsome : s.sessions id ≠ none := hsession ▸ Option.some_ne_none session
    obtain hk | ⟨i, stage, hi, hstage⟩ := (h id).served hsome
    · obtain ⟨k, hk⟩ := Option.ne_none_iff_exists'.mp hk
      obtain ⟨hub, hruns⟩ := (h id).aborts k hk
      refine ⟨k, _, hruns, rfl, HlsTaskPhase.noConfusion, (hlisted hruns).1, ?_, ?_⟩
      · rw [feeds, hruns]
        exact hsession
      · rintro j other hother rfl hphase
        have hj := (hlisted (hlive hother hphase)).2.2
        exact Option.some.inj (hj.symm.trans hk)
    · exact absurd (hidle i id stage hi) hstage
  · rintro id hnone task hmem rfl
    by_contra hphase
    obtain ⟨k, htask⟩ := List.getElem?_of_mem hmem
    exact (hlisted (hlive htask hphase)).2.1 hnone

/-! ## The steps -/

theorem Stands.unique {stage' : HlsStage} (h : s.Stands i id stage) (h' : s.Stands i id stage') :
    stage = stage' := by
  obtain ⟨call, hcall, -, rfl⟩ := h
  obtain ⟨call', hcall', -, rfl⟩ := h'
  rw [Option.some.inj (hcall.symm.trans hcall')]

/-- Where the calls stand when one of them goes on. -/
theorem stands_of_goTo (hcall : s.calls[i]? = some call)
    (hcalls : s'.calls = s.calls.set i { call with phase }) :
    s'.Stands j id stage ↔
      j = i ∧ call.streamId = id ∧ HlsStage.of phase = stage ∨ j ≠ i ∧ s.Stands j id stage := by
  have hlt := (List.getElem?_eq_some_iff.mp hcall).1
  rw [Stands, Stands, hcalls, List.getElem?_set, if_pos hlt]
  by_cases hj : i = j
  · subst hj
    simp
  · simp [hj, Ne.symm hj]

/-- A call goes on, in its stage. -/
theorem agrees_of_stage (hcall : s.calls[i]? = some call)
    (hcalls : s'.calls = s.calls.set i { call with phase })
    (hstage : HlsStage.of phase = HlsStage.of call.phase) (hhubs : s'.hubs = s.hubs)
    (hsessions : s'.sessions = s.sessions) (haborts : s'.taskAborts = s.taskAborts)
    (htasks : s'.tasks = s.tasks) : s.Agrees s' id where
  hubs := congrFun hhubs id
  sessions := congrFun hsessions id
  taskAborts := congrFun haborts id
  runs k hub := by rw [Runs, Runs, htasks]
  stands j stage _ := by
    rw [stands_of_goTo hcall hcalls, hstage]
    by_cases hj : j = i
    · subst hj
      simp [Stands, hcall]
    · simp [hj]

/-- A step of a call leaves the other streams alone. -/
theorem agrees_of_ne (hcall : s.calls[i]? = some call)
    (hcalls : s'.calls = s.calls.set i { call with phase }) (hid : id ≠ call.streamId)
    (hhubs : s'.hubs = s.hubs) (hsessions : s'.sessions id = s.sessions id)
    (haborts : s'.taskAborts id = s.taskAborts id)
    (hruns : ∀ k hub, s'.Runs k id hub ↔ s.Runs k id hub) :
    s.Agrees s' id where
  hubs := congrFun hhubs id
  sessions := hsessions
  taskAborts := haborts
  runs := hruns
  stands j stage _ := by
    rw [stands_of_goTo hcall hcalls]
    by_cases hj : j = i
    · subst hj
      have hnot : ¬ s.Stands j id stage := by
        rintro ⟨found, hfound, rfl, -⟩
        exact hid (congrArg HlsServerCall.streamId (Option.some.inj (hfound.symm.trans hcall)))
      simp [hid.symm, hnot]
    · simp [hj]

/-- While a call is half done with a stream, and it is not the one that starts a task, or has not
done so yet, none runs. -/
theorem KeptAt.not_runs (h : s.KeptAt id) (hstands : s.Stands i id stage) (hstage : stage ≠ .idle)
    (hregistering : ∀ k, stage ≠ .registering k) : ¬ s.Runs k id hub := by
  intro hruns
  obtain ⟨-, -, hlisted | ⟨j, hj⟩⟩ := h.running k hub hruns
  · exact Option.some_ne_none k (hlisted.symm.trans (h.unlisted i stage hstands hstage))
  · have hji := h.alone j i _ stage hj HlsStage.noConfusion HlsStage.noConfusion hstands hstage
    exact hregistering k (hstands.unique (hji ▸ hj))

/-- A stream that no task runs for, and none is listed for. -/
theorem keptAt_of_not_runs (hnot : ∀ k hub, ¬ s.Runs k id hub) (hnone : s.taskAborts id = none)
    (hregistering : ∀ i k, ¬ s.Stands i id (.registering k))
    (hsubscribing : ∀ i, s.Stands i id .subscribing → s.sessions id ≠ none)
    (halone : ∀ i j stage, s.Stands i id .subscribing → s.Stands j id stage → stage ≠ .idle → i = j)
    (hserved : s.sessions id ≠ none → ∃ i stage, s.Stands i id stage ∧ stage ≠ .idle) :
    s.KeptAt id where
  running k hub hrun := absurd hrun (hnot k hub)
  aborts k hk := absurd (hk.symm.trans hnone) (Option.some_ne_none k)
  registering i k hi := absurd hi (hregistering i k)
  unlisted _ _ _ _ := hnone
  subscribing := hsubscribing
  alone i j stage stage' hi hidle hstopping hj hstage' := by
    cases stage with
    | idle => exact absurd rfl hidle
    | subscribing => exact halone i j stage' hi hj hstage'
    | registering k => exact absurd hi (hregistering i k)
    | stopping => exact absurd rfl hstopping
  served hsession := .inr (hserved hsession)

/-- Nor is any call half done starting one. -/
theorem keptAt_of_not_starts (hnot : ∀ k hub, ¬ s.Runs k id hub) (hnone : s.taskAborts id = none)
    (hstage : ∀ i stage, s.Stands i id stage → stage = .idle ∨ stage = .stopping)
    (hserved : s.sessions id ≠ none → ∃ i stage, s.Stands i id stage ∧ stage ≠ .idle) :
    s.KeptAt id := by
  have hsubscribing : ∀ i, ¬ s.Stands i id .subscribing := fun i hi => by
    rcases hstage i _ hi with heq | heq <;> cases heq
  refine keptAt_of_not_runs hnot hnone (fun i k hi => ?_) (fun i hi => ?_)
    (fun i _ _ hi => ?_) hserved
  · rcases hstage i _ hi with heq | heq <;> cases heq
  · exact absurd hi (hsubscribing i)
  · exact absurd hi (hsubscribing i)

/-- The task of a stream is aborted, while no call is half done starting one. -/
theorem Kept.abort (h : s.Kept) (hcall : s.calls[i]? = some call)
    (hothers : ∀ other ∈ s.calls, other.streamId = call.streamId →
      HlsStage.of other.phase = .idle ∨ HlsStage.of other.phase = .stopping)
    (htasks : s'.tasks = (s.taskAborts call.streamId).elim s.tasks fun k =>
      s.tasks.modify k HlsTask.abort)
    (haborts : s'.taskAborts = Function.update s.taskAborts call.streamId none)
    (hhubs : s'.hubs = s.hubs) (hsessions : s'.sessions = s.sessions)
    (hcalls : s'.calls = s.calls.set i { call with phase := .forget }) :
    s'.Kept := by
  have hruns : ∀ k id hub, s'.Runs k id hub ↔
      s.Runs k id hub ∧ s.taskAborts call.streamId ≠ some k := by
    intro k id hub
    rw [Runs, Runs, htasks]
    rcases hlisted : s.taskAborts call.streamId with _ | listed
    · simp
    · rw [Option.elim_some, List.getElem?_modify]
      by_cases hk : listed = k
      · subst hk
        rcases hfound : s.tasks[listed]? with _ | ⟨id', hub', phase⟩
        · simp
        · cases phase <;> simp [HlsTask.abort]
      · simp [hk]
  intro id
  by_cases hid : id = call.streamId
  · subst hid
    have hnot : ∀ k hub, ¬ s'.Runs k call.streamId hub := by
      intro k hub hrun
      obtain ⟨hrun, hlisted⟩ := (hruns k _ hub).mp hrun
      obtain ⟨-, -, hlisted' | ⟨j, other, hother, hstream, hstage⟩⟩ :=
        (h call.streamId).running k hub hrun
      · exact hlisted hlisted'
      · rcases hothers other (List.mem_of_getElem? hother) hstream with heq | heq <;>
          exact HlsStage.noConfusion (hstage.symm.trans heq)
    have hnone : s'.taskAborts call.streamId = none := by
      rw [haborts, Function.update_self]
    have hstage : ∀ j stage, s'.Stands j call.streamId stage →
        stage = .idle ∨ stage = .stopping := by
      intro j stage hj
      rcases (stands_of_goTo hcall hcalls).mp hj with ⟨-, -, rfl⟩ | ⟨-, other, hother, hstream, rfl⟩
      · exact .inr rfl
      · exact hothers other (List.mem_of_getElem? hother) hstream
    refine keptAt_of_not_starts hnot hnone hstage fun _ => ?_
    exact ⟨i, .stopping, (stands_of_goTo hcall hcalls).mpr (.inl ⟨rfl, rfl, rfl⟩),
      HlsStage.noConfusion⟩
  · refine (h id).of_agrees
      (agrees_of_ne hcall hcalls hid hhubs (congrFun hsessions id) ?_ fun k hub => ?_)
    · rw [haborts, Function.update_of_ne hid]
    · rw [hruns]
      refine and_iff_left_of_imp fun hrun hlisted => hid ?_
      obtain ⟨hub', hrun'⟩ := (h call.streamId).aborts k hlisted
      exact congrArg HlsTask.streamId (Option.some.inj (hrun.symm.trans hrun'))

/-- The session of a stream is taken out of the map, behind the abort of its task. -/
theorem Kept.remove (h : s.Kept) (hcall : s.calls[i]? = some call) (hphase : call.phase = .remove)
    (hsessions : s'.sessions = Function.update s.sessions call.streamId none)
    (hhubs : s'.hubs = s.hubs) (haborts : s'.taskAborts = s.taskAborts)
    (htasks : s'.tasks = s.tasks) (hcalls : s'.calls = s.calls.set i { call with phase })
    (hidle : HlsStage.of phase = .idle) : s'.Kept := by
  intro id
  have hruns : ∀ k hub, s'.Runs k id hub ↔ s.Runs k id hub :=
    fun k hub => by rw [Runs, Runs, htasks]
  by_cases hid : id = call.streamId
  · subst hid
    have hself : s.Stands i call.streamId .stopping := ⟨call, hcall, rfl, hphase ▸ rfl⟩
    have hnot : ∀ k hub, ¬ s'.Runs k call.streamId hub := fun k hub hrun =>
      (h call.streamId).not_runs hself HlsStage.noConfusion (fun _ => HlsStage.noConfusion)
      ((hruns k hub).mp hrun)
    have hnone : s'.taskAborts call.streamId = none := by
      rw [haborts]
      exact (h call.streamId).unlisted i _ hself HlsStage.noConfusion
    -- behind the abort, no call is half done starting a task
    have hstands : ∀ j stage, s'.Stands j call.streamId stage →
        stage = .idle ∨ stage = .stopping := by
      intro j stage hj
      rcases (stands_of_goTo hcall hcalls).mp hj with ⟨-, -, heq⟩ | ⟨hne, hj⟩
      · exact .inl (heq.symm.trans hidle)
      · by_contra hstage
        obtain ⟨hstage, hstopping⟩ := not_or.mp hstage
        exact hne ((h _).alone j i stage _ hj hstage hstopping hself HlsStage.noConfusion)
    refine keptAt_of_not_starts hnot hnone hstands fun hsession => ?_
    rw [hsessions, Function.update_self] at hsession
    exact absurd rfl hsession
  · refine (h id).of_agrees (agrees_of_ne hcall hcalls hid hhubs ?_ (congrFun haborts id) hruns)
    rw [hsessions, Function.update_of_ne hid]

/-- A session is put into the map, where there is none and nothing is half done. -/
theorem Kept.insert {session : ℕ} (h : s.Kept) (hcall : s.calls[i]? = some call)
    (hfree : s.sessions call.streamId = none)
    (hothers : ∀ other ∈ s.calls, other.streamId = call.streamId → HlsStage.of other.phase = .idle)
    (hsessions : s'.sessions = Function.update s.sessions call.streamId (some session))
    (hhubs : s'.hubs = s.hubs) (haborts : s'.taskAborts = s.taskAborts)
    (htasks : s'.tasks = s.tasks)
    (hcalls : s'.calls = s.calls.set i { call with phase := .subscribe }) : s'.Kept := by
  intro id
  have hruns : ∀ k hub, s'.Runs k id hub ↔ s.Runs k id hub :=
    fun k hub => by rw [Runs, Runs, htasks]
  by_cases hid : id = call.streamId
  · subst hid
    have hnot : ∀ k hub, ¬ s'.Runs k call.streamId hub := fun k hub hrun =>
      ((h call.streamId).running k hub ((hruns k hub).mp hrun)).2.1 hfree
    have hnone : s'.taskAborts call.streamId = none := by
      by_contra hsome
      obtain ⟨k, hk⟩ := Option.ne_none_iff_exists'.mp hsome
      obtain ⟨hub, hrun⟩ := (h call.streamId).aborts k (by rwa [← haborts])
      exact hnot k hub ((hruns k hub).mpr hrun)
    have hstands : ∀ {j stage}, s'.Stands j call.streamId stage → stage ≠ .idle →
        j = i ∧ stage = .subscribing := by
      intro j stage hj hstage
      rcases (stands_of_goTo hcall hcalls).mp hj with ⟨hj, -, heq⟩ | ⟨-, other, hother, hstream,
        heq⟩
      · exact ⟨hj, heq.symm⟩
      · exact absurd (heq.symm.trans (hothers other (List.mem_of_getElem? hother) hstream)) hstage
    refine keptAt_of_not_runs hnot hnone (fun j k hj => ?_) (fun j _ => ?_)
      (fun j j' stage hj hj' hstage => ?_) fun _ => ?_
    · exact HlsStage.noConfusion (hstands hj HlsStage.noConfusion).2
    · rw [hsessions, Function.update_self]
      exact Option.some_ne_none session
    · rw [(hstands hj HlsStage.noConfusion).1, (hstands hj' hstage).1]
    · exact ⟨i, .subscribing, (stands_of_goTo hcall hcalls).mpr (.inl ⟨rfl, rfl, rfl⟩),
        HlsStage.noConfusion⟩
  · refine (h id).of_agrees (agrees_of_ne hcall hcalls hid hhubs ?_ (congrFun haborts id) hruns)
    rw [hsessions, Function.update_of_ne hid]

/-- The task of a new session is spawned, on a hub that is there. -/
theorem Kept.subscribe (h : s.Kept) (hcall : s.calls[i]? = some call)
    (hphase : call.phase = .subscribe) (hhub : s.hubs call.streamId = some hub)
    (htasks : s'.tasks = s.tasks ++ [HlsTask.mk call.streamId hub .running])
    (hsessions : s'.sessions = s.sessions) (hhubs : s'.hubs = s.hubs)
    (haborts : s'.taskAborts = s.taskAborts)
    (hcalls : s'.calls = s.calls.set i { call with phase := .register s.tasks.length }) :
    s'.Kept := by
  have hruns : ∀ k id hub', s'.Runs k id hub' ↔
      s.Runs k id hub' ∨ k = s.tasks.length ∧ id = call.streamId ∧ hub' = hub := by
    intro k id hub'
    rw [Runs, Runs, htasks, List.getElem?_append]
    split_ifs with hk
    · simp [Nat.ne_of_lt hk]
    · rw [List.getElem?_eq_none (Nat.le_of_not_lt hk)]
      by_cases heq : k = s.tasks.length
      · simp [heq, eq_comm]
      · simp [heq, Nat.sub_eq_zero_iff_le, Nat.lt_of_le_of_ne (Nat.le_of_not_lt hk) (Ne.symm heq)]
  have hself : s.Stands i call.streamId .subscribing := ⟨call, hcall, rfl, hphase ▸ rfl⟩
  have hat := h call.streamId
  intro id
  by_cases hid : id = call.streamId
  · subst hid
    have hnone : s'.taskAborts call.streamId = none := by
      rw [haborts]
      exact hat.unlisted i _ hself HlsStage.noConfusion
    have hsession : s'.sessions call.streamId ≠ none := by
      rw [hsessions]
      exact hat.subscribing i hself
    have hstands : ∀ {j stage}, s'.Stands j call.streamId stage → stage ≠ .idle →
        j = i ∧ stage = .registering s.tasks.length := by
      intro j stage hj hstage
      rcases (stands_of_goTo hcall hcalls).mp hj with ⟨hj, -, heq⟩ | ⟨hne, hj⟩
      · exact ⟨hj, heq.symm⟩
      · exact absurd
          (hat.alone i j _ _ hself HlsStage.noConfusion HlsStage.noConfusion hj hstage).symm hne
    have hself' : s'.Stands i call.streamId (.registering s.tasks.length) :=
      (stands_of_goTo hcall hcalls).mpr (.inl ⟨rfl, rfl, rfl⟩)
    constructor
    · intro k hub' hrun
      rcases (hruns k _ hub').mp hrun with hrun | ⟨rfl, -, rfl⟩
      · exact absurd hrun (hat.not_runs hself HlsStage.noConfusion fun _ => HlsStage.noConfusion)
      · exact ⟨hhubs ▸ hhub, hsession, .inr ⟨i, hself'⟩⟩
    · exact fun k hk => absurd (hk.symm.trans hnone) (Option.some_ne_none k)
    · intro j k hj
      obtain rfl := HlsStage.registering.inj (hstands hj HlsStage.noConfusion).2
      exact ⟨hub, (hruns _ _ _).mpr (.inr ⟨rfl, rfl, rfl⟩)⟩
    · exact fun _ _ _ _ => hnone
    · exact fun _ _ => hsession
    · intro j j' stage stage' hj hstage _ hj' hstage'
      rw [(hstands hj hstage).1, (hstands hj' hstage').1]
    · exact fun _ => .inr ⟨i, _, hself', HlsStage.noConfusion⟩
  · refine (h id).of_agrees (agrees_of_ne hcall hcalls hid hhubs (congrFun hsessions id)
      (congrFun haborts id) ?_)
    intro k hub'
    rw [hruns]
    simp [hid]

/-- The task is listed. -/
theorem Kept.register (h : s.Kept) (hcall : s.calls[i]? = some call)
    (hphase : call.phase = .register k)
    (haborts : s'.taskAborts = Function.update s.taskAborts call.streamId (some k))
    (htasks : s'.tasks = s.tasks) (hsessions : s'.sessions = s.sessions) (hhubs : s'.hubs = s.hubs)
    (hcalls : s'.calls = s.calls.set i { call with phase := .touchStarted }) : s'.Kept := by
  intro id
  have hruns : ∀ k hub, s'.Runs k id hub ↔ s.Runs k id hub :=
    fun k hub => by rw [Runs, Runs, htasks]
  by_cases hid : id = call.streamId
  · subst hid
    have hat := h call.streamId
    have hself : s.Stands i call.streamId (.registering k) := ⟨call, hcall, rfl, hphase ▸ rfl⟩
    have hsome : s'.taskAborts call.streamId = some k := by
      rw [haborts, Function.update_self]
    have hstands : ∀ {j stage}, s'.Stands j call.streamId stage → stage = .idle := by
      intro j stage hj
      rcases (stands_of_goTo hcall hcalls).mp hj with ⟨-, -, heq⟩ | ⟨hne, hj⟩
      · exact heq.symm
      · by_contra hstage
        exact hne (hat.alone i j _ _ hself HlsStage.noConfusion HlsStage.noConfusion hj hstage).symm
    constructor
    · intro j hub hrun
      obtain ⟨hhub, hsession, hlisted | ⟨j', hj'⟩⟩ := hat.running j hub ((hruns j hub).mp hrun)
      · exact absurd (hlisted.symm.trans (hat.unlisted i _ hself HlsStage.noConfusion))
          (Option.some_ne_none j)
      · obtain rfl :=
          hat.alone i j' _ _ hself HlsStage.noConfusion HlsStage.noConfusion hj'
          HlsStage.noConfusion
        obtain rfl := HlsStage.registering.inj (hself.unique hj')
        exact ⟨hhubs ▸ hhub, hsessions ▸ hsession, .inl hsome⟩
    · intro j hj
      obtain rfl := Option.some.inj (hsome.symm.trans hj)
      obtain ⟨hub, hrun⟩ := hat.registering i k hself
      exact ⟨hub, (hruns k hub).mpr hrun⟩
    · exact fun j j' hj => HlsStage.noConfusion (hstands hj)
    · exact fun j stage hj hstage => absurd (hstands hj) hstage
    · exact fun j hj => HlsStage.noConfusion (hstands hj)
    · exact fun j j' stage stage' hj hstage => absurd (hstands hj) hstage
    · exact fun _ => .inl (hsome ▸ Option.some_ne_none k)
  · refine (h id).of_agrees (agrees_of_ne hcall hcalls hid hhubs (congrFun hsessions id) ?_ hruns)
    rw [haborts, Function.update_of_ne hid]

theorem stage_afterStop (op : HlsOp) : HlsStage.of op.afterStop = .idle := by
  cases op <;> rfl

theorem stage_afterStart (op : HlsOp) : HlsStage.of op.afterStart = .idle := by
  cases op <;> rfl

theorem stage_first (op : HlsOp) : HlsStage.of op.first = .idle := by
  cases op <;> rfl

/-- A critical section of a call keeps the invariant. -/
theorem Kept.advance {ok : Bool} (h : s.Kept) (hcall : s.calls[i]? = some call)
    (horderly : s.Orderly (.advance i ok)) (hstep : s.advance i call ok = some s') : s'.Kept := by
  obtain ⟨hinsert, habort, hsubscribe⟩ := horderly call hcall
  -- what a call does in its stage, to the last accesses at most
  have hidle : ∀ {phase lastAccess}, HlsStage.of phase = HlsStage.of call.phase →
      Kept { s with calls := s.calls.set i { call with phase }, lastAccess } := fun hstage id =>
    (h id).of_agrees (agrees_of_stage hcall rfl hstage rfl rfl rfl rfl)
  cases hphase : call.phase with
  | lookup reset =>
    simp only [HlsServer.advance, hphase] at hstep
    obtain rfl := Option.some.inj hstep
    apply hidle
    rw [hphase]
    split_ifs <;> rfl
  | stopCheck =>
    simp only [HlsServer.advance, hphase] at hstep
    obtain rfl := Option.some.inj hstep
    apply hidle
    rw [hphase]
    split_ifs
    · rfl
    · exact stage_afterStop _
  | abort =>
    simp only [HlsServer.advance, hphase] at hstep
    obtain rfl := Option.some.inj hstep
    exact h.abort hcall (habort hphase) rfl rfl rfl rfl rfl
  | forget =>
    simp only [HlsServer.advance, hphase] at hstep
    obtain rfl := Option.some.inj hstep
    exact hidle (by rw [hphase]; rfl)
  | remove =>
    simp only [HlsServer.advance, hphase] at hstep
    obtain rfl := Option.some.inj hstep
    exact h.remove hcall hphase rfl rfl rfl rfl rfl (stage_afterStop _)
  | ensureCheck =>
    simp only [HlsServer.advance, hphase] at hstep
    obtain rfl := Option.some.inj hstep
    apply hidle
    rw [hphase]
    split_ifs <;> rfl
  | startCheck =>
    simp only [HlsServer.advance, hphase] at hstep
    obtain rfl := Option.some.inj hstep
    apply hidle
    rw [hphase]
    split_ifs
    · exact stage_afterStart _
    · rfl
  | insert =>
    simp only [HlsServer.advance, hphase] at hstep
    split_ifs at hstep with hok
    · obtain rfl := Option.some.inj hstep
      obtain ⟨hfree, hothers⟩ := hinsert hphase hok
      exact h.insert hcall hfree hothers rfl rfl rfl rfl rfl
    · obtain rfl := Option.some.inj hstep
      exact hidle (by rw [hphase]; rfl)
  | subscribe =>
    obtain ⟨hub, hhub⟩ := Option.ne_none_iff_exists'.mp (hsubscribe hphase)
    simp only [HlsServer.advance, hphase, hhub] at hstep
    obtain rfl := Option.some.inj hstep
    exact h.subscribe hcall hphase hhub rfl rfl rfl rfl rfl
  | register k =>
    simp only [HlsServer.advance, hphase] at hstep
    obtain rfl := Option.some.inj hstep
    exact h.register hcall hphase rfl rfl rfl rfl rfl
  | touchStarted =>
    simp only [HlsServer.advance, hphase] at hstep
    obtain rfl := Option.some.inj hstep
    exact hidle (by rw [hphase]; exact stage_afterStart _)
  | touch =>
    simp only [HlsServer.advance, hphase] at hstep
    obtain rfl := Option.some.inj hstep
    exact hidle (by rw [hphase]; rfl)
  | reapForget =>
    simp only [HlsServer.advance, hphase] at hstep
    obtain rfl := Option.some.inj hstep
    exact hidle (by rw [hphase]; rfl)
  | returned =>
    simp only [HlsServer.advance, hphase] at hstep
    cases hstep

/-- A task is never told that its hub is gone: it holds the hub. -/
theorem not_senderDropped {task : HlsTask} (htask : s.tasks[k]? = some task)
    (hphase : task.phase ≠ .ended) :
    ¬ s.senderDropped task :=
  fun hdropped => hphase (hdropped.2 task (List.mem_of_getElem? htask) rfl)

/-- Hubs come and go where no task reads them. -/
theorem Kept.hubs {hubs : StreamId → Option ℕ} {hubsMade : ℕ} (h : s.Kept)
    (hhubs : ∀ k id hub, s.Runs k id hub → hubs id = s.hubs id) :
    Kept { s with hubs, hubsMade } := by
  intro id
  have hat := h id
  refine ⟨fun k hub hrun => ?_, hat.aborts, hat.registering, hat.unlisted, hat.subscribing,
    hat.alone, hat.served⟩
  obtain ⟨hhub, hrest⟩ := hat.running k hub hrun
  exact ⟨(hhubs k id hub hrun).trans hhub, hrest⟩

/-- An orderly step **keeps** the invariant. -/
theorem Kept.step {e : HlsServerStep}
    (h : s.Kept) (horderly : s.Orderly e) (hstep : s.step e = some s') : s'.Kept := by
  cases e with
  | begin op id =>
    obtain ⟨-, hstep⟩ := Option.ite_none_left_eq_some.mp hstep
    obtain rfl := Option.some.inj hstep
    intro id'
    refine (h id').of_agrees ⟨rfl, rfl, rfl, fun _ _ => Iff.rfl, fun i stage hstage => ?_⟩
    rw [Stands, Stands, List.getElem?_append]
    split_ifs with hi
    · exact Iff.rfl
    · constructor
      · rintro ⟨call, hcall, -, rfl⟩
        obtain rfl := List.mem_singleton.mp (List.mem_of_getElem? hcall)
        exact absurd (stage_first op) hstage
      · rintro ⟨call, hcall, -⟩
        exact absurd (List.getElem?_eq_some_iff.mp hcall).1 hi
  | advance i ok =>
    obtain ⟨call, hcall, hstep⟩ := Option.bind_eq_some_iff.mp hstep
    exact h.advance hcall horderly hstep
  | access id =>
    obtain rfl := Option.some.inj hstep
    exact fun id' => (h id').of_agrees ⟨rfl, rfl, rfl, fun _ _ => Iff.rfl, fun _ _ _ => Iff.rfl⟩
  | createStream id =>
    rw [HlsServer.step] at hstep
    split at hstep
    · obtain rfl := Option.some.inj hstep
      exact h
    · next hnone =>
      obtain rfl := Option.some.inj hstep
      refine h.hubs fun k id' hub hrun => Function.update_of_ne ?_ _ _
      rintro rfl
      exact Option.some_ne_none hub (((h _).running k hub hrun).1.symm.trans hnone)
  | removeStream id =>
    obtain rfl := Option.some.inj hstep
    refine h.hubs fun k id' hub hrun => Function.update_of_ne ?_ _ _
    rintro rfl
    exact horderly _ (List.mem_of_getElem? hrun) rfl rfl
  | feed k =>
    obtain ⟨task, -, hstep⟩ := Option.bind_eq_some_iff.mp hstep
    obtain ⟨-, hstep⟩ := Option.ite_none_left_eq_some.mp hstep
    obtain rfl := Option.some.inj hstep
    exact fun id' => (h id').of_agrees ⟨rfl, rfl, rfl, fun _ _ => Iff.rfl, fun _ _ _ => Iff.rfl⟩
  | yield k =>
    obtain ⟨task, htask, hstep⟩ := Option.bind_eq_some_iff.mp hstep
    obtain ⟨haborted, hstep⟩ := Option.ite_none_right_eq_some.mp hstep
    obtain rfl := Option.some.inj hstep
    refine fun id => (h id).of_agrees ⟨rfl, rfl, rfl, fun j hub => ?_, fun _ _ _ => Iff.rfl⟩
    rw [Runs, Runs, List.getElem?_set]
    split_ifs with hk hlt
    · subst hk
      rw [htask]
      refine iff_of_false (fun heq => ?_) fun heq => ?_
      · exact HlsTaskPhase.noConfusion (congrArg HlsTask.phase (Option.some.inj heq))
      · exact HlsTaskPhase.noConfusion (haborted.symm.trans (congrArg HlsTask.phase
          (Option.some.inj heq)))
    · exact absurd (List.getElem?_eq_some_iff.mp htask).1 (hk ▸ hlt)
    · exact Iff.rfl
  | close k =>
    obtain ⟨task, htask, hstep⟩ := Option.bind_eq_some_iff.mp hstep
    obtain ⟨⟨hphase, hdropped⟩, -⟩ := Option.ite_none_right_eq_some.mp hstep
    exact absurd hdropped (not_senderDropped htask hphase)

/-- In every run of orderly steps, whatever their order, sessions and tasks **belong together**
wherever nothing is under way. -/
theorem hls_lifecycle_run (es : List HlsServerStep) (s : HlsServer)
    (hs : exec HlsServer.step start es = some s) (horderly : Always HlsServer.step Orderly start es)
    (hq : s.Quiescent) : s.Lifecycle :=
  (exec_inv (fun _ _ _ h horderly hstep => h.step horderly hstep) kept_start horderly hs).lifecycle
    hq

/-- A call goes on for some steps. -/
def goOn (i n : ℕ) : List HlsServerStep := List.replicate n (.advance i true)

/-- A stream is made, its HLS is started by one viewer and asked for by another one, and then
restarted. -/
def restartCalls : List HlsServerStep :=
  [.createStream "cam", .begin (.ensureStream false) "cam"] ++ goOn 0 8 ++
    [.feed 0, .begin (.ensureStream false) "cam"] ++ goOn 1 3 ++
    [.begin (.ensureStream true) "cam"] ++ goOn 2 6 ++ [.yield 0] ++ goOn 2 6

theorem lifecycle_restart :
    ∃ s, exec HlsServer.step start restartCalls = some s ∧ s.hasStream "cam" = true ∧
    s.Quiescent ∧ s.Lifecycle := by
  have hend : (exec HlsServer.step start restartCalls).any (fun s => s.hasStream "cam" &&
      decide s.Quiescent) = true := by
    decide +kernel
  obtain ⟨s, hs, hlast⟩ := (Option.any_eq_true _ _).mp hend
  obtain ⟨hstream, hq⟩ := Bool.and_eq_true_iff.mp hlast
  exact ⟨s, hs, hstream, of_decide_eq_true hq,
    hls_lifecycle_run restartCalls s hs (by decide +kernel) (of_decide_eq_true hq)⟩

/-- Two viewers come at once, and the stream is stopped. -/
def startTwice : List HlsServerStep :=
  [.createStream "cam", .begin (.ensureStream false) "cam", .begin (.ensureStream false) "cam"] ++
    goOn 0 3 ++ goOn 1 3 ++ goOn 0 5 ++ goOn 1 5 ++
    [.begin .stopStream "cam"] ++ goOn 2 3 ++ [.yield 1]

/-- Each has found no session, and started a task; one of the two is never stopped. -/
theorem not_lifecycle_startTwice :
    ∃ s, exec HlsServer.step start startTwice = some s ∧ s.Quiescent ∧
    s.sessions "cam" = none ∧ s.tasks[0]? = some ⟨"cam", 0, .running⟩ ∧ ¬ s.Lifecycle := by
  have hend : (exec HlsServer.step start startTwice).any (fun s =>
    decide (s.Quiescent ∧ s.sessions "cam" = none ∧
      s.tasks[0]? = some ⟨"cam", 0, .running⟩)) = true := by
    decide +kernel
  obtain ⟨s, hs, hlast⟩ := (Option.any_eq_true _ _).mp hend
  obtain ⟨hq, hnone, htask⟩ := of_decide_eq_true hlast
  refine ⟨s, hs, hq, hnone, htask, fun h => ?_⟩
  exact HlsTaskPhase.noConfusion (h.stopped "cam" hnone _ (List.mem_of_getElem? htask) rfl)

end HlsServer

end VcpMediaServer
