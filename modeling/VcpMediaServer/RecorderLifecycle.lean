import VcpMediaServer.Lts
import VcpMediaServer.Record

/-!
# The life of recordings

The manager lists a task and forgets it at a stop; the task itself **never** takes its name off the
list, and puts a final status into the index only where it gets to the end of its loop. So the list
is right as long as tasks end because they are told to.

* `Recorder.Quiescent` — no call is under way, and the tasks that were told to stop have ended.
* `Recorder.Lifecycle` — one task for a stream, which is the one that is listed; the index is final.
* `Recorder.Orderly` — the steps that keep it.
* `lifecycle_run` — in every run of such steps, whatever their order.
-/

namespace VcpMediaServer

open Lts

/-! ## The index -/

theorem mem_upsertIndexEntry {index : List RecordingEntry}
    (hnodup : (index.map RecordingEntry.id).Nodup) {entry e : RecordingEntry}
    (h : e ∈ upsertIndexEntry index entry) :
    e = entry ∨ e ∈ index ∧ e.id ≠ entry.id := by
  induction index with
  | nil => exact .inl (List.mem_singleton.mp h)
  | cons existing index ih =>
    obtain ⟨hfirst, hrest⟩ := List.nodup_cons.mp hnodup
    rw [upsertIndexEntry] at h
    split_ifs at h with hid
    · rcases List.mem_cons.mp h with rfl | h
      · exact .inl rfl
      · refine .inr ⟨List.mem_cons_of_mem _ h, fun heq => hfirst ?_⟩
        rw [hid, ← heq]
        exact List.mem_map_of_mem h
    · rcases List.mem_cons.mp h with rfl | h
      · exact .inr ⟨List.mem_cons_self, hid⟩
      · exact (ih hrest h).imp_right fun h => ⟨List.mem_cons_of_mem _ h.1, h.2⟩

theorem ids_upsertIndexEntry (index : List RecordingEntry) (entry : RecordingEntry) :
    (upsertIndexEntry index entry).map RecordingEntry.id =
      if entry.id ∈ index.map RecordingEntry.id then index.map RecordingEntry.id
      else index.map RecordingEntry.id ++ [entry.id] := by
  induction index with
  | nil => rfl
  | cons existing index ih =>
    rw [upsertIndexEntry]
    split_ifs with hid hmem hmem
    · simp [hid]
    · simp [hid] at hmem
    · simp_all [eq_comm]
    · simp_all [eq_comm]

theorem nodup_upsertIndexEntry {index : List RecordingEntry}
    (h : (index.map RecordingEntry.id).Nodup) (entry : RecordingEntry) :
    ((upsertIndexEntry index entry).map RecordingEntry.id).Nodup := by
  rw [ids_upsertIndexEntry]
  split_ifs with hmem
  · exact h
  · rw [← List.concat_eq_append]
    exact h.concat hmem

theorem recordSessionId_inj {streamId streamId' : List Char} {now now' : ℕ} :
    recordSessionId streamId now = recordSessionId streamId' now' ↔
        streamId = streamId' ∧ now = now' := by
  have hsplit : ∀ (id : List Char) (n : ℕ), recordSessionId id n =
      ("rec_".toList ++ id) ++ '_' :: (toString n).toList :=
    fun id n => List.append_assoc ("rec_".toList ++ id) ['_'] (toString n).toList
  rw [hsplit, hsplit, Text.append_cons_inj (Text.underscore_not_mem_toString now)
    (Text.underscore_not_mem_toString now'), List.append_right_inj]
  exact and_congr_right fun _ => ⟨Text.toString_injective, fun h => by rw [h]⟩

namespace Recorder

/-! ## The list, the index and the tasks -/

/-- Nothing is under way: no call, and no stop that a task has been told of. -/
def Quiescent (s : Recorder) : Prop :=
  s.checked = [] ∧ s.spawned = [] ∧ ∀ run ∈ s.runs, run.phase ≠ .ended → run.told = false

/-- The list and the index say what the tasks do. -/
structure Lifecycle (s : Recorder) : Prop where
  /-- A stream has **one** task. -/
  one : ∀ (j k : ℕ) (run run' : RecordRun), s.runs[j]? = some run → s.runs[k]? = some run' →
    run.phase ≠ .ended → run'.phase ≠ .ended →
    run.task.streamId = run'.task.streamId → j = k
  /-- A stream is listed exactly if its task runs. -/
  listed : ∀ streamId, (s.active streamId).isSome ↔
    ∃ run ∈ s.runs, run.phase ≠ .ended ∧ run.task.streamId = streamId
  /-- The entries of a session that has ended are final. -/
  final : ∀ e ∈ s.index, ∀ run ∈ s.runs, run.phase = .ended → run.task.sessionId = e.sessionId →
    e.status ≠ .recording

/-- The steps that keep it: a session has an id of its own, no call of `start` replaces what another
one has listed, and a task ends by itself only when it is told to stop anyway and has nothing in the
index as a recording. -/
def Orderly (s : Recorder) : RecorderStep → Prop
  | .spawn call now => ∀ req ∈ s.checked[call]?, ∀ run ∈ s.runs,
    run.task.streamId = req.1.streamId → run.task.sessionMs ≠ now
  | .insert call => ∀ k ∈ s.spawned[call]?, ∀ run ∈ s.runs[k]?, s.active run.task.streamId = none
  | .task k .close => ∀ run ∈ s.runs[k]?, run.told = true
  | .task k .fail => ∀ run ∈ s.runs[k]?, run.told = true ∧
    ∀ e ∈ s.index, e.sessionId = run.task.sessionId → e.status ≠ .recording
  | _ => True

instance (s : Recorder) : ∀ e, Decidable (s.Orderly e)
  | .check _ _ => isTrue trivial
  | .spawn call now => inferInstanceAs (Decidable (∀ req ∈ s.checked[call]?, ∀ run ∈ s.runs,
      run.task.streamId = req.1.streamId → run.task.sessionMs ≠ now))
  | .insert call => inferInstanceAs (Decidable (∀ k ∈ s.spawned[call]?, ∀ run ∈ s.runs[k]?,
      s.active run.task.streamId = none))
  | .stop _ => isTrue trivial
  | .task k event =>
    match event with
    | .close => inferInstanceAs (Decidable (∀ run ∈ s.runs[k]?, run.told = true))
    | .fail => inferInstanceAs (Decidable (∀ run ∈ s.runs[k]?, run.told = true ∧
        ∀ e ∈ s.index, e.sessionId = run.task.sessionId → e.status ≠ .recording))
    | .create _ _ | .resync | .rotate _ _ | .write _ _ _ _ _ | .finish => isTrue trivial

/-! ## What is kept -/

/-- The invariant between the list, the tasks and the index. -/
structure Kept (s : Recorder) : Prop where
  active : ∀ streamId k, s.active streamId = some k → ∃ run :
    RecordRun, s.runs[k]? = some run ∧ run.task.streamId = streamId ∧
    run.phase ≠ .ended ∧ run.told = false
  listed : ∀ (k : ℕ) (run : RecordRun), s.runs[k]? = some run → run.phase ≠ .ended →
    run.told = false →
    s.active run.task.streamId = some k ∨ k ∈ s.spawned
  spawned : ∀ k ∈ s.spawned, (∀ streamId, s.active streamId ≠ some k) ∧
    ∃ run : RecordRun, s.runs[k]? = some run ∧ run.phase ≠ .ended ∧ run.told = false
  nodup : s.spawned.Nodup
  sessions : ∀ (j k : ℕ) (run run' : RecordRun), s.runs[j]? = some run → s.runs[k]? = some run' →
    run.task.sessionId = run'.task.sessionId → j = k
  ids : (s.index.map RecordingEntry.id).Nodup
  /-- What is in the index as a recording is the segment that a task writes. -/
  recording : ∀ e ∈ s.index, e.status = .recording → ∃ (k : ℕ) (run : RecordRun)
    (w : SegmentWriter), s.runs[k]? = some run ∧ run.phase = .writing w ∧
    e.id = w.id ∧ e.sessionId = run.task.sessionId
  segment : ∀ (k : ℕ) (run : RecordRun) w, s.runs[k]? = some run → run.phase.current = some w →
    w.sessionId = run.task.sessionId

theorem Kept.lifecycle {s : Recorder} (h : s.Kept) (hq : s.Quiescent) : s.Lifecycle := by
  obtain ⟨-, hspawned, htold⟩ := hq
  have hactive : ∀ {k run}, s.runs[k]? = some run → run.phase ≠ .ended →
      s.active run.task.streamId = some k := by
    intro k run hrun hphase
    have hfalse := htold run (List.mem_of_getElem? hrun) hphase
    refine (h.listed k run hrun hphase hfalse).resolve_right fun hmem => ?_
    rw [hspawned] at hmem
    cases hmem
  constructor
  · intro j k run run' hrun hrun' hphase hphase' hstream
    have hj := hactive hrun hphase
    rw [hstream, hactive hrun' hphase'] at hj
    exact (Option.some.inj hj).symm
  · intro streamId
    constructor
    · intro hsome
      obtain ⟨k, hk⟩ := Option.isSome_iff_exists.mp hsome
      obtain ⟨run, hrun, hstream, hphase, -⟩ := h.active streamId k hk
      exact ⟨run, List.mem_of_getElem? hrun, hphase, hstream⟩
    · rintro ⟨run, hmem, hphase, rfl⟩
      obtain ⟨k, hrun⟩ := List.getElem?_of_mem hmem
      rw [hactive hrun hphase]
      rfl
  · intro e he run hmem hended hsession hrecording
    obtain ⟨k, run', w, hrun', hwriting, -, hsession'⟩ := h.recording e he hrecording
    obtain ⟨j, hrun⟩ := List.getElem?_of_mem hmem
    obtain rfl := h.sessions j k run run' hrun hrun' (hsession.trans hsession')
    obtain rfl := Option.some.inj (hrun.symm.trans hrun')
    rw [hended] at hwriting
    cases hwriting

/-! ## The steps -/

variable {date : ℕ → ℕ × ℕ × ℕ} {s s' : Recorder}

theorem Kept.spawn {call now : ℕ} {req : StartRecordRequest} {tracks : List Track} (h : s.Kept)
    (hcall : s.checked[call]? = some (req, tracks)) (horderly : s.Orderly (.spawn call now)) :
    Kept { s with
      checked := s.checked.eraseIdx call
      spawned := s.spawned ++ [s.runs.length]
      runs := s.runs ++ [⟨s.config.newTask req tracks now, false, .opening⟩]
      clock := now } := by
  have hruns := getElem?_concat_run s.runs ⟨s.config.newTask req tracks now, false, .opening⟩
  have hlt : ∀ {k : ℕ} {run : RecordRun}, s.runs[k]? = some run → k ≠ s.runs.length := fun hrun =>
    Nat.ne_of_lt (List.getElem?_eq_some_iff.mp hrun).1
  have hold : ∀ {k : ℕ} {run : RecordRun}, s.runs[k]? = some run →
      (s.runs ++ [⟨s.config.newTask req tracks now, false, .opening⟩])[k]? = some run := by
    intro k run hrun
    rw [hruns, if_neg (hlt hrun), hrun]
  -- the id of the session is a new one
  have hnew : ∀ (k : ℕ) (run : RecordRun), s.runs[k]? = some run →
      run.task.sessionId ≠ (s.config.newTask req tracks now).sessionId := by
    intro k run hrun heq
    obtain ⟨hstream, hms⟩ := recordSessionId_inj.mp heq
    exact horderly _ hcall run (List.mem_of_getElem? hrun) (String.toList_injective hstream) hms
  constructor
  · intro streamId k hk
    obtain ⟨run, hrun, hrest⟩ := h.active streamId k hk
    exact ⟨run, hold hrun, hrest⟩
  · intro k run hrun hphase htold
    rw [hruns] at hrun
    split_ifs at hrun with hk
    · exact .inr (List.mem_append_right _ (hk ▸ List.mem_singleton_self _))
    · exact (h.listed k run hrun hphase htold).imp_right (List.mem_append_left _)
  · intro k hk
    rcases List.mem_append.mp hk with hk | hk
    · obtain ⟨hactive, run, hrun, hrest⟩ := h.spawned k hk
      exact ⟨hactive, run, hold hrun, hrest⟩
    · obtain rfl := List.mem_singleton.mp hk
      refine ⟨fun streamId hactive => ?_, _, (hruns _).trans (if_pos rfl), RecordPhase.noConfusion,
        rfl⟩
      obtain ⟨run, hrun, -⟩ := h.active streamId _ hactive
      exact hlt hrun rfl
  · refine List.nodup_append.mpr ⟨h.nodup, List.nodup_singleton _, fun k hk j hj => ?_⟩
    obtain ⟨-, run, hrun, -⟩ := h.spawned k hk
    rw [List.mem_singleton.mp hj]
    exact hlt hrun
  · intro j k run run' hrun hrun' hsession
    rw [hruns] at hrun hrun'
    split_ifs at hrun hrun' with hj hk hk
    · rw [hj, hk]
    · obtain rfl := Option.some.inj hrun
      exact absurd hsession.symm (hnew k run' hrun')
    · obtain rfl := Option.some.inj hrun'
      exact absurd hsession (hnew j run hrun)
    · exact h.sessions j k run run' hrun hrun' hsession
  · exact h.ids
  · intro e he hrecording
    obtain ⟨k, run, w, hrun, hrest⟩ := h.recording e he hrecording
    exact ⟨k, run, w, hold hrun, hrest⟩
  · intro k run w hrun hcurrent
    rw [hruns] at hrun
    split_ifs at hrun
    · obtain rfl := Option.some.inj hrun
      cases hcurrent
    · exact h.segment k run w hrun hcurrent

theorem Kept.insert {call k : ℕ} {run : RecordRun} (h : s.Kept) (hcall : s.spawned[call]? = some k)
    (hrun : s.runs[k]? = some run) (horderly : s.Orderly (.insert call)) :
    Kept { s with
      active := Function.update s.active run.task.streamId (some k)
      spawned := s.spawned.eraseIdx call } := by
  have hfree : s.active run.task.streamId = none := horderly k hcall run hrun
  obtain ⟨-, run', hrun', hphase, htold⟩ := h.spawned k (List.mem_of_getElem? hcall)
  obtain rfl := Option.some.inj (hrun.symm.trans hrun')
  have hmem : ∀ j, j ∈ s.spawned.eraseIdx call ↔ j ∈ s.spawned ∧ j ≠ k := by
    intro j
    rw [List.mem_eraseIdx_iff_getElem?]
    constructor
    · rintro ⟨i, hi, hj⟩
      refine ⟨List.mem_of_getElem? hj, ?_⟩
      rintro rfl
      have hlt := (List.getElem?_eq_some_iff.mp hj).1
      exact hi ((List.getElem?_inj hlt h.nodup).mp (hj.trans hcall.symm))
    · rintro ⟨hj, hne⟩
      obtain ⟨i, hi⟩ := List.getElem?_of_mem hj
      refine ⟨i, ?_, hi⟩
      rintro rfl
      exact hne (Option.some.inj (hi.symm.trans hcall))
  have hupdate := Function.update_apply s.active run.task.streamId (some k)
  constructor
  · intro streamId j hj
    replace hj := (hupdate streamId).symm.trans hj
    split_ifs at hj with hstream
    · obtain rfl := Option.some.inj hj
      exact ⟨run, hrun, hstream.symm, hphase, htold⟩
    · exact h.active streamId j hj
  · intro j run' hrun' hphase' htold'
    by_cases hj : j = k
    · subst hj
      obtain rfl := Option.some.inj (hrun.symm.trans hrun')
      exact .inl (Function.update_self ..)
    · rcases h.listed j run' hrun' hphase' htold' with hactive | hspawned
      · have hstream : run'.task.streamId ≠ run.task.streamId := fun heq => by
          rw [heq, hfree] at hactive
          cases hactive
        exact .inl ((Function.update_of_ne hstream ..).trans hactive)
      · exact .inr ((hmem j).mpr ⟨hspawned, hj⟩)
  · intro j hj
    obtain ⟨hspawned, hne⟩ := (hmem j).mp hj
    obtain ⟨hactive, hrest⟩ := h.spawned j hspawned
    refine ⟨fun streamId heq => ?_, hrest⟩
    replace heq := (hupdate streamId).symm.trans heq
    split_ifs at heq
    · exact hne (Option.some.inj heq).symm
    · exact hactive streamId heq
  · exact h.nodup.sublist (List.eraseIdx_sublist ..)
  · exact h.sessions
  · exact h.ids
  · exact h.recording
  · exact h.segment

theorem Kept.stop {streamId : StreamId} {k : ℕ} (h : s.Kept)
    (hactive : s.active streamId = some k) :
    Kept { s with
      active := Function.update s.active streamId none
      runs := s.runs.modify k fun run => { run with told := true } } := by
  have hruns := getElem?_tell_run s.runs k
  have hold : ∀ {j : ℕ} {run : RecordRun}, s.runs[j]? = some run →
      (s.runs.modify k fun run => { run with told := true })[j]? =
          some { run with told := run.told || k = j } := by
    intro j run hrun
    rw [hruns, hrun]
    rfl
  have hupdate := Function.update_apply s.active streamId none
  obtain ⟨run, hrun, hstream, -, -⟩ := h.active streamId k hactive
  constructor
  · intro streamId' j hj
    replace hj := (hupdate streamId').symm.trans hj
    split_ifs at hj with hne
    · obtain ⟨run', hrun', hstream', hphase, htold⟩ := h.active streamId' j hj
      have hkj : k ≠ j := by
        rintro rfl
        obtain rfl := Option.some.inj (hrun.symm.trans hrun')
        exact hne (hstream'.symm.trans hstream)
      exact ⟨_, hold hrun', hstream', hphase, by simp [htold, hkj]⟩
  · intro j run' hrun' hphase htold
    rw [hruns] at hrun'
    obtain ⟨old, hj, rfl⟩ := Option.map_eq_some_iff.mp hrun'
    obtain ⟨htold, hkj⟩ := Bool.or_eq_false_iff.mp htold
    rcases h.listed j old hj hphase htold with hactive' | hspawned
    · refine .inl ((Function.update_of_ne (fun heq => ?_) ..).trans hactive')
      rw [heq, hactive] at hactive'
      exact of_decide_eq_false hkj (Option.some.inj hactive')
    · exact .inr hspawned
  · intro j hj
    obtain ⟨hnot, run', hrun', hphase, htold⟩ := h.spawned j hj
    have hkj : k ≠ j := by
      rintro rfl
      exact hnot streamId hactive
    refine ⟨fun streamId' heq => ?_, _, hold hrun', hphase, by simp [htold, hkj]⟩
    replace heq := (hupdate streamId').symm.trans heq
    split_ifs at heq
    exact hnot streamId' heq
  · exact h.nodup
  · intro i j run run' hrun hrun' hsession
    rw [hruns] at hrun hrun'
    obtain ⟨old, hi, rfl⟩ := Option.map_eq_some_iff.mp hrun
    obtain ⟨old', hj, rfl⟩ := Option.map_eq_some_iff.mp hrun'
    exact h.sessions i j old old' hi hj hsession
  · exact h.ids
  · intro e he hrecording
    obtain ⟨j, run, w, hrun, hrest⟩ := h.recording e he hrecording
    exact ⟨j, _, w, hold hrun, hrest⟩
  · intro j run w hrun hcurrent
    rw [hruns] at hrun
    obtain ⟨old, hj, rfl⟩ := Option.map_eq_some_iff.mp hrun
    exact h.segment j old w hj hcurrent

/-- In an orderly step, a task ends only if it was told to. -/
theorem told_of_ended {k : ℕ} {event : RecordEvent} {run : RecordRun} {out : RecordOutcome}
    (hrun : s.runs[k]? = some run) (hgoes : run.Goes date s.clock event out)
    (horderly : s.Orderly (.task k event)) (hended : out.phase = .ended) : run.told = true := by
  cases hgoes with
  | create => cases hended
  | renew => cases hended
  | write => cases hended
  | finish hevent =>
    rcases hevent with rfl | ⟨-, htold⟩
    · exact horderly run hrun
    · exact htold
  | fail => exact (horderly run hrun).1

/-- What the index has as a recording is the segment of a task, behind a step of one of them. -/
theorem Kept.recording_task {k : ℕ} {event : RecordEvent} {run : RecordRun} {out : RecordOutcome}
    (h : s.Kept) (hrun : s.runs[k]? = some run) (hgoes : run.Goes date s.clock event out)
    (horderly : s.Orderly (.task k event)) {e : RecordingEntry}
    (he : e ∈ out.entry.elim s.index (upsertIndexEntry s.index))
    (hrecording : e.status = .recording) :
    ∃ (j : ℕ) (run' : RecordRun) (w : SegmentWriter),
      (s.runs.set k { run with phase := out.phase })[j]? = some run' ∧
      run'.phase = .writing w ∧ e.id = w.id ∧ e.sessionId = run'.task.sessionId := by
  have hruns := getElem?_set_run hrun { run with phase := out.phase }
  -- an entry of another task stays, and so does one of this task that it does not finish
  have hold : e ∈ s.index →
    (∀ w, run.phase = .writing w → e.id = w.id → e.sessionId = run.task.sessionId →
      ∃ w', out.phase = .writing w' ∧ e.id = w'.id) →
      ∃ (j : ℕ) (run' : RecordRun) (w : SegmentWriter),
        (s.runs.set k { run with phase := out.phase })[j]? = some run' ∧
        run'.phase = .writing w ∧ e.id = w.id ∧ e.sessionId = run'.task.sessionId := by
    intro he hown
    obtain ⟨j, run', w, hrun', hwriting, hid, hsession⟩ := h.recording e he hrecording
    by_cases hkj : k = j
    · subst hkj
      obtain rfl := Option.some.inj (hrun.symm.trans hrun')
      obtain ⟨w', hphase, hid'⟩ := hown w hwriting hid hsession
      exact ⟨k, _, w', (hruns k).trans (if_pos rfl), hphase, hid', hsession⟩
    · exact ⟨j, run', w, (hruns j).trans ((if_neg hkj).trans hrun'), hwriting, hid, hsession⟩
  have hself := (hruns k).trans (if_pos rfl)
  cases hgoes with
  | @create now flushed listed w w' hopens hclock hnew hsame =>
    have hnot : ∀ w, run.phase ≠ .writing w := fun w hw => by
      rw [hw] at hopens
      cases hopens
    cases listed with
    | false => exact hold he fun w hw => absurd hw (hnot w)
    | true =>
      rcases mem_upsertIndexEntry h.ids he with rfl | ⟨he, -⟩
      · obtain ⟨-, -, hsession, -, -⟩ := SegmentWriter.new_eq_some hnew
        exact ⟨k, _, w', hself, rfl, hsame.id.symm, hsession⟩
      · exact hold he fun w hw => absurd hw (hnot w)
  | @renew _ w now resync hevent hphase hclock =>
    rcases mem_upsertIndexEntry h.ids he with rfl | ⟨he, hne⟩
    · exact absurd hrecording w.finish_status_ne
    · exact hold he fun w' hw' hid => absurd hid (by cases hphase.symm.trans hw'; exact hne)
  | @write _ w w' entry hevent hphase hsame hentry =>
    have hgoesOn : ∀ w'', run.phase = .writing w'' → e.id = w''.id →
      e.sessionId = run.task.sessionId →
        ∃ next, RecordPhase.writing w' = .writing next ∧ e.id = next.id := by
      intro w'' hw'' hid _
      cases hphase.symm.trans hw''
      exact ⟨w', rfl, hid.trans hsame.id.symm⟩
    cases entry with
    | none => exact hold he hgoesOn
    | some flushed =>
      rcases mem_upsertIndexEntry h.ids he with rfl | ⟨he, -⟩
      · obtain ⟨hid, hsession⟩ := hentry e rfl
        have hwriter := h.segment k run w hrun (hphase ▸ rfl)
        exact ⟨k, _, w', hself, rfl, hid.trans hsame.id.symm, hsession.trans hwriter⟩
      · exact hold he hgoesOn
  | @finish _ w hevent hphase =>
    rcases mem_upsertIndexEntry h.ids he with rfl | ⟨he, hne⟩
    · exact absurd hrecording w.finish_status_ne
    · exact hold he fun w' hw' hid => absurd hid (by cases hphase.symm.trans hw'; exact hne)
  | fail hphase =>
    exact hold he fun w hw hid hsession => absurd hrecording ((horderly run hrun).2 e he hsession)

theorem Kept.segment_task {k : ℕ} {event : RecordEvent} {run : RecordRun} {out : RecordOutcome}
    {w : SegmentWriter} (h : s.Kept) (hrun : s.runs[k]? = some run)
    (hgoes : run.Goes date s.clock event out) (hcurrent : out.phase.current = some w) :
    w.sessionId = run.task.sessionId := by
  cases hgoes with
  | create hopens hclock hnew hsame =>
    obtain rfl := Option.some.inj hcurrent
    obtain ⟨-, -, hsession, -, -⟩ := SegmentWriter.new_eq_some hnew
    exact hsame.sessionId.trans hsession
  | renew resync hevent hphase =>
    obtain rfl := Option.some.inj hcurrent
    exact h.segment k run _ hrun (hphase ▸ rfl)
  | write hevent hphase hsame =>
    obtain rfl := Option.some.inj hcurrent
    exact hsame.sessionId.trans (h.segment k run _ hrun (hphase ▸ rfl))
  | finish => cases hcurrent
  | fail => cases hcurrent

theorem Kept.task {k : ℕ} {event : RecordEvent} {run : RecordRun} {out : RecordOutcome} (h : s.Kept)
    (hrun : s.runs[k]? = some run) (hgoes : run.Goes date s.clock event out)
    (horderly : s.Orderly (.task k event)) :
    Kept { s with
      runs := s.runs.set k { run with phase := out.phase }
      index := out.entry.elim s.index (upsertIndexEntry s.index)
      created := s.created ++ (out.made.map fun w => (k, w)).toList
      clock := out.clock } := by
  have hruns := getElem?_set_run hrun { run with phase := out.phase }
  -- a task that is not told to stop runs on
  have hrunning : ∀ {j : ℕ} {run' : RecordRun}, s.runs[j]? = some run' → run'.phase ≠ .ended →
    run'.told = false →
      ∃ run'' : RecordRun, (s.runs.set k { run with phase := out.phase })[j]? = some run'' ∧
        run''.task = run'.task ∧
        run''.phase ≠ .ended ∧ run''.told = false := by
    intro j run' hrun' hphase htold
    by_cases hkj : k = j
    · subst hkj
      obtain rfl := Option.some.inj (hrun.symm.trans hrun')
      refine ⟨_, (hruns k).trans (if_pos rfl), rfl, fun hended => ?_, htold⟩
      rw [told_of_ended hrun hgoes horderly hended] at htold
      cases htold
    · exact ⟨run', (hruns j).trans ((if_neg hkj).trans hrun'), rfl, hphase, htold⟩
  have htask : ∀ {j : ℕ} {run' : RecordRun}, (s.runs.set k { run with phase := out.phase })[j]? =
    some run' →
      ∃ old : RecordRun, s.runs[j]? = some old ∧ old.task = run'.task := by
    intro j run' hrun'
    rw [hruns] at hrun'
    split_ifs at hrun' with hkj
    · obtain rfl := Option.some.inj hrun'
      exact ⟨run, hkj ▸ hrun, rfl⟩
    · exact ⟨run', hrun', rfl⟩
  constructor
  · intro streamId j hj
    obtain ⟨run', hrun', hstream, hphase, htold⟩ := h.active streamId j hj
    obtain ⟨run'', hrun'', htask, hrest⟩ := hrunning hrun' hphase htold
    exact ⟨run'', hrun'', htask ▸ hstream, hrest⟩
  · intro j run' hrun' hphase htold
    rw [hruns] at hrun'
    split_ifs at hrun' with hkj
    · obtain rfl := Option.some.inj hrun'
      exact hkj ▸ h.listed k run hrun hgoes.running htold
    · exact h.listed j run' hrun' hphase htold
  · intro j hj
    obtain ⟨hnot, run', hrun', hphase, htold⟩ := h.spawned j hj
    obtain ⟨run'', hrun'', -, hrest⟩ := hrunning hrun' hphase htold
    exact ⟨hnot, run'', hrun'', hrest⟩
  · exact h.nodup
  · intro i j run' run'' hrun' hrun'' hsession
    obtain ⟨old, hi, hold⟩ := htask hrun'
    obtain ⟨old', hj, hold'⟩ := htask hrun''
    apply h.sessions i j old old' hi hj
    rw [hold, hold', hsession]
  · cases hentry : out.entry with
    | none => exact h.ids
    | some e => exact nodup_upsertIndexEntry h.ids e
  · exact fun e he hrecording => h.recording_task hrun hgoes horderly he hrecording
  · intro j run' w hrun' hcurrent
    rw [hruns] at hrun'
    split_ifs at hrun' with hkj
    · obtain rfl := Option.some.inj hrun'
      have hsession := h.segment_task hrun hgoes hcurrent
      exact hsession
    · exact h.segment j run' w hrun' hcurrent

theorem Kept.step {e : RecorderStep} (h : s.Kept) (horderly : s.Orderly e)
    (hs : s.step date e = some s') :
    s'.Kept := by
  cases goes_of_step hs with
  | refuseCheck => exact h
  | refuseStop => exact h
  | check => exact ⟨h.active, h.listed, h.spawned, h.nodup, h.sessions, h.ids, h.recording,
    h.segment⟩
  | spawn hcall hclock => exact h.spawn hcall horderly
  | insert hcall hrun => exact h.insert hcall hrun horderly
  | stop hactive => exact h.stop hactive
  | task hrun hgoes => exact h.task hrun hgoes horderly

/-! ## Runs -/

theorem kept_new (config : RecordConfig) : (new config).Kept where
  active := fun streamId k hk => by cases hk
  listed := fun k run hrun => by cases hrun
  spawned := fun k hk => absurd hk List.not_mem_nil
  nodup := .nil
  sessions := fun j k run run' hrun => by cases hrun
  ids := .nil
  recording := fun e he => absurd he List.not_mem_nil
  segment := fun k run w hrun => by cases hrun

/-- **The life of recordings**: in every run of orderly steps, whenever nothing is under way, a
stream has one task, which is the one that is listed, and the entries of sessions that have ended
are final. -/
theorem lifecycle_run {config : RecordConfig} {run : List RecorderStep} {s : Recorder}
    (horderly : Always (step date) Orderly (new config) run)
    (hr : exec (step date) (new config) run = some s) (hq : s.Quiescent) : s.Lifecycle :=
  (exec_inv (fun _ _ _ hkept horderly hs => hkept.step horderly hs)
    (kept_new config) horderly hr).lifecycle hq

/-- Recording is on. -/
abbrev recording : RecordConfig := ⟨true, "./records".toList, 60, true⟩

/-- A call of `start` for a stream, and its task. -/
abbrev startCalls (streamId : StreamId) : List RecorderStep :=
  [.check (StreamManager.new.createStream streamId .push .rtmp none).1 ⟨streamId, none, none⟩,
    .spawn 0 5, .insert 0]

/-- A session of `cam` that is stopped. -/
abbrev stoppedCam : List RecorderStep :=
  startCalls "cam" ++ [.task 0 (.create 7 7), .stop "cam", .task 0 .finish]

theorem lifecycle_stopped : ∃ s, exec (step fun _ => (2025, 1, 1)) (new recording) stoppedCam =
    some s ∧ s.Lifecycle := by
  have horderly :
    Always (step fun _ => (2025, 1, 1)) Orderly (new recording) stoppedCam := by decide
  refine ⟨_, rfl, lifecycle_run horderly rfl ⟨rfl, rfl, fun run hmem hphase => ?_⟩⟩
  exact absurd (congrArg RecordRun.phase (List.mem_singleton.mp hmem)) hphase

/-- The name of a stream has a separator in it: the task finds no directory for its first segment
and ends, the stream stays listed, and **no other session** of it can be started. -/
theorem not_lifecycle_failed : ∃ s,
    exec (step fun _ => (2025, 1, 1)) (new recording) (startCalls "live/cam" ++ [.task 0 .fail]) =
      some s ∧
      s.Quiescent ∧ ¬ s.Lifecycle ∧
      s.startCheck (StreamManager.new.createStream "live/cam" .push .rtmp none).1
        ⟨"live/cam", none, none⟩ =
        .error "recording already active for stream" := by
  refine ⟨_, rfl, ⟨rfl, rfl, fun run hmem hphase => ?_⟩, fun h => ?_, rfl⟩
  · exact absurd (congrArg RecordRun.phase (List.mem_singleton.mp hmem)) hphase
  · obtain ⟨run, hmem, hphase, -⟩ := (h.listed "live/cam").mp rfl
    exact hphase (congrArg RecordRun.phase (List.mem_singleton.mp hmem))

end Recorder

end VcpMediaServer
