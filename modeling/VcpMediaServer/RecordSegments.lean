import VcpMediaServer.Lts
import VcpMediaServer.Record

/-!
# The segments of recordings

A segment is named after the reading of the clock at which its session started and after the one at
which it is made itself. The stream, the two readings, and **nothing else** tell it from other
segments.

* `recordSegmentId_inj` — the id of a segment says which session it is of, and when it is made.
* `Recorder.NeverOverwrites` — the files that are made are in different places, under different ids.
* `neverOverwrites_iff` — along every run, exactly if no segment is made in the millisecond of the
  one before it, or of one of another session with the same id.
-/

namespace VcpMediaServer

open Lts Paths

/-! ## Names -/

/-- The id of a segment says which session it is of, and when it is made. -/
theorem recordSegmentId_inj {sessionId sessionId' : List Char} {now now' : ℕ} :
    recordSegmentId sessionId now = recordSegmentId sessionId' now' ↔
        sessionId = sessionId' ∧ now = now' := by
  have hsplit : ∀ (id : List Char) (n : ℕ), recordSegmentId id n =
      id ++ '_' :: (toString n).toList := by
    intro id n
    rw [recordSegmentId, List.append_assoc]
    rfl
  rw [hsplit, hsplit, Text.append_cons_inj (Text.underscore_not_mem_toString now)
    (Text.underscore_not_mem_toString now')]
  exact and_congr_right fun _ => ⟨Text.toString_injective, fun h => by rw [h]⟩

/-- Segments that are made have the same id exactly if they are of the same session, and are made at
once. -/
theorem SegmentWriter.id_eq_iff {date : ℕ → ℕ × ℕ × ℕ} {task task' : RecordTask} {now now' : ℕ}
    {w w' : SegmentWriter} (h : SegmentWriter.new date task now = some w)
    (h' : SegmentWriter.new date task' now' = some w') :
    w.id = w'.id ↔ w.sessionId = w'.sessionId ∧ w.startedAtMs = w'.startedAtMs := by
  obtain ⟨-, hid, hsession, hnow, -⟩ := SegmentWriter.new_eq_some h
  obtain ⟨-, hid', hsession', hnow', -⟩ := SegmentWriter.new_eq_some h'
  rw [hid, hid', recordSegmentId_inj, hsession, hsession', hnow, hnow']

/-- Segments with different ids are in different places. -/
theorem SegmentWriter.place_ne {date : ℕ → ℕ × ℕ × ℕ} {task task' : RecordTask} {now now' : ℕ}
    {w w' : SegmentWriter} (h : SegmentWriter.new date task now = some w)
    (h' : SegmentWriter.new date task' now' = some w') (hne : w.id ≠ w'.id) :
    normalise w.path ≠ normalise w'.path := by
  have hname : ∀ {task : RecordTask} {now : ℕ}
    {w : SegmentWriter}, SegmentWriter.new date task now = some w →
      ∃ day, normalise w.path = (normalise day).below [w.id ++ ".ts".toList] := by
    intro task now w h
    obtain ⟨hslash, hid, -, -, hpath⟩ := SegmentWriter.new_eq_some h
    have hts : IsName (w.id ++ ".ts".toList) := .of_mem (c := 's') hslash (by simp) (by decide)
    exact ⟨_, hpath ▸ normalise_join_name hts _⟩
  obtain ⟨day, hplace⟩ := hname h
  obtain ⟨day', hplace'⟩ := hname h'
  intro heq
  rw [hplace, hplace'] at heq
  have hnames : (normalise day).names ++ [w.id ++ ".ts".toList] =
      (normalise day').names ++ [w'.id ++ ".ts".toList] :=
    congrArg Dir.names heq
  have hfile := (List.append_inj' hnames rfl).2
  exact hne (List.append_cancel_right (List.cons.inj hfile).1)

namespace Recorder

/-! ## The condition -/

/-- **No overwriting**: the files that are made are in different places, and the entries of their
segments have different ids. -/
def NeverOverwrites (s : Recorder) : Prop :=
  s.created.Pairwise fun a b => a.2.id ≠ b.2.id ∧ normalise a.2.path ≠ normalise b.2.path

/-- A segment is not made in the millisecond of the one before it, or of one of another session with
the same id. -/
def MakesLater (s : Recorder) : RecorderStep → Prop
  | .task k event => ∀ now run, event.creates = some now → s.runs[k]? = some run →
    (∀ w, run.phase.current = some w → w.startedAtMs ≠ now) ∧
      ∀ j w, (j, w) ∈ s.created → j ≠ k → w.sessionId = run.task.sessionId → w.startedAtMs ≠ now
  | _ => True

/-! ## What is kept -/

/-- What the segments have to do with the tasks that made them. -/
structure Made (date : ℕ → ℕ × ℕ × ℕ) (s : Recorder) : Prop where
  /-- A segment is one of its task. -/
  new : ∀ k w, (k, w) ∈ s.created → ∃ run, s.runs[k]? = some run ∧
    SegmentWriter.new date run.task w.startedAtMs = some w
  clock : ∀ k w, (k, w) ∈ s.created → w.startedAtMs ≤ s.clock
  /-- The segment that a task has is the last one that it has made. -/
  current : ∀ k run w, s.runs[k]? = some run → run.phase.current = some w →
    (∃ g, (k, g) ∈ s.created ∧ g.Same w) ∧ ∀ g, (k, g) ∈ s.created → g.startedAtMs ≤ w.startedAtMs
  opening : ∀ k run, s.runs[k]? = some run → run.phase = .opening → ∀ w, (k, w) ∉ s.created

/-- A task has the segment that it has made last. -/
theorem Made.current_task {date : ℕ → ℕ × ℕ × ℕ} {s : Recorder} {k : ℕ} {event : RecordEvent}
    {run : RecordRun} {out : RecordOutcome} {w : SegmentWriter} (h : Made date s)
    (hrun : s.runs[k]? = some run) (hgoes : run.Goes date s.clock event out)
    (hw : out.phase.current = some w) :
    (∃ g, (k, g) ∈ s.created ++ (out.made.map fun w => (k, w)).toList ∧ g.Same w) ∧
      ∀ g, (k, g) ∈ s.created ++ (out.made.map fun w => (k, w)).toList →
          g.startedAtMs ≤ w.startedAtMs := by
  cases hgoes with
  | @create now flushed listed made w' hopens hclock hnew hsame =>
    obtain rfl := Option.some.inj hw
    obtain ⟨-, -, -, hnow, -⟩ := SegmentWriter.new_eq_some hnew
    refine ⟨⟨made, List.mem_append_right _ (List.mem_singleton_self _), hsame⟩, fun g hg => ?_⟩
    rw [hsame.startedAtMs, hnow]
    rcases List.mem_append.mp hg with hg | hg
    · exact le_trans (h.clock k g hg) hclock
    · obtain rfl := (Prod.mk.inj (List.mem_singleton.mp hg)).2
      exact le_of_eq hnow
  | @renew _ old now resync hevent hphase hclock =>
    obtain rfl := Option.some.inj hw
    simpa using h.current k run old hrun (hphase ▸ rfl)
  | @write _ old w' entry hevent hphase hsame hentry =>
    obtain rfl := Option.some.inj hw
    obtain ⟨⟨g, hg, hg'⟩, hle⟩ := h.current k run old hrun (hphase ▸ rfl)
    refine ⟨⟨g, List.mem_append_left _ hg, hg'.trans hsame⟩, fun g hg => ?_⟩
    rw [hsame.startedAtMs]
    exact hle g ((List.mem_append.mp hg).resolve_right (List.not_mem_nil))
  | finish => cases hw
  | fail => cases hw

/-- The step of a task keeps it. -/
theorem Made.task {date : ℕ → ℕ × ℕ × ℕ} {s : Recorder} {k : ℕ} {event : RecordEvent}
    {run : RecordRun} {out : RecordOutcome} (h : Made date s) (hrun : s.runs[k]? = some run)
    (hgoes : run.Goes date s.clock event out) :
    Made date { s with
      runs := s.runs.set k { run with phase := out.phase }
      index := out.entry.elim s.index (upsertIndexEntry s.index)
      created := s.created ++ (out.made.map fun w => (k, w)).toList
      clock := out.clock } := by
  have hruns := getElem?_set_run hrun { run with phase := out.phase }
  have hmade : ∀ w, out.made = some w →
      SegmentWriter.new date run.task w.startedAtMs = some w ∧ w.startedAtMs = out.clock := by
    intro w hw
    cases hgoes with
    | create hopens hclock hnew hsame =>
      obtain rfl := Option.some.inj hw
      obtain ⟨-, -, -, hnow, -⟩ := SegmentWriter.new_eq_some hnew
      exact ⟨hnow.symm ▸ hnew, hnow⟩
    | _ => cases hw
  have hmem : ∀ j w, (j, w) ∈ s.created ++ (out.made.map fun w => (k, w)).toList ↔
      (j, w) ∈ s.created ∨ j = k ∧ out.made = some w := by
    intro j w
    cases hmade : out.made <;> simp [eq_comm]
  constructor
  · intro j w hw
    rw [hruns]
    rcases (hmem j w).mp hw with hw | ⟨rfl, hout⟩
    · obtain ⟨old, hold, hnew⟩ := h.new j w hw
      split_ifs with hkj
      · subst hkj
        obtain rfl := Option.some.inj (hrun.symm.trans hold)
        exact ⟨_, rfl, hnew⟩
      · exact ⟨old, hold, hnew⟩
    · exact ⟨_, if_pos rfl, (hmade w hout).1⟩
  · intro j w hw
    rcases (hmem j w).mp hw with hw | ⟨rfl, hout⟩
    · exact le_trans (h.clock j w hw) hgoes.clock_le
    · exact le_of_eq (hmade w hout).2
  · intro j run' w hrun' hcurrent
    rw [hruns] at hrun'
    split_ifs at hrun' with hkj
    · subst hkj
      obtain rfl := Option.some.inj hrun'
      exact h.current_task hrun hgoes hcurrent
    · -- another task makes nothing
      have hother : ∀ g, (j, g) ∈ s.created ++ (out.made.map fun w => (k, w)).toList ↔
          (j, g) ∈ s.created := fun g =>
        (hmem j g).trans (or_iff_left fun hout => hkj hout.1.symm)
      obtain ⟨⟨g, hg, hsame⟩, hle⟩ := h.current j run' w hrun' hcurrent
      exact ⟨⟨g, (hother g).mpr hg, hsame⟩, fun g hg => hle g ((hother g).mp hg)⟩
  · intro j run' hrun' hopening w hw
    rw [hruns] at hrun'
    split_ifs at hrun' with hkj
    · obtain rfl := Option.some.inj hrun'
      exact hgoes.phase_ne hopening
    · rcases (hmem j w).mp hw with hw | ⟨rfl, -⟩
      · exact h.opening j run' hrun' hopening w hw
      · exact hkj rfl

theorem Made.step {date : ℕ → ℕ × ℕ × ℕ} {s s' : Recorder} {e : RecorderStep} (h : Made date s)
    (hs : s.step date e = some s') : Made date s' := by
  cases goes_of_step hs with
  | refuseCheck => exact h
  | refuseStop => exact h
  | check => exact ⟨h.new, h.clock, h.current, h.opening⟩
  | insert => exact ⟨h.new, h.clock, h.current, h.opening⟩
  | @spawn call now req tracks hcall hclock =>
    have hruns := getElem?_concat_run s.runs ⟨s.config.newTask req tracks now, false, .opening⟩
    have hknown : ∀ {j w}, (j, w) ∈ s.created → j ≠ s.runs.length := by
      rintro j w hw rfl
      obtain ⟨run, hrun, -⟩ := h.new _ w hw
      exact Nat.lt_irrefl _ (List.getElem?_eq_some_iff.mp hrun).1
    constructor
    · intro j w hw
      rw [hruns, if_neg (hknown hw)]
      exact h.new j w hw
    · exact fun j w hw => le_trans (h.clock j w hw) hclock
    · intro j run w hrun hcurrent
      rw [hruns] at hrun
      split_ifs at hrun with hj
      · obtain rfl := Option.some.inj hrun
        cases hcurrent
      · exact h.current j run w hrun hcurrent
    · intro j run hrun hopening w hw
      rw [hruns, if_neg (hknown hw)] at hrun
      exact h.opening j run hrun hopening w hw
  | @stop streamId k hactive =>
    have hruns := getElem?_tell_run s.runs k
    constructor
    · intro j w hw
      obtain ⟨run, hrun, hnew⟩ := h.new j w hw
      refine ⟨{ run with told := run.told || k = j }, ?_, hnew⟩
      rw [hruns, hrun]
      rfl
    · exact h.clock
    · intro j run w hrun hcurrent
      rw [hruns] at hrun
      obtain ⟨old, hold, rfl⟩ := Option.map_eq_some_iff.mp hrun
      exact h.current j old w hold hcurrent
    · intro j run hrun hopening w hw
      rw [hruns] at hrun
      obtain ⟨old, hold, rfl⟩ := Option.map_eq_some_iff.mp hrun
      exact h.opening j old hold hopening w hw
  | task hrun hgoes => exact h.task hrun hgoes

/-! ## Runs -/

/-- What a task makes is in a place of its own exactly if it is made later than what has the same
name. -/
theorem Made.makesLater_iff {date : ℕ → ℕ × ℕ × ℕ} {s : Recorder} {k now flushed : ℕ}
    {run : RecordRun} {w : SegmentWriter} {listed : Bool} (h : Made date s)
    (hrun : s.runs[k]? = some run) (hopens : run.phase.opens = some listed) (hclock : s.clock ≤ now)
    (hnew : SegmentWriter.new date run.task now = some w) :
    (∀ g ∈ s.created, g.2.id ≠ w.id ∧ normalise g.2.path ≠ normalise w.path) ↔
      s.MakesLater (.task k (.create now flushed)) := by
  obtain ⟨-, -, hsession, hnow, -⟩ := SegmentWriter.new_eq_some hnew
  -- ids that differ are enough, and a segment of the session differs in the reading
  have hapart : ∀ j g, (j, g) ∈ s.created → ((g.id ≠ w.id ∧ normalise g.path ≠ normalise w.path) ↔
      (g.sessionId = run.task.sessionId → g.startedAtMs ≠ now)) := by
    intro j g hg
    obtain ⟨old, -, hold⟩ := h.new j g hg
    have hid := SegmentWriter.id_eq_iff hold hnew
    rw [hsession, hnow] at hid
    rw [and_iff_left_of_imp (SegmentWriter.place_ne hold hnew), Ne, hid, not_and]
  constructor
  · rintro hall _ run' ⟨⟩ hrun'
    obtain rfl := Option.some.inj (hrun.symm.trans hrun')
    refine ⟨fun c hc => ?_, fun j g hg _ => (hapart j g hg).mp (hall _ hg)⟩
    obtain ⟨⟨g, hg, hsame⟩, -⟩ := h.current k run c hrun hc
    obtain ⟨old, hold, hmade⟩ := h.new k g hg
    obtain rfl := Option.some.inj (hrun.symm.trans hold)
    obtain ⟨-, -, hsession', -, -⟩ := SegmentWriter.new_eq_some hmade
    rw [hsame.startedAtMs]
    exact (hapart k g hg).mp (hall _ hg) hsession'
  · rintro hlater ⟨j, g⟩ hg
    obtain ⟨hown, hothers⟩ := hlater now run rfl hrun
    refine (hapart j g hg).mpr fun hsession' => ?_
    by_cases hj : j = k
    · subst hj
      cases hphase : run.phase with
      | opening => exact absurd hg (h.opening j run hrun hphase g)
      | renewing c resync =>
        -- the segment in front is the last one, and it is not of this millisecond
        have hcurrent : run.phase.current = some c := hphase ▸ rfl
        obtain ⟨⟨g', hg', hsame⟩, hle⟩ := h.current j run c hrun hcurrent
        have hlast : c.startedAtMs ≤ s.clock := hsame.startedAtMs ▸ h.clock j g' hg'
        have hne := hown c hcurrent
        have hgc := hle g hg
        omega
      | writing c =>
        rw [hphase] at hopens
        cases hopens
      | ended =>
        rw [hphase] at hopens
        cases hopens
    · exact hothers j g hg hj hsession'

theorem Made.neverOverwrites_step {date : ℕ → ℕ × ℕ × ℕ} {s s' : Recorder} {e : RecorderStep}
    (h : Made date s) (hs : s.step date e = some s') :
    s'.NeverOverwrites ↔ s.NeverOverwrites ∧ s.MakesLater e := by
  cases goes_of_step hs with
  | @task k event run out hrun hgoes =>
    cases hmade : out.made with
    | none =>
      have hlater : s.MakesLater (.task k event) := fun now run' hnow => by
        rw [hgoes.creates hmade] at hnow
        cases hnow
      simp [NeverOverwrites, hlater]
    | some w =>
      cases hgoes with
      | create hopens hclock hnew hsame =>
        obtain rfl := Option.some.inj hmade
        rw [← h.makesLater_iff hrun hopens hclock hnew]
        exact List.pairwise_append.trans (by simp [NeverOverwrites])
      | _ => cases hmade
  | _ => exact (and_iff_left trivial).symm

theorem made_new (date : ℕ → ℕ × ℕ × ℕ) (config : RecordConfig) : Made date (new config) where
  new := fun k w hw => absurd hw List.not_mem_nil
  clock := fun k w hw => absurd hw List.not_mem_nil
  current := fun k run w hrun => by cases hrun
  opening := fun k run hrun _ w => List.not_mem_nil

theorem Made.neverOverwrites_run {date : ℕ → ℕ × ℕ × ℕ} {s r : Recorder} {run : List RecorderStep}
    (h : Made date s) (hr : exec (Recorder.step date) s run = some r) :
    r.NeverOverwrites ↔ s.NeverOverwrites ∧ Always (Recorder.step date) MakesLater s run := by
  induction run generalizing s with
  | nil =>
    obtain rfl := Option.some.inj hr
    exact (and_iff_left (always_nil s)).symm
  | cons e run ih =>
    obtain ⟨s', hs, hrest⟩ := exec_cons_eq_some.mp hr
    have halways : Always (Recorder.step date) MakesLater s (e :: run) ↔
        s.MakesLater e ∧ Always (Recorder.step date) MakesLater s' run :=
      ⟨fun hall => ⟨hall.1, hall.2 s' hs⟩, fun hall => always_cons_of_step hall.1 hs hall.2⟩
    rw [ih (h.step hs) hrest, h.neverOverwrites_step hs, halways, and_assoc]

/-- **No segment overwrites another one** exactly if each of them is made in a later millisecond
than the one of its task before it, and than those of other sessions with the same id. -/
theorem neverOverwrites_iff {date : ℕ → ℕ × ℕ × ℕ} {config : RecordConfig} {run : List RecorderStep}
    {s : Recorder} (h : exec (step date) (new config) run = some s) :
    s.NeverOverwrites ↔ Always (step date) MakesLater (new config) run :=
  ((made_new date config).neverOverwrites_run h).trans (and_iff_right .nil)

/-- Recording is on, in segments of a minute. -/
abbrev minutely : RecordConfig := ⟨true, "./records".toList, 60, true⟩

/-- A session of `cam` is started, up to its task. -/
abbrev startCam (now : ℕ) : List RecorderStep :=
  [.check (StreamManager.new.createStream "cam" .push .rtmp none).1 ⟨"cam", none, none⟩,
    .spawn 0 now, .insert 0]

/-- A resync a millisecond after the segment was made. -/
theorem neverOverwrites_later : ∃ s,
    exec (step fun _ => (2025, 1, 1)) (new minutely)
      (startCam 5 ++ [.task 0 (.create 7 7), .task 0 .resync, .task 0 (.create 8 8)]) = some s ∧
    (s.NeverOverwrites ↔ Always (step fun _ => (2025, 1, 1)) MakesLater (new minutely)
      (startCam 5 ++ [.task 0 (.create 7 7), .task 0 .resync, .task 0 (.create 8 8)])) :=
  ⟨_, rfl, neverOverwrites_iff rfl⟩

/-- A resync **in the millisecond** in which the segment was made: the file is made again, and is
empty. -/
theorem not_neverOverwrites_resync : ∃ s,
    exec (step fun _ => (2025, 1, 1)) (new minutely)
      (startCam 5 ++ [.task 0 (.create 7 7), .task 0 .resync, .task 0 (.create 7 7)]) = some s ∧
    ¬ s.NeverOverwrites := by
  refine ⟨_, rfl, fun h => ?_⟩
  obtain ⟨hfirst, -⟩ := List.pairwise_cons.mp h
  exact (hfirst _ (List.mem_singleton_self _)).1 rfl

end Recorder

end VcpMediaServer
