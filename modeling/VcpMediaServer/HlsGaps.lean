import VcpMediaServer.IndependentSegments

/-!
# Gaps between segments

A segment that comes behind a gap carries the discontinuity flag. A recovery raises the flag, and
the next segment that is closed takes it. A segment that **could not be written** is a gap too, but
raises nothing.

* `Flagged` — every gap between two segments in the playlist is flagged.
* `ListsCommits` — the playlist is the end of what was committed, in consecutive numbers.
* `WrittenAgain` — the condition: no segment is committed right behind one that could not be
  written.
* `gaps_iff` — along every run, the gaps are flagged exactly if the condition is met.
-/

namespace VcpMediaServer

open Lts

/-! ## Histories -/

/-- The number and the flag of a segment that is committed. -/
def SegmentEvent.commit? : SegmentEvent → Option (ℕ × Bool)
  | .committed sequence discontinuity => some (sequence, discontinuity)
  | .failed => none
  | .discarded => none

/-- The segments that were committed. -/
def commits (events : List SegmentEvent) : List (ℕ × Bool) := events.filterMap SegmentEvent.commit?

/-- Media is missing at the end: a segment was committed, and it is not what happened last. -/
def Missing (events : List SegmentEvent) : Prop :=
  commits events ≠ [] ∧ ∃ e, events.getLast? = some e ∧ e.commit? = none

/-- A segment that is committed behind missing media is flagged. -/
def Flagged (events : List SegmentEvent) : Prop :=
  ∀ before sequence discontinuity after, events =
    before ++ .committed sequence discontinuity :: after →
    Missing before → discontinuity = true

theorem flagged_nil : Flagged [] := by
  intro before sequence discontinuity after h
  simp at h

/-- One more event. -/
theorem flagged_concat {events : List SegmentEvent} {e : SegmentEvent} :
    Flagged (events ++ [e]) ↔
      Flagged events ∧ ∀ sequence discontinuity, e = .committed sequence discontinuity →
        Missing events → discontinuity = true := by
  constructor
  · intro h
    refine ⟨fun before sequence discontinuity after heq => ?_, fun sequence discontinuity heq => ?_⟩
    · exact h before sequence discontinuity (after ++ [e])
        (by rw [heq, List.append_assoc, List.cons_append])
    · exact h events sequence discontinuity [] (by rw [heq])
  · rintro ⟨h, hlast⟩ before sequence discontinuity after heq
    rcases List.eq_nil_or_concat after with rfl | ⟨after, e', rfl⟩
    · obtain ⟨rfl, he⟩ := List.append_inj' heq rfl
      exact hlast sequence discontinuity (List.singleton_injective he)
    · rw [List.concat_eq_append, ← List.cons_append, ← List.append_assoc] at heq
      obtain ⟨rfl, -⟩ := List.append_inj' heq rfl
      exact h before sequence discontinuity after rfl

/-! ## The playlist -/

variable {F : Type}

/-- A playlist is the end of what was committed, in consecutive numbers. -/
structure ListsCommits (playlist : M3u8Generator F) (events : List SegmentEvent) : Prop where
  /-- The segments that were committed are numbered from 0 on, without a gap. -/
  numbers : (commits events).map Prod.fst = List.range playlist.nextSequence
  /-- Those in front of the window are left out. -/
  window : playlist.segments.map (fun segment => (segment.sequence, segment.discontinuity)) =
    (commits events).drop playlist.mediaSequence
  /-- No more than all. -/
  le : playlist.mediaSequence ≤ playlist.nextSequence

namespace ListsCommits

variable {playlist : M3u8Generator F} {events : List SegmentEvent}

theorem length_commits (h : ListsCommits playlist events) :
    (commits events).length = playlist.nextSequence := by
  have hlen := congrArg List.length h.numbers
  rwa [List.length_map, List.length_range] at hlen

theorem length_segments (h : ListsCommits playlist events) :
    playlist.segments.length = playlist.nextSequence - playlist.mediaSequence := by
  have hlen := congrArg List.length h.window
  rwa [List.length_map, List.length_drop, h.length_commits] at hlen

/-- The numbers in the playlist are **consecutive**. -/
theorem consecutive (h : ListsCommits playlist events) :
    playlist.segments.map Segment.sequence =
      List.range' playlist.mediaSequence playlist.segments.length := by
  have hnumbers := congrArg (List.map Prod.fst) h.window
  rw [List.map_map, List.map_drop, h.numbers, List.range_eq_range', List.drop_range', Nat.zero_add,
    Nat.mul_one, ← h.length_segments] at hnumbers
  exact hnumbers

/-- A segment is put into the playlist. -/
theorem addSegment (h : ListsCommits playlist events) (duration : F) (programDateTime : ℤ)
    (discontinuity : Bool) :
    ListsCommits (playlist.addSegment duration playlist.nextSequence programDateTime discontinuity)
      (events ++ [.committed playlist.nextSequence discontinuity]) := by
  have hcommits : commits (events ++ [.committed playlist.nextSequence discontinuity]) =
      commits events ++ [(playlist.nextSequence, discontinuity)] := List.filterMap_append
  have hlen := h.length_segments
  have hle := h.le
  have hshrink := M3u8Generator.shrink_eq playlist.maxSegments
    (playlist.segments ++ [{
      sequence := playlist.nextSequence
      duration
      filename := M3u8Generator.segmentFilename playlist.nextSequence
      programDateTime
      discontinuity }]) playlist.mediaSequence playlist.discontinuitySequence
  rw [List.length_append, List.length_singleton] at hshrink
  obtain ⟨n, hn⟩ : ∃ n, n = playlist.segments.length + 1 - playlist.maxSegments := ⟨_, rfl⟩
  rw [← hn] at hshrink
  simp only [M3u8Generator.addSegment, hshrink]
  refine ⟨?_, ?_, ?_⟩
  · rw [hcommits, List.map_append, h.numbers, List.range_succ]
    rfl
  · have hmedia : playlist.mediaSequence ≤ (commits events).length := by
      rw [h.length_commits]
      exact hle
    rw [List.map_drop, List.map_append, h.window, hcommits, ← List.drop_append_of_le_length hmedia,
      List.drop_drop]
    rfl
  · change playlist.mediaSequence + n ≤ playlist.nextSequence + 1
    omega

/-- Nothing is. -/
theorem concat (h : ListsCommits playlist events) {e : SegmentEvent} (he : e.commit? = none) :
    ListsCommits playlist (events ++ [e]) := by
  have hcommits : commits (events ++ [e]) = commits events := by
    rw [commits, List.filterMap_append, List.filterMap_cons_none he, List.filterMap_nil,
      List.append_nil]
    rfl
  exact ⟨hcommits ▸ h.numbers, hcommits ▸ h.window, h.le⟩

end ListsCommits

/-! ## What a frame does -/

namespace HlsSession

variable [F64 F] {s s' : HlsSession F} {frame : MediaFrame}

/-- The same playlist, and the same flag for the next segment. -/
structure SamePlaylist (s' s : HlsSession F) : Prop where
  playlist : s'.playlist = s.playlist
  pending : s'.pendingDiscontinuity = s.pendingDiscontinuity

theorem samePlaylist_ready (s : HlsSession F) (frame : MediaFrame) :
    SamePlaylist (s.ready frame) s := by
  have htrack : ∀ t : HlsSession F, SamePlaylist (t.trackDuration frame) t := by
    intro t
    rw [trackDuration]
    split <;> exact ⟨rfl, rfl⟩
  have hopen : ∀ t : HlsSession F, SamePlaylist (t.openSegment frame) t := by
    intro t
    rw [openSegment]
    split <;> exact ⟨rfl, rfl⟩
  have hcount : SamePlaylist (s.countAudio frame) s := by
    rw [countAudio]
    split <;> exact ⟨rfl, rfl⟩
  refine ⟨?_, ?_⟩
  · rw [ready, (htrack _).playlist, (hopen _).playlist]
    exact hcount.playlist
  · rw [ready, (htrack _).pending, (hopen _).pending]
    exact hcount.pending

/-- A frame that closes no segment leaves the flag. -/
theorem samePlaylist_onFrame {now : ℤ} (h : s.onFrame now frame = (s', none)) :
    SamePlaylist s' s := by
  by_cases haccepts : s.accepts frame
  · rw [onFrame_of_accepts haccepts] at h
    have hready := samePlaylist_ready s frame
    split at h
    · cases h
    · obtain ⟨rfl, -⟩ := Prod.mk.inj h
      rw [muxFrame_eq]
      exact ⟨hready.playlist, hready.pending⟩
  · obtain ⟨n, hcall⟩ := onFrame_of_not_accepts haccepts now
    rw [hcall] at h
    obtain ⟨rfl, -⟩ := Prod.mk.inj h
    exact ⟨rfl, rfl⟩

/-- The segment that is closed in front of a frame. -/
structure Closed (s : HlsSession F) (frame : MediaFrame) (s' : HlsSession F)
    (c : CompletedSegment F) :
    Prop where
  accepts : s.accepts frame
  splits : (s.ready frame).splits frame
  seq : c.seq = s.playlist.nextSequence
  discontinuity : c.discontinuity = s.pendingDiscontinuity
  playlist : s'.playlist = s.playlist
  pending : s'.pendingDiscontinuity = false

/-- It takes the next number, and **takes the flag away**. -/
theorem closed_onFrame {now : ℤ} {c : CompletedSegment F} (h : s.onFrame now frame = (s', some c)) :
    Closed s frame s' c := by
  by_cases haccepts : s.accepts frame
  · rw [onFrame_of_accepts haccepts] at h
    have hready := samePlaylist_ready s frame
    split at h
    · next hsplits =>
      have hvideo := isVideo_of_isHlsVideoKeyframe (isHlsVideoKeyframe_of_splits hsplits)
      obtain ⟨rfl, hc⟩ := Prod.mk.inj h
      obtain rfl := Option.some.inj hc
      rw [muxSplitKeyframe_eq_muxFrame _ hvideo, muxFrame_eq, nextSegment_eq]
      exact ⟨haccepts, hsplits, congrArg M3u8Generator.nextSequence hready.playlist, hready.pending,
        hready.playlist, rfl⟩
    · cases h
  · obtain ⟨n, hcall⟩ := onFrame_of_not_accepts haccepts now
    rw [hcall] at h
    cases h

end HlsSession

/-! ## Runs -/

namespace HlsLoop

variable [F64 F] {s s' : HlsLoop F} {l : HlsLoopStep}

/-- A step leaves the playlist with what was committed, every gap between two segments flagged. -/
def GapsFlagged (s : HlsLoop F) (l : HlsLoopStep) : Prop :=
  ∀ s' ∈ s.step l, ListsCommits s'.session.playlist s'.events ∧ Flagged s'.events

/-- The frame closes the open segment. -/
def closes (s : HlsLoop F) (frame : MediaFrame) : Bool :=
  s.session.accepts frame && (s.session.ready frame).splits frame

/-- The condition on a step: where a segment was committed before, none is written right behind one
that could not be written. -/
def WrittenAgain (s : HlsLoop F) : HlsLoopStep → Prop
  | .mux env =>
    match s.phase with
    | .muxing (f :: _) =>
      ∀ frame ∈ given env f, s.closes frame → env.written → commits s.events ≠ [] →
        s.events.getLast? ≠ some .failed
    | _ => True
  | _ => True

/-- What holds of the history between two steps. -/
structure Recorded (s : HlsLoop F) : Prop where
  /-- The playlist is the end of it. -/
  listed : ListsCommits s.session.playlist s.events
  /-- The flag is up while what happened last is a recovery. -/
  pending : s.session.pendingDiscontinuity = true ↔ s.events.getLast? = some .discarded
  /-- The gaps are flagged. -/
  flagged : Flagged s.events

theorem Recorded.init (stream : Stream) (segmentDuration : F) (maxSegments : ℕ) :
    (HlsLoop.init stream segmentDuration maxSegments).Recorded where
  listed := ⟨rfl, rfl, le_rfl⟩
  pending := by simp [HlsLoop.init, HlsSession.new]
  flagged := flagged_nil

omit [F64 F] in
theorem Recorded.congr [F64 F] (hs : s.Recorded) (h : SameSegments s' s) : s'.Recorded where
  listed := by
    rw [h.session, h.events]
    exact hs.listed
  pending := by
    rw [h.session, h.events]
    exact hs.pending
  flagged := by
    rw [h.events]
    exact hs.flagged

/-- A recovery raises the flag. -/
theorem Recorded.recover (hs : s.Recorded) (n : ℕ) : (HlsLoop.recover^[n] s).Recorded := by
  induction n generalizing s with
  | zero => exact hs
  | succ n ih =>
    have hflagged : Flagged (s.events ++ [.discarded]) := flagged_concat.mpr ⟨hs.flagged, nofun⟩
    have hpending : s.recover.session.pendingDiscontinuity = true ↔
        s.recover.events.getLast? = some .discarded := by
      have hlast : s.recover.events.getLast? = some .discarded := List.getLast?_concat
      exact ⟨fun _ => hlast, fun _ => rfl⟩
    exact ih (s := s.recover) ⟨hs.listed.concat rfl, hpending, hflagged⟩

omit [F64 F] in
/-- Where media is missing, the flag is up, unless a segment could not be written. -/
theorem Recorded.pending_of_missing (hs : s.Recorded) (hmissing : Missing s.events)
    (hwritten : s.events.getLast? ≠ some .failed) : s.session.pendingDiscontinuity = true := by
  obtain ⟨-, e, hlast, he⟩ := hmissing
  cases e with
  | committed => cases he
  | failed => exact absurd hlast hwritten
  | discarded => exact hs.pending.mpr hlast

/-- A frame is given to the session. -/
theorem Recorded.onFrame (hs : s.Recorded) {env : FrameEnv} {frame : MediaFrame}
    (hwritten : s.closes frame → env.written → commits s.events ≠ [] →
      s.events.getLast? ≠ some .failed) :
    (s.onFrame env frame).Recorded := by
  rcases hcall : s.session.onFrame env.now frame with ⟨session, _ | c⟩
  · obtain ⟨hplaylist, hpending⟩ := HlsSession.samePlaylist_onFrame hcall
    rw [onFrame_of_none hcall]
    refine ⟨?_, ?_, hs.flagged⟩
    · rw [hplaylist]
      exact hs.listed
    · rw [hpending]
      exact hs.pending
  · obtain ⟨haccepts, hsplits, hseq, hdiscontinuity, hplaylist, hpending⟩ :=
      HlsSession.closed_onFrame hcall
    have hcloses : s.closes frame := Bool.and_eq_true_iff.mpr ⟨haccepts, hsplits⟩
    rw [onFrame_of_some hcall, commit]
    cases hok : env.written with
    -- the file is not there: the playlist stays, and the flag is gone
    | false =>
      have hlast : (s.events ++ [SegmentEvent.failed]).getLast? ≠ some .discarded := by simp
      refine ⟨?_, ?_, flagged_concat.mpr ⟨hs.flagged, fun _ _ h => SegmentEvent.noConfusion h⟩⟩
      · have hlisted := hs.listed.concat (e := .failed) rfl
        rw [← hplaylist] at hlisted
        exact hlisted
      · change session.pendingDiscontinuity = true ↔
          (s.events ++ [SegmentEvent.failed]).getLast? = _
        rw [hpending]
        exact ⟨fun h => absurd h Bool.false_ne_true, fun h => absurd h hlast⟩
    | true =>
      have hlast : (s.events ++ [SegmentEvent.committed c.seq c.discontinuity]).getLast? ≠
          some .discarded := by
        simp
      refine ⟨?_, ?_, flagged_concat.mpr ⟨hs.flagged, ?_⟩⟩
      · have hlisted := hs.listed.addSegment c.duration c.pdt c.discontinuity
        rw [← hseq, ← hplaylist] at hlisted
        exact hlisted
      · change session.pendingDiscontinuity = true ↔
          (s.events ++ [SegmentEvent.committed c.seq c.discontinuity]).getLast? = _
        rw [hpending]
        exact ⟨fun h => absurd h Bool.false_ne_true, fun h => absurd h hlast⟩
      · rintro sequence discontinuity heq hmissing
        obtain ⟨-, rfl⟩ := SegmentEvent.committed.inj heq
        rw [hdiscontinuity]
        exact hs.pending_of_missing hmissing (hwritten hcloses hok hmissing.1)

/-- **Every step** that meets the condition keeps the gaps flagged. -/
theorem Recorded.step (hs : s.Recorded) (hwritten : s.WrittenAgain l) (h : s.step l = some s') :
    s'.Recorded := by
  rcases step_cases h with ⟨n, hsame⟩ | ⟨env, frame, ⟨rfl, f, rest, hphase, hgiven⟩, hsame⟩
  · exact (hs.recover n).congr hsame
  · rw [WrittenAgain, hphase] at hwritten
    exact (hs.onFrame (hwritten frame hgiven)).congr hsame

/-- A segment that is committed right behind one that could not be written has no flag. -/
theorem Recorded.writtenAgain (hs : s.Recorded) (h : s.GapsFlagged l) : s.WrittenAgain l := by
  cases l with
  | mux env =>
    rw [WrittenAgain]
    split
    · next f rest hphase =>
      intro frame hgiven hcloses hok hcommits hlast
      obtain ⟨haccepts, hsplits⟩ := Bool.and_eq_true_iff.mp hcloses
      have hstep : s.step (.mux env) = some (s.mux env f rest) := by rw [HlsLoop.step, hphase]
      have hflagged := (h _ hstep).2
      rw [(s.sameSegments_mux hgiven rest).events] at hflagged
      rcases hcall : s.session.onFrame env.now frame with ⟨session, _ | c⟩
      · rw [HlsSession.onFrame_of_accepts haccepts, if_pos hsplits] at hcall
        cases hcall
      · have hmissing : Missing s.events := ⟨hcommits, .failed, hlast, rfl⟩
        rw [onFrame_of_some hcall, if_pos hok] at hflagged
        have hflag := (flagged_concat.mp hflagged).2 c.seq c.discontinuity rfl hmissing
        rw [(HlsSession.closed_onFrame hcall).discontinuity, hs.pending, hlast] at hflag
        cases hflag
    · trivial
  | _ => trivial

/-- Along every run, the gaps between the segments of the playlist are flagged **if and only if**
none is committed right behind a segment that could not be written. -/
theorem gaps_iff (stream : Stream) (segmentDuration : F) (maxSegments : ℕ) {ls : List HlsLoopStep} :
    Always step GapsFlagged (HlsLoop.init stream segmentDuration maxSegments) ls ↔
      Always step WrittenAgain (HlsLoop.init stream segmentDuration maxSegments) ls := by
  refine always_iff_of_inv (I := Recorded)
    (fun s l hs => ⟨hs.writtenAgain, fun hwritten s' h => ?_⟩)
    (fun s l s' hs hwritten h => hs.step hwritten h)
    (Recorded.init stream segmentDuration maxSegments)
  exact ⟨(hs.step hwritten h).listed, (hs.step hwritten h).flagged⟩

/-- A key frame comes and is muxed. -/
def keyAt (ms : UInt64) (written : Bool) : List HlsLoopStep :=
  [.publish (videoAt ms true), .check, .recv, .mux { testEnv with written }]

/-- A key frame each half second: every other one closes a segment. The second segment is not
written. -/
def failedWrite : List HlsLoopStep :=
  [.subscribe, .finishPrime] ++ keyAt 1000 true ++ keyAt 1499 true ++ keyAt 1998 true ++
    keyAt 2497 true ++ keyAt 2996 false ++ keyAt 3495 true ++ keyAt 3994 true

/-- The third segment is committed as number 1 behind number 0, **without the flag**. -/
theorem not_gapsFlagged_failedWrite : ¬Always step GapsFlagged testLoop failedWrite := by
  intro h
  have hevents : (exec step testLoop failedWrite).map HlsLoop.events =
      some [.committed 0 false, .failed, .committed 1 false] := by decide +kernel
  obtain ⟨s', hs', hevents⟩ := Option.map_eq_some_iff.mp hevents
  have hlast : failedWrite = failedWrite.dropLast ++ [.mux testEnv] := by rfl
  rw [hlast] at hs' h
  obtain ⟨s, hs, hstep⟩ := exec_concat.mp hs'
  have hflagged := (always_iff.mp h _ _ (List.prefix_refl _) s hs s' hstep).2
  have hmissing : Missing [.committed 0 false, .failed] := ⟨by decide, .failed, rfl, rfl⟩
  exact absurd (hflagged [.committed 0 false, .failed] 1 false [] hevents hmissing) (by decide)

end HlsLoop

end VcpMediaServer
