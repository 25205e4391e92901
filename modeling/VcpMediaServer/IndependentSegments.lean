import VcpMediaServer.HlsLoop

/-!
# Independent segments

The playlist declares that a segment can be decoded without those before it: its first video frame
has to be a key frame. A split sees to that, and a session that is not primed. A recovery does not:
**the session stays primed**, so the next segment is opened by whatever frame comes.

* `Independent` — the completed segments begin with a key frame.
* `KeyAfterRecovery` — the condition: so does what is muxed after a recovery.
* `independent_run` — in every run that meets the condition, all segments are independent.
-/

namespace VcpMediaServer

open Lts Mealy

/-- The first video frame is a key frame, if there is one. -/
def LeadsWithKey (frames : List MediaFrame) : Prop :=
  ∀ f ∈ frames.find? fun f => f.codec.isVideo, isHlsVideoKeyframe f

instance (frames : List MediaFrame) : Decidable (LeadsWithKey frames) :=
  inferInstanceAs (Decidable (∀ f ∈ frames.find? fun f => f.codec.isVideo, isHlsVideoKeyframe f))

theorem leadsWithKey_nil : LeadsWithKey [] := by simp [LeadsWithKey]

theorem leadsWithKey_singleton {frame : MediaFrame} (h : isHlsVideoKeyframe frame) :
    LeadsWithKey [frame] := by
  simp [LeadsWithKey, h]

/-- Only the first video frame counts. -/
theorem LeadsWithKey.append {frames : List MediaFrame} {frame : MediaFrame}
    (h : LeadsWithKey frames) (hframe : (∀ f ∈ frames, ¬f.codec.isVideo) → frame.codec.isVideo →
    isHlsVideoKeyframe frame) :
    LeadsWithKey (frames ++ [frame]) := by
  intro f hf
  rw [List.find?_append] at hf
  cases hfirst : frames.find? fun f => f.codec.isVideo with
  | some g =>
    rw [hfirst] at hf
    obtain rfl := Option.some.inj hf
    exact h g hfirst
  | none =>
    rw [hfirst, Option.none_or] at hf
    have hnone : ∀ f ∈ frames, ¬f.codec.isVideo := List.find?_eq_none.mp hfirst
    have hvideo := List.find?_some hf
    obtain rfl := List.mem_singleton.mp (List.mem_of_find?_eq_some hf)
    exact hframe hnone hvideo

variable {F : Type} [F64 F]

/-- A completed segment contains the frames: its bytes are tables, and what `frame_to_ts` makes of
these, one after the other. -/
def Contains (c : CompletedSegment F) (frames : List MediaFrame) : Prop :=
  ∃ (p : Part) (state : MuxTimeline × TsMuxer),
    Completes c p ∧ IsPatPmt p.header ∧ p.muxed = (trace muxStep state frames).flatten

namespace HlsLoop

/-- A step leaves only segments that contain their frames, the first video frame a key frame. -/
def Independent (s : HlsLoop F) (l : HlsLoopStep) : Prop :=
  ∀ s' ∈ s.step l, ∀ segment ∈ s'.completed, Contains segment.1 segment.2 ∧ LeadsWithKey segment.2

/-- The condition on a step: where a primed session has muxed no video since it recovered, the video
frame that it is given is a key frame. -/
def KeyAfterRecovery (s : HlsLoop F) : HlsLoopStep → Prop
  | .mux env =>
    match s.phase with
    | .muxing (f :: _) =>
      ∀ frame ∈ given env f, s.session.primed → (∀ f ∈ s.inSegment, ¬f.codec.isVideo) →
        frame.codec.isVideo → isHlsVideoKeyframe frame
    | _ => True
  | _ => True

/-- What holds of the segments between two steps. -/
structure Segmented (s : HlsLoop F) : Prop where
  /-- Those that are completed are independent. -/
  completed : ∀ segment ∈ s.completed, Contains segment.1 segment.2 ∧ LeadsWithKey segment.2
  /-- The frames of the open one are known, and have been muxed one after the other. -/
  opened : ∃ opened state, Opens s.session opened ∧
    OnStream s.session (final muxStep state s.inSegment) ∧
    opened.toList.flatMap Part.muxed = (trace muxStep state s.inSegment).flatten
  /-- It begins with a key frame as well. -/
  leads : LeadsWithKey s.inSegment

variable {s s' : HlsLoop F} {l : HlsLoopStep}

theorem Segmented.init (stream : Stream) (segmentDuration : F) (maxSegments : ℕ) :
    (HlsLoop.init stream segmentDuration maxSegments).Segmented where
  completed := by simp [HlsLoop.init]
  opened := ⟨none, _, ⟨rfl, rfl⟩, .refl _, rfl⟩
  leads := leadsWithKey_nil

omit [F64 F] in
theorem Segmented.congr [F64 F] (hs : s.Segmented) (h : SameSegments s' s) : s'.Segmented where
  completed := by
    rw [h.completed]
    exact hs.completed
  opened := by
    rw [h.session, h.inSegment]
    exact hs.opened
  leads := by
    rw [h.inSegment]
    exact hs.leads

/-- A recovery leaves no segment open. -/
theorem Segmented.recover (hs : s.Segmented) (n : ℕ) : (HlsLoop.recover^[n] s).Segmented := by
  induction n generalizing s with
  | zero => exact hs
  | succ n ih =>
    obtain ⟨-, state, -, hon, -⟩ := hs.opened
    have hnext : s.recover.Segmented :=
      ⟨hs.completed, ⟨none, _, ⟨rfl, rfl⟩, ⟨hon.timeline, hon.media⟩, rfl⟩, leadsWithKey_nil⟩
    exact ih hnext

/-- A frame is given to the session. -/
theorem Segmented.onFrame (hs : s.Segmented) {frame : MediaFrame} (env : FrameEnv)
    (hkey : s.session.primed → (∀ f ∈ s.inSegment, ¬f.codec.isVideo) → frame.codec.isVideo →
      isHlsVideoKeyframe frame) :
    (s.onFrame env frame).Segmented := by
  obtain ⟨opened, state, hopens, hon, hframes⟩ := hs.opened
  by_cases haccepts : s.session.accepts frame
  · obtain ⟨closed, next, hnext, hcut, hopened, hcompleted⟩ :=
      opens_onFrame hopens hon haccepts env.now
    rcases hcall : s.session.onFrame env.now frame with ⟨session, _ | c⟩
    -- no segment is completed: the frame is added to the open one
    · rw [hcall] at hopened hcompleted hnext
      obtain rfl := List.forall₂_nil_left_iff.mp hcompleted
      have hmuxed := hcut.muxed
      rw [hframes] at hmuxed
      rw [onFrame_of_none hcall, if_pos haccepts]
      refine ⟨hs.completed, ⟨some next, state, hopened, ?_, ?_⟩, hs.leads.append fun hnone hvideo =>
        ?_⟩
      · rw [final_append]
        exact hnext
      · rw [trace_append, List.flatten_append]
        exact hmuxed
      · rcases Bool.or_eq_true_iff.mp (Bool.and_eq_true_iff.mp haccepts).2 with hprimed | hframe
        · exact hkey hprimed hnone hvideo
        · exact hframe
    -- the segment that is completed is the one that was open; the frame is a key frame
    · rw [hcall] at hopened hcompleted hnext
      obtain ⟨p, rest, hc, hnil, rfl⟩ := List.forall₂_cons_left_iff.mp hcompleted
      obtain rfl := List.forall₂_nil_left_iff.mp hnil
      rw [onFrame_of_some hcall]
      cases hcut with
      | split _ next hfresh hframe =>
        have hcontains : Contains c s.inSegment := by
          have htables : IsPatPmt p.header := Opened.header hopens
          exact ⟨p, state, hc, htables, by simpa using hframes⟩
        have hsame : SameSegment (commit session c env.written) session := by
          rw [commit]
          split <;> exact ⟨rfl, rfl, rfl, rfl, rfl⟩
        refine ⟨?_, ⟨some _, final muxStep state s.inSegment, hopened.congr hsame,
          hnext.congr hsame, ?_⟩, leadsWithKey_singleton hframe⟩
        · intro segment hsegment
          rcases List.mem_append.mp hsegment with hsegment | hsegment
          · exact hs.completed segment hsegment
          · obtain rfl := List.mem_singleton.mp hsegment
            exact ⟨hcontains, hs.leads⟩
        · rw [Option.toList_some, List.flatMap_singleton, Part.add, hfresh.muxed]
          rfl
  · obtain ⟨n, hcall⟩ := HlsSession.onFrame_of_not_accepts haccepts env.now
    rw [onFrame_of_none hcall, if_neg haccepts]
    have hsame : SameSegment { s.session with sessionAudioFrames := n } s.session :=
      ⟨rfl, rfl, rfl, rfl, rfl⟩
    exact ⟨hs.completed, ⟨opened, state, hopens.congr hsame, hon.congr hsame, hframes⟩, hs.leads⟩

/-- **Every step** that meets the condition keeps the segments independent. -/
theorem Segmented.step (hs : s.Segmented) (hkey : s.KeyAfterRecovery l) (h : s.step l = some s') :
    s'.Segmented := by
  rcases step_cases h with ⟨n, hsame⟩ | ⟨env, frame, ⟨rfl, f, rest, hphase, hgiven⟩, hsame⟩
  · exact (hs.recover n).congr hsame
  · rw [KeyAfterRecovery, hphase] at hkey
    exact (hs.onFrame env (hkey frame hgiven)).congr hsame

/-- In every run in which the first video that a primed session muxes after a recovery is a key
frame, **every** completed segment begins with a key frame. -/
theorem independent_run (stream : Stream) (segmentDuration : F) (maxSegments : ℕ)
    {ls : List HlsLoopStep}
    (hkey : Always step KeyAfterRecovery (HlsLoop.init stream segmentDuration maxSegments) ls) :
    Always step Independent (HlsLoop.init stream segmentDuration maxSegments) ls := by
  refine always_of_inv (I := Segmented) (fun s l hs hkey s' h => ?_)
    (fun s l s' hs hkey h => hs.step hkey h)
    (Segmented.init stream segmentDuration maxSegments) hkey
  exact (hs.step hkey h).completed

instance : (s : HlsLoop F) → (l : HlsLoopStep) → Decidable (s.KeyAfterRecovery l)
  | s, .mux env =>
    match h : s.phase with
    | .muxing (f :: _) =>
      decidable_of_iff (∀ frame ∈ given env f, s.session.primed →
        (∀ f ∈ s.inSegment, ¬f.codec.isVideo) →
        frame.codec.isVideo → isHlsVideoKeyframe frame) (by rw [KeyAfterRecovery, h])
    | .muxing [] | .unsubscribed | .subscribed | .receiving _ =>
      .isTrue (by rw [KeyAfterRecovery, h]; trivial)
  | _, .publish _ | _, .reset | _, .subscribe | _, .finishPrime | _, .check | _, .recv | _, .wake =>
    .isTrue trivial

/-- A frame of a publisher that counts milliseconds. -/
def videoAt (ms : UInt64) (isKeyframe : Bool) : MediaFrame :=
  (MediaFrame.new "live" 0 ms [if isKeyframe then 0x65 else 0x41, 1] isKeyframe .h264).withClockRate
    1000

/-- A key frame is muxed, and 32 frames come before the next check, the last of them a key frame:
the session recovers to it, and 440 ms later another key frame completes the segment. -/
def recovered : List HlsLoopStep :=
  [.publish (videoAt 1000 true), .subscribe, .finishPrime, .check, .recv, .mux testEnv] ++
    List.replicate 31 (.publish (videoAt 1100 false)) ++
    [.publish (videoAt 2000 true), .check, .recv, .mux testEnv,
      .publish (videoAt 2400 false), .check, .recv, .mux testEnv,
      .publish (videoAt 2440 true), .check, .recv, .mux testEnv]

/-- A key frame is muxed, the publisher is another, and joins in the middle of a GOP: the first
frames that are muxed of it are the one that was the latest at the check, and a key frame. -/
def rejoined : List HlsLoopStep :=
  [.publish (videoAt 1000 true), .subscribe, .finishPrime, .check, .recv, .mux testEnv, .reset] ++
    List.replicate 33 (.publish (videoAt 2000 false)) ++
    [.check, .recv, .mux testEnv, .publish (videoAt 2400 true), .check, .recv, .mux testEnv]

theorem independent_recovered :
    Always step KeyAfterRecovery testLoop recovered ∧ Always step Independent testLoop recovered ∧
      (exec step testLoop recovered).map (fun s => s.events) =
        some [.discarded, .committed 0 true] ∧
      (exec step testLoop recovered).map (fun s => s.completed.map Prod.snd) =
        some [[videoAt 2000 true, videoAt 2400 false]] := by
  have hkey : Always step KeyAfterRecovery testLoop recovered := by decide +kernel
  exact ⟨hkey,
    independent_run (StreamHub.new "live").stream 1 5 hkey, by decide +kernel, by decide +kernel⟩

/-- The segment that the last step completes has one frame, and this is **no key frame**. -/
theorem not_independent_rejoined : ¬Always step Independent testLoop rejoined := by
  intro h
  have hframes : (exec step testLoop rejoined).map (fun s => s.completed.map Prod.snd) =
      some [[videoAt 2000 false]] := by decide +kernel
  obtain ⟨s', hs', hcompleted⟩ := Option.map_eq_some_iff.mp hframes
  obtain ⟨segment, hsegment, hframe⟩ := List.map_eq_singleton_iff.mp hcompleted
  have hlast : rejoined = rejoined.dropLast ++ [.mux testEnv] := by rfl
  rw [hlast] at hs' h
  obtain ⟨s, hs, hstep⟩ := exec_concat.mp hs'
  have hindependent :=
    always_iff.mp h _ _ (List.prefix_refl _) s hs s' hstep segment (by simp [hsegment])
  rw [hframe] at hindependent
  exact absurd hindependent.2 (by decide +kernel)

end HlsLoop

end VcpMediaServer
