import Mathlib.Data.List.Forall2
import Mathlib.Data.List.Induction
import VcpMediaServer.HlsSession
import VcpMediaServer.Mealy

/-!
# The segments of a session

What a session has muxed, cut into segments. A `Part` says of what a segment is made: its tables,
and the frames with their mux times and the packets they became. Times and packets are those of a
muxer that **knows of no segments**, and the parts tile its timeline.

* `muxStep` — the stream muxed in one piece.
* `Cut` — what an accepted frame does to the part that is open.
* `opens_onFrame` — a call of `on_frame` cuts so.
* `conserved_run` — every run without recovery has muxed each accepted frame once.
-/

namespace VcpMediaServer

open Mealy

/-! ## The stream in one piece -/

/-- A frame as it is muxed. -/
structure MuxedFrame where
  /-- The frame that was accepted. -/
  frame : MediaFrame
  /-- Its mux time. -/
  ms : UInt64
  /-- What `frame_to_ts` makes of it. -/
  tsData : List UInt8

/-- A frame at its time, and its packets. -/
def muxedFrame (state : MuxTimeline × TsMuxer) (frame : MediaFrame) : MuxedFrame :=
  let muxFrame := (state.1.prepareFrameForMux frame).2
  ⟨frame, muxFrame.timestamp, ((state.2.updatePcr muxFrame.timestamp).frameToTs muxFrame).2⟩

/-- A frame is muxed. -/
def muxStep (state : MuxTimeline × TsMuxer) (frame : MediaFrame) :
    (MuxTimeline × TsMuxer) × List MuxedFrame :=
  let (t, muxFrame) := state.1.prepareFrameForMux frame
  ((t, ((state.2.updatePcr muxFrame.timestamp).frameToTs muxFrame).1), [muxedFrame state frame])

theorem muxStep_eq (t : MuxTimeline) (m : TsMuxer) (frame : MediaFrame) :
    let mux := t.prepareFrameForMux frame
    muxStep (t, m) frame =
      ((mux.1, ((m.updatePcr mux.2.timestamp).frameToTs mux.2).1), [muxedFrame (t, m) frame]) := by
  rw [muxStep]

/-- A session takes a step of the stream in one piece. -/
theorem muxFrame_eq {F : Type} (s : HlsSession F) (frame : MediaFrame) :
    let step := muxStep (s.toMuxTimeline, s.muxer) frame
    let x := muxedFrame (s.toMuxTimeline, s.muxer) frame
    s.muxFrame frame = { s with
      toMuxTimeline := step.1.1
      segmentLastMuxMs := if frame.codec.isVideo then x.ms else s.segmentLastMuxMs
      muxer := step.1.2
      segmentBuffer := s.segmentBuffer ++ x.tsData } := by
  have hcodec : (s.toMuxTimeline.prepareFrameForMux frame).2.codec = frame.codec := rfl
  rw [HlsSession.muxFrame, muxStep_eq, muxedFrame]
  simp only [hcodec]

theorem timeline_muxStep (t : MuxTimeline) (m : TsMuxer) (frame : MediaFrame) :
    (muxStep (t, m) frame).1.1 = (t.muxTimestampMs frame).1 := by
  rw [muxStep_eq]
  rfl

/-- A frame of video is muxed at the time of video from then on, and any other frame leaves that
alone. -/
theorem sessionVideoMuxMs_muxStep (t : MuxTimeline) (m : TsMuxer) (frame : MediaFrame) :
    (muxStep (t, m) frame).1.1.sessionVideoMuxMs =
      if frame.codec.isVideo then (muxedFrame (t, m) frame).ms else t.sessionVideoMuxMs := by
  rw [timeline_muxStep]
  by_cases hvideo : frame.codec.isVideo
  · rw [if_pos hvideo, t.sessionVideoMuxMs_of_isVideo hvideo]
    rfl
  · rw [if_neg hvideo, t.sessionVideoMuxMs_of_not_isVideo hvideo]

/-- Muxers that write media alike: they differ in their tables and their clock at most. -/
structure SameMedia (a b : TsMuxer) : Prop where
  ccVideo : a.ccVideo = b.ccVideo
  ccAudio : a.ccAudio = b.ccAudio

namespace SameMedia

variable {a b c : TsMuxer}

theorem refl (a : TsMuxer) : SameMedia a a := ⟨rfl, rfl⟩

theorem trans (h : SameMedia a b) (h' : SameMedia b c) : SameMedia a c :=
  ⟨h.ccVideo.trans h'.ccVideo, h.ccAudio.trans h'.ccAudio⟩

theorem updatePcr (h : SameMedia a b) (timestamp : UInt64) :
    SameMedia (a.updatePcr timestamp) (b.updatePcr timestamp) where
  ccVideo := by
    rw [TsMuxer.updatePcr_ccVideo, TsMuxer.updatePcr_ccVideo]
    exact h.ccVideo
  ccAudio := by
    rw [TsMuxer.updatePcr_ccAudio, TsMuxer.updatePcr_ccAudio]
    exact h.ccAudio

/-- With the same clock they write the same packets. -/
theorem frameToTs_of_clock (h : SameMedia a b) (hclock : a.pcrClock = b.pcrClock)
    (frame : MediaFrame) :
    SameMedia (a.frameToTs frame).1 (b.frameToTs frame).1 ∧ (a.frameToTs frame).2 =
        (b.frameToTs frame).2 := by
  by_cases hpayload : TsMuxer.framePayload frame = []
  · rw [TsMuxer.frameToTs_of_eq_nil hpayload, TsMuxer.frameToTs_of_eq_nil hpayload]
    exact ⟨h, rfl⟩
  have hcc : a.frameCc frame = b.frameCc frame := by
    rw [TsMuxer.frameCc, TsMuxer.frameCc, h.ccVideo, h.ccAudio]
  rw [TsMuxer.frameToTs_of_ne_nil hpayload, TsMuxer.frameToTs_of_ne_nil hpayload, hcc, hclock]
  generalize pesToTsPackets (TsMuxer.framePes frame)
    (TsMuxer.framePid frame.codec) frame.codec.isVideo
    (b.frameCc frame) b.pcrClock = packets
  cases frame.codec.isVideo with
  | false => exact ⟨⟨h.ccVideo, rfl⟩, rfl⟩
  | true => exact ⟨⟨rfl, h.ccAudio⟩, rfl⟩

/-- Once their clocks are set they write the same packets. -/
theorem frameToTs (h : SameMedia a b) (timestamp : UInt64) (frame : MediaFrame) :
    SameMedia ((a.updatePcr timestamp).frameToTs frame).1
      ((b.updatePcr timestamp).frameToTs frame).1 ∧
      ((a.updatePcr timestamp).frameToTs frame).2 =
          ((b.updatePcr timestamp).frameToTs frame).2 := by
  refine (h.updatePcr timestamp).frameToTs_of_clock ?_ frame
  rw [TsMuxer.updatePcr_pcrClock, TsMuxer.updatePcr_pcrClock]

end SameMedia

theorem sameMedia_generatePatPmt (m : TsMuxer) (hasVideo hasAudio : Bool) :
    SameMedia (m.generatePatPmt hasVideo hasAudio).1 m := by
  rw [TsMuxer.generatePatPmt_eq, TsMuxer.generatePmt_eq, TsMuxer.generatePat_eq]
  exact ⟨rfl, rfl⟩

/-- Packets with a PAT and a PMT. -/
def IsPatPmt (bytes : List UInt8) : Prop :=
  ∃ m hasAudio, bytes = (TsMuxer.generatePatPmt m true hasAudio).2

/-! ## Parts -/

/-- Of what a segment is made. -/
structure Part where
  /-- Its tables. -/
  header : List UInt8
  /-- Its frames. -/
  muxed : List MuxedFrame
  /-- The mux time of video when it was opened. -/
  openMs : UInt64

namespace Part

/-- The bytes of the segment. -/
def data (p : Part) : List UInt8 := p.header ++ p.muxed.flatMap MuxedFrame.tsData

/-- The mux time of its last video frame; without one, that of its opening. -/
def lastMs (p : Part) : UInt64 :=
  ((p.muxed.reverse.find? fun x => x.frame.codec.isVideo).map MuxedFrame.ms).getD p.openMs

/-- A part with one more frame. -/
def add (p : Part) (x : MuxedFrame) : Part := { p with muxed := p.muxed ++ [x] }

/-- A part that is just opened, when video is at `ms`. -/
structure Fresh (p : Part) (ms : UInt64) : Prop where
  header : IsPatPmt p.header
  muxed : p.muxed = []
  openMs : p.openMs = ms

theorem data_add (p : Part) (x : MuxedFrame) : (p.add x).data = p.data ++ x.tsData := by
  rw [data, data, add, List.flatMap_append, List.flatMap_singleton, List.append_assoc]

theorem lastMs_add (p : Part) (x : MuxedFrame) :
    (p.add x).lastMs = if x.frame.codec.isVideo then x.ms else p.lastMs := by
  rw [lastMs, lastMs, add, List.reverse_append, List.reverse_singleton, List.singleton_append,
    List.find?_cons]
  cases x.frame.codec.isVideo <;> rfl

theorem Fresh.lastMs {p : Part} {ms : UInt64} (h : p.Fresh ms) : p.lastMs = ms := by
  rw [Part.lastMs, h.muxed]
  exact h.openMs

end Part

/-- What an accepted frame does to the part that is open, when video is at `ms`: it is added to it,
or to a new part. -/
inductive Cut (x : MuxedFrame) (ms : UInt64) : Option Part → List Part → Part → Prop
  | opened (p : Part) (fresh : p.Fresh ms) : Cut x ms none [] (p.add x)
  | appended (p : Part) : Cut x ms (some p) [] (p.add x)
  | split (p next : Part) (fresh : next.Fresh p.lastMs) (keyframe : isHlsVideoKeyframe x.frame) :
      Cut x ms (some p) [p] (next.add x)

variable {F : Type}

/-- A completed segment is a part. -/
structure Completes [F64 F] (c : CompletedSegment F) (p : Part) : Prop where
  data : c.data = p.data
  duration : c.duration = closedSegmentSecs p.lastMs p.openMs

/-- The open segment of a session is a part. -/
structure Opened (s : HlsSession F) (p : Part) : Prop where
  buffer : s.segmentBuffer = p.data
  header : IsPatPmt p.header
  openMs : s.segmentOpenMuxMsAtSplit = p.openMs
  lastMs : s.segmentLastMuxMs = p.lastMs
  videoMs : s.sessionVideoMuxMs = p.lastMs
  le : p.openMs ≤ p.lastMs

/-- The part that is open, if one is. -/
def Opens (s : HlsSession F) : Option Part → Prop
  | none => s.segmentBuffer = [] ∧ s.segmentLastMuxMs = s.sessionVideoMuxMs
  | some p => Opened s p

/-! ## Steps -/

/-- Sessions with the same open segment, on the same timeline. -/
structure SameSegment (s' s : HlsSession F) : Prop where
  timeline : s'.toMuxTimeline = s.toMuxTimeline
  muxer : s'.muxer = s.muxer
  buffer : s'.segmentBuffer = s.segmentBuffer
  openMs : s'.segmentOpenMuxMsAtSplit = s.segmentOpenMuxMsAtSplit
  lastMs : s'.segmentLastMuxMs = s.segmentLastMuxMs

theorem sameSegment_countAudio (s : HlsSession F) (frame : MediaFrame) :
    SameSegment { s.countAudio frame with primed := true } s := by
  rw [HlsSession.countAudio]
  split <;> exact ⟨rfl, rfl, rfl, rfl, rfl⟩

theorem sameSegment_trackDuration [F64 F] (s : HlsSession F) (frame : MediaFrame) :
    SameSegment (s.trackDuration frame) s := by
  rw [HlsSession.trackDuration]
  split <;> exact ⟨rfl, rfl, rfl, rfl, rfl⟩

theorem Opened.congr {s s' : HlsSession F} {p : Part} (h : Opened s p) (hsame : SameSegment s' s) :
    Opened s' p where
  buffer := hsame.buffer.trans h.buffer
  header := h.header
  openMs := hsame.openMs.trans h.openMs
  lastMs := hsame.lastMs.trans h.lastMs
  videoMs := (congrArg MuxTimeline.sessionVideoMuxMs hsame.timeline).trans h.videoMs
  le := h.le

theorem Opens.congr {s s' : HlsSession F} {opened : Option Part} (h : Opens s opened)
    (hsame : SameSegment s' s) : Opens s' opened := by
  cases opened with
  | none =>
    refine ⟨hsame.buffer.trans h.1, hsame.lastMs.trans (h.2.trans ?_)⟩
    exact (congrArg MuxTimeline.sessionVideoMuxMs hsame.timeline).symm
  | some p => exact Opened.congr h hsame

theorem IsPatPmt.ne_nil {bytes : List UInt8} (h : IsPatPmt bytes) : bytes ≠ [] := by
  obtain ⟨m, hasAudio, rfl⟩ := h
  rw [TsMuxer.generatePatPmt_eq, TsMuxer.generatePat_eq]
  exact List.append_ne_nil_of_left_ne_nil (tsPacket_ne_nil _ _ TsMuxer.patPayload_ne_nil _ _) _

namespace Opened

variable {s : HlsSession F} {p : Part}

theorem buffer_ne_nil (h : Opened s p) : s.segmentBuffer ≠ [] := by
  rw [h.buffer, Part.data]
  exact List.append_ne_nil_of_left_ne_nil h.header.ne_nil _

/-- A frame is added. -/
theorem muxFrame (h : Opened s p) (frame : MediaFrame) :
    Opened (s.muxFrame frame) (p.add (muxedFrame (s.toMuxTimeline, s.muxer) frame)) where
  buffer := by rw [Part.data_add, ← h.buffer, muxFrame_eq]
  header := h.header
  openMs := by
    rw [muxFrame_eq]
    exact h.openMs
  lastMs := by
    rw [Part.lastMs_add, muxFrame_eq, ← h.lastMs]
    rfl
  videoMs := by
    rw [Part.lastMs_add, muxFrame_eq, ← h.videoMs]
    exact sessionVideoMuxMs_muxStep _ _ _
  le := by
    rw [Part.lastMs_add, ← h.videoMs]
    have hle := s.toMuxTimeline.le_muxTimestampMs frame
    rw [← timeline_muxStep _ s.muxer, sessionVideoMuxMs_muxStep] at hle
    exact UInt64.le_trans (h.videoMs ▸ h.le) hle

/-- A part that is just opened. -/
theorem of_tables {m : TsMuxer} {hasAudio : Bool}
    (hbuffer : s.segmentBuffer = (m.generatePatPmt true hasAudio).2)
    (hopen : s.segmentOpenMuxMsAtSplit = s.sessionVideoMuxMs)
    (hlast : s.segmentLastMuxMs = s.sessionVideoMuxMs) :
    ∃ next : Part, next.Fresh s.sessionVideoMuxMs ∧ Opened s next := by
  have hheader : IsPatPmt s.segmentBuffer := ⟨m, hasAudio, hbuffer⟩
  refine ⟨⟨s.segmentBuffer, [], s.sessionVideoMuxMs⟩, ⟨hheader, rfl, rfl⟩, ?_⟩
  exact ⟨(List.append_nil _).symm, hheader, hopen, hlast, rfl, UInt64.le_refl _⟩

variable [F64 F]

/-- A part is closed, and the next is opened. -/
theorem nextSegment (h : Opened s p) : ∃ next :
    Part, next.Fresh p.lastMs ∧ Opened s.nextSegment next := by
  have hlast : p.lastMs = s.nextSegment.sessionVideoMuxMs := by
    rw [HlsSession.nextSegment_eq, ← h.videoMs]
  rw [hlast]
  apply of_tables (by rw [HlsSession.nextSegment_eq]) (by rw [HlsSession.nextSegment_eq])
  rw [← hlast, ← h.lastMs, HlsSession.nextSegment_eq]

theorem completes (h : Opened s p) (now : ℤ) : Completes (s.completedSegment now) p where
  data := h.buffer
  duration := by
    rw [← h.lastMs, ← h.openMs]
    rfl

end Opened

/-- A frame does not end a segment that is just opened. -/
theorem not_splits_of_fresh [F64 F] {s : HlsSession F}
    (h : s.segmentOpenMuxMsAtSplit = s.segmentLastMuxMs) (frame : MediaFrame) :
    ¬s.splits frame := by
  intro hsplits
  rw [HlsSession.splits, Bool.and_eq_true, h] at hsplits
  have hmedia := hsplits.1
  simp [shouldSplitSegment] at hmedia

variable {s : HlsSession F} {opened : Option Part}

/-- A session is where the stream in one piece is. -/
structure OnStream (s : HlsSession F) (state : MuxTimeline × TsMuxer) : Prop where
  timeline : s.toMuxTimeline = state.1
  media : SameMedia s.muxer state.2

theorem OnStream.refl (s : HlsSession F) : OnStream s (s.toMuxTimeline, s.muxer) := ⟨rfl, .refl _⟩

theorem OnStream.congr {s s' : HlsSession F} {state : MuxTimeline × TsMuxer} (h : OnStream s state)
    (hsame : SameSegment s' s) : OnStream s' state := by
  refine ⟨hsame.timeline.trans h.timeline, ?_⟩
  rw [hsame.muxer]
  exact h.media

/-- From the same point a frame is muxed alike. -/
theorem OnStream.muxStep {s : HlsSession F} {state : MuxTimeline × TsMuxer} (h : OnStream s state)
    (frame : MediaFrame) :
    muxedFrame (s.toMuxTimeline, s.muxer) frame = muxedFrame state frame ∧
      OnStream (s.muxFrame frame) (muxStep state frame).1 := by
  obtain ⟨t, m⟩ := state
  obtain ⟨htimeline, hmedia⟩ := h
  obtain rfl : s.toMuxTimeline = t := htimeline
  have hts := hmedia.frameToTs (s.toMuxTimeline.prepareFrameForMux frame).2.timestamp
    (s.toMuxTimeline.prepareFrameForMux frame).2
  rw [muxFrame_eq, muxStep_eq, muxStep_eq, muxedFrame, muxedFrame]
  dsimp only
  rw [hts.2]
  exact ⟨rfl, rfl, hts.1⟩

/-- A session in which a part is open, where `s` is: the part is that of `s`, or a new one. -/
structure Readies (s : HlsSession F) (opened : Option Part) (s' : HlsSession F) (p : Part) :
    Prop where
  onStream : OnStream s' (s.toMuxTimeline, s.muxer)
  part : opened = some p ∨ opened = none ∧ p.Fresh s.sessionVideoMuxMs
  opened : Opened s' p

theorem readies_openSegment (h : Opens s opened) (frame : MediaFrame) :
    ∃ p, Readies s opened (s.openSegment frame) p := by
  cases opened with
  | none =>
    have hmedia := sameMedia_generatePatPmt s.muxer true
      (decide (0 < s.sessionAudioFrames) || decide (frame.codec = .aac))
    rw [HlsSession.openSegment_of_nil h.1]
    generalize htables : s.muxer.generatePatPmt true _ = tables at hmedia ⊢
    obtain ⟨p, hfresh, hopened⟩ := Opened.of_tables
      (s := { s with
        segmentOpenMuxMs := s.sessionVideoMuxMs
        segmentOpenMuxMsAtSplit := s.sessionVideoMuxMs
        muxer := tables.1
        segmentBuffer := tables.2 }) (congrArg Prod.snd htables).symm rfl h.2
    exact ⟨p, ⟨rfl, hmedia⟩, .inr ⟨rfl, hfresh⟩, hopened⟩
  | some p =>
    rw [HlsSession.openSegment_of_ne_nil (Opened.buffer_ne_nil h)]
    exact ⟨p, .refl _, .inl rfl, h⟩

/-- When a session decides on a frame, a part is open. -/
theorem readies_ready [F64 F] (h : Opens s opened) (frame : MediaFrame) :
    ∃ p, Readies s opened (s.ready frame) p := by
  have hcount := sameSegment_countAudio s frame
  obtain ⟨p, hready⟩ := readies_openSegment (h.congr hcount) frame
  have htrack := sameSegment_trackDuration
    (HlsSession.openSegment { s.countAudio frame with primed := true } frame) frame
  obtain ⟨hon, hpart, hopened⟩ := hready
  rw [hcount.timeline, hcount.muxer] at hon
  rw [hcount.timeline] at hpart
  exact ⟨p, hon.congr htrack, hpart, hopened.congr htrack⟩

theorem sameMedia_nextSegment [F64 F] (s : HlsSession F) :
    SameMedia s.nextSegment.muxer s.muxer := by
  have hmuxer : SameMedia s.nextMuxer s.muxer := by
    rw [HlsSession.nextMuxer]
    split <;> exact ⟨rfl, rfl⟩
  have htables := sameMedia_generatePatPmt s.nextMuxer true (decide (0 < s.sessionAudioFrames))
  rw [HlsSession.nextSegment_eq]
  exact htables.trans hmuxer

theorem OnStream.nextSegment [F64 F] {state : MuxTimeline × TsMuxer} (h : OnStream s state) :
    OnStream s.nextSegment state := by
  refine ⟨?_, (sameMedia_nextSegment s).trans h.media⟩
  rw [HlsSession.nextSegment_eq]
  exact h.timeline

/-- What a call leaves that accepts a frame, where the stream in one piece is at `state`. -/
structure Accepts [F64 F] (s : HlsSession F) (state : MuxTimeline × TsMuxer) (frame : MediaFrame)
    (opened : Option Part) (r : HlsSession F × Option (CompletedSegment F)) (closed : List Part)
    (next : Part) : Prop where
  onStream : OnStream r.1 (muxStep state frame).1
  cut : Cut (muxedFrame state frame) s.sessionVideoMuxMs opened closed next
  opened : Opened r.1 next
  completed : List.Forall₂ Completes r.2.toList closed

/-- A frame is muxed behind the part `p`. -/
theorem Accepts.of_muxFrame [F64 F] {state : MuxTimeline × TsMuxer} {s' : HlsSession F} {p : Part}
    {closed : List Part} {frame : MediaFrame} {completed : Option (CompletedSegment F)}
    (hon : OnStream s' state) (hopened : Opened s' p)
    (hcut : Cut (muxedFrame state frame) s.sessionVideoMuxMs opened closed
      (p.add (muxedFrame state frame)))
    (hcompleted : List.Forall₂ Completes completed.toList closed) :
    ∃ next, Accepts s state frame opened (s'.muxFrame frame, completed) closed next := by
  obtain ⟨hx, hnext⟩ := hon.muxStep frame
  have hadded := hopened.muxFrame frame
  rw [hx] at hadded
  exact ⟨_, hnext, hcut, hadded, hcompleted⟩

/-- A call **cuts**: the frame is added to the part that is open, or opens the next. -/
theorem opens_onFrame [F64 F] {state : MuxTimeline × TsMuxer} (h : Opens s opened)
    (hon : OnStream s state) {frame : MediaFrame} (haccepts : s.accepts frame) (now : ℤ) :
    ∃ closed next, Accepts s state frame opened (s.onFrame now frame) closed next := by
  obtain ⟨p, hready⟩ := readies_ready h frame
  have hon' : OnStream (s.ready frame) state :=
    ⟨hready.onStream.timeline.trans hon.timeline, hready.onStream.media.trans hon.media⟩
  rw [HlsSession.onFrame_of_accepts haccepts]
  by_cases hsplits : (s.ready frame).splits frame
  · have hkey := HlsSession.isHlsVideoKeyframe_of_splits hsplits
    have hvideo := HlsSession.isVideo_of_isHlsVideoKeyframe hkey
    obtain ⟨next, hfresh, hnext⟩ := hready.opened.nextSegment
    rw [if_pos hsplits, HlsSession.muxSplitKeyframe_eq_muxFrame _ hvideo]
    refine ⟨[p], Accepts.of_muxFrame hon'.nextSegment hnext ?_
      (.cons (hready.opened.completes now) .nil)⟩
    rcases hready.part with rfl | ⟨-, hpfresh⟩
    · exact .split p next hfresh hkey
    · have hequal : (s.ready frame).segmentOpenMuxMsAtSplit = (s.ready frame).segmentLastMuxMs := by
        rw [hready.opened.openMs, hready.opened.lastMs, hpfresh.openMs, hpfresh.lastMs]
      exact absurd hsplits (not_splits_of_fresh hequal frame)
  · rw [if_neg hsplits]
    refine ⟨[], Accepts.of_muxFrame hon' hready.opened ?_ .nil⟩
    rcases hready.part with rfl | ⟨rfl, hfresh⟩
    · exact .appended p
    · exact .opened p hfresh

/-! ## Tiles -/

/-- Parts that tile the time from one point to another: each is opened where the one before it ends.
-/
def Tiles : UInt64 → List Part → UInt64 → Prop
  | a, [], b => a = b
  | a, p :: ps, b => p.openMs = a ∧ p.openMs ≤ p.lastMs ∧ Tiles p.lastMs ps b

theorem tiles_append {a c : UInt64} {ps qs : List Part} :
    Tiles a (ps ++ qs) c ↔ ∃ b, Tiles a ps b ∧ Tiles b qs c := by
  induction ps generalizing a with
  | nil => simp [Tiles]
  | cons p ps ih => simp [Tiles, ih, and_assoc]

/-- The span of a part. -/
def Part.spanMs (p : Part) : ℕ := VcpMediaServer.spanMs p.lastMs p.openMs

/-- The spans of tiles add up. -/
theorem Tiles.sum_spanMs {a b : UInt64} {ps : List Part} (h : Tiles a ps b) :
    a.toNat + (ps.map Part.spanMs).sum = b.toNat := by
  induction ps generalizing a with
  | nil => rw [h, List.map_nil, List.sum_nil, Nat.add_zero]
  | cons p ps ih =>
    obtain ⟨hopen, hle, hrest⟩ := h
    have hsum := ih hrest
    rw [UInt64.le_iff_toNat_le] at hle
    rw [List.map_cons, List.sum_cons, ← hopen, Part.spanMs, VcpMediaServer.spanMs]
    omega

namespace Cut

variable {x : MuxedFrame} {ms : UInt64} {closed : List Part} {next : Part}

/-- A cut adds the frame behind all others. -/
theorem muxed (h : Cut x ms opened closed next) :
    (closed ++ [next]).flatMap Part.muxed = opened.toList.flatMap Part.muxed ++ [x] := by
  cases h with
  | opened p fresh => simp [Part.add, fresh.muxed]
  | appended p => simp [Part.add]
  | split p next fresh keyframe => simp [Part.add, fresh.muxed]

/-- What a cut closes was open. -/
theorem mem_of_closed (h : Cut x ms opened closed next) {p : Part} (hp : p ∈ closed) :
    p ∈ opened.toList := by
  cases h with
  | opened q fresh => cases hp
  | appended q => cases hp
  | split q next fresh keyframe => exact hp

/-- A cut goes on tiling. -/
theorem tiles (h : Cut x ms opened closed next) (hle : ms ≤ next.lastMs) {a : UInt64}
    (htiles : Tiles a opened.toList ms) : Tiles a (closed ++ [next]) next.lastMs := by
  cases h with
  | opened p fresh =>
    obtain rfl : a = ms := htiles
    have hopen : p.openMs = a := fresh.openMs
    exact ⟨hopen, (congrArg (· ≤ (p.add x).lastMs) hopen).mpr hle, rfl⟩
  | appended p =>
    obtain ⟨hopen, hopenle, hlast⟩ := htiles
    have hlast : p.lastMs = ms := hlast
    exact ⟨hopen, UInt64.le_trans hopenle (hlast ▸ hle), rfl⟩
  | split p next fresh keyframe =>
    obtain ⟨hopen, hopenle, hlast⟩ := htiles
    have hlast : p.lastMs = ms := hlast
    have hnext : next.openMs = p.lastMs := fresh.openMs
    refine ⟨hopen, hopenle, hnext, ?_, rfl⟩
    exact (congrArg (· ≤ (next.add x).lastMs) (hnext.trans hlast)).mpr hle

end Cut

/-! ## Runs -/

/-- The calls that a session is given. -/
inductive HlsCall (F : Type) where
  | onFrame (now : ℤ) (frame : MediaFrame)
  | addSegment (duration : F) (sequence : ℕ) (programDateTime : ℤ) (discontinuity : Bool)
  | recoverFromLag

/-- A call, and the segment that it completes. -/
def HlsSession.call [F64 F] (s : HlsSession F) :
    HlsCall F → HlsSession F × List (CompletedSegment F)
  | .onFrame now frame => ((s.onFrame now frame).1, (s.onFrame now frame).2.toList)
  | .addSegment duration sequence programDateTime discontinuity =>
    ({ s with playlist := s.playlist.addSegment duration sequence programDateTime discontinuity },
      [])
  | .recoverFromLag => (s.recoverFromLag, [])

/-- The frame that a call gives. -/
def HlsCall.frame? : HlsCall F → Option MediaFrame
  | .onFrame _ frame => some frame
  | _ => none

/-- The frames that are muxed: from the first key frame on, all that are not skipped. -/
def acceptedFrames (calls : List (HlsCall F)) : List MediaFrame :=
  ((calls.filterMap HlsCall.frame?).filter fun frame => !HlsSession.isSkipped frame).dropWhile
      fun frame =>
    !isHlsVideoKeyframe frame

/-- A session has muxed the frames `muxed` at their times, with their packets: the segments that it
completed and the one that is open are parts with tables in front, and they tile the time of video
from its start: each opens at the mux time of the last video frame in front of it. -/
structure Conserved [F64 F] (s : HlsSession F) (completed : List (CompletedSegment F))
    (muxed : List MuxedFrame) (closed : List Part) (opened : Option Part) : Prop where
  completed : List.Forall₂ Completes completed closed
  muxed : (closed ++ opened.toList).flatMap Part.muxed = muxed
  tables : ∀ p ∈ closed ++ opened.toList, IsPatPmt p.header
  tiles : Tiles 0 (closed ++ opened.toList) s.sessionVideoMuxMs
  spans : ((closed ++ opened.toList).map Part.spanMs).sum = s.sessionVideoMuxMs.toNat
  opened : Opens s opened

/-- What a run leaves beside: the stream in one piece has come to the same point. -/
structure Follows (s : HlsSession F) (frames : List MediaFrame) : Prop where
  active : s.active = true
  primed : s.primed = true ↔ frames ≠ []
  onStream : OnStream s (final muxStep (.new, .new) frames)

section Runs

variable {calls : List (HlsCall F)} {completed : List (CompletedSegment F)}
  {muxed : List MuxedFrame} {closed : List Part}

/-- One more frame: it is muxed exactly if the session accepts it. -/
theorem acceptedFrames_onFrame (hactive : s.active = true)
    (hprimed : s.primed = true ↔ acceptedFrames calls ≠ []) (now : ℤ) (frame : MediaFrame) :
    acceptedFrames (calls ++ [.onFrame now frame]) =
      acceptedFrames calls ++ if s.accepts frame then [frame] else [] := by
  rw [acceptedFrames, List.filterMap_append, List.filter_append, List.dropWhile_append,
    HlsSession.accepts, hactive, Bool.true_and]
  change (if (acceptedFrames calls).isEmpty then _ else acceptedFrames calls ++ _) = _
  have hframe : [HlsCall.onFrame (F := F) now frame].filterMap HlsCall.frame? = [frame] := rfl
  rw [hframe]
  cases hskipped : HlsSession.isSkipped frame with
  | true => simp [hskipped]
  | false =>
    by_cases hnil : acceptedFrames calls = []
    · have hnot : s.primed = false := by simpa [hnil] using hprimed
      cases hkey : isHlsVideoKeyframe frame <;> simp [hnil, hskipped, hnot, hkey]
    · simp [hprimed.mpr hnil, hskipped, hnil]

/-- A frame that is accepted is muxed once. -/
theorem Conserved.onFrame [F64 F] {state : MuxTimeline × TsMuxer}
    (h : Conserved s completed muxed closed opened) (hon : OnStream s state) {frame : MediaFrame}
    (haccepts : s.accepts frame) (now : ℤ) :
    ∃ parts next, Accepts s state frame opened (s.onFrame now frame) parts next ∧
      Conserved (s.onFrame now frame).1 (completed ++ (s.onFrame now frame).2.toList)
        (muxed ++ [muxedFrame state frame]) (closed ++ parts) (some next) := by
  obtain ⟨parts, next, hcall⟩ := opens_onFrame h.opened hon haccepts now
  have hle : s.sessionVideoMuxMs ≤ next.lastMs := by
    rw [← hcall.opened.videoMs, hcall.onStream.timeline, hon.timeline, timeline_muxStep]
    exact state.1.le_muxTimestampMs frame
  obtain ⟨ms, hclosed, hopened⟩ := tiles_append.mp h.tiles
  have htiles : Tiles 0 (closed ++ parts ++ [next]) (s.onFrame now frame).1.sessionVideoMuxMs := by
    rw [List.append_assoc, hcall.opened.videoMs]
    exact tiles_append.mpr ⟨ms, hclosed, hcall.cut.tiles hle hopened⟩
  refine ⟨parts, next, hcall, ?_⟩
  refine ⟨List.rel_append h.completed hcall.completed, ?_, ?_, htiles, ?_, hcall.opened⟩
  · rw [Option.toList_some, List.append_assoc, List.flatMap_append, hcall.cut.muxed,
      ← List.append_assoc, ← List.flatMap_append, h.muxed]
  · intro p hp
    rcases List.mem_append.mp hp with hp | hp
    · rcases List.mem_append.mp hp with hp | hp
      · exact h.tables p (List.mem_append_left _ hp)
      · exact h.tables p (List.mem_append_right _ (hcall.cut.mem_of_closed hp))
    · obtain rfl := List.mem_singleton.mp hp
      exact hcall.opened.header
  · rw [← htiles.sum_spanMs]
    exact (Nat.zero_add _).symm

/-- Frames as they are muxed, in one piece. -/
def muxedFrames (frames : List MediaFrame) : List MuxedFrame :=
  (trace muxStep (.new, .new) frames).flatten

theorem muxedFrames_concat (frames : List MediaFrame) (frame : MediaFrame) :
    muxedFrames (frames ++ [frame]) =
      muxedFrames frames ++ [muxedFrame (final muxStep (.new, .new) frames) frame] := by
  rw [muxedFrames, trace_append, List.flatten_append]
  rfl

theorem follows_new [F64 F] (streamId : StreamId) (segmentDuration : F) (maxSegments : ℕ) :
    Follows (HlsSession.new streamId segmentDuration maxSegments) [] where
  active := rfl
  primed := by simp [HlsSession.new]
  onStream := .refl _

theorem conserved_new [F64 F] (streamId : StreamId) (segmentDuration : F) (maxSegments : ℕ) :
    Conserved (HlsSession.new streamId segmentDuration maxSegments) [] [] [] none where
  completed := .nil
  muxed := rfl
  tables := by simp
  tiles := rfl
  spans := rfl
  opened := ⟨rfl, rfl⟩

theorem Follows.onFrame [F64 F] {frames : List MediaFrame} (h : Follows s frames)
    {frame : MediaFrame} (haccepts : s.accepts frame) {now : ℤ} {parts : List Part} {next : Part}
    (hcall : Accepts s (final muxStep (.new, .new) frames) frame opened (s.onFrame now frame)
      parts next) :
    Follows (s.onFrame now frame).1 (frames ++ [frame]) := by
  have hrunning := HlsSession.running_onFrame haccepts now
  refine ⟨hrunning.1.trans h.active, by simp [hrunning.2], ?_⟩
  rw [final_append, final_cons, final_nil]
  exact hcall.onStream

/-- What a call does that accepts no frame changes neither the segment nor the timeline. -/
theorem Conserved.congr [F64 F] {s' : HlsSession F} (h : Conserved s completed muxed closed opened)
    (hsame : SameSegment s' s) : Conserved s' completed muxed closed opened where
  completed := h.completed
  muxed := h.muxed
  tables := h.tables
  tiles := by
    rw [hsame.timeline]
    exact h.tiles
  spans := by
    rw [hsame.timeline]
    exact h.spans
  opened := h.opened.congr hsame

theorem Follows.congr {s' : HlsSession F} {frames : List MediaFrame} (h : Follows s frames)
    (hsame : SameSegment s' s) (hactive : s'.active = s.active) (hprimed : s'.primed = s.primed) :
    Follows s' frames where
  active := hactive.trans h.active
  primed := by
    rw [hprimed]
    exact h.primed
  onStream := h.onStream.congr hsame

variable [F64 F]

/-- A run without recovery, with what it leaves beside. -/
theorem conserved_follows (streamId : StreamId) (segmentDuration : F) (maxSegments : ℕ)
    {calls : List (HlsCall F)} (hcalls : ∀ c ∈ calls, c ≠ .recoverFromLag) :
    let s := HlsSession.new streamId segmentDuration maxSegments
    Follows (final HlsSession.call s calls) (acceptedFrames calls) ∧ ∃ closed opened,
      Conserved (final HlsSession.call s calls) (trace HlsSession.call s calls).flatten
        (muxedFrames (acceptedFrames calls)) closed opened := by
  intro s
  induction calls using List.reverseRecOn with
  | nil => exact ⟨follows_new streamId segmentDuration maxSegments, [], none, conserved_new _ _ _⟩
  | append_singleton calls c ih =>
    obtain ⟨hfollows, closed, opened, hconserved⟩ :=
      ih fun c hc => hcalls c (List.mem_append_left _ hc)
    rw [final_append, trace_append, List.flatten_append]
    generalize final HlsSession.call s calls = s' at hfollows hconserved ⊢
    cases c with
    | recoverFromLag =>
      exact absurd rfl (hcalls _ (List.mem_append_right _ (List.mem_singleton_self _)))
    | addSegment duration sequence programDateTime discontinuity =>
      have hframes :
        acceptedFrames (calls ++ [.addSegment duration sequence programDateTime discontinuity]) =
          acceptedFrames calls := by
        have hnone : [HlsCall.addSegment duration sequence programDateTime discontinuity].filterMap
            HlsCall.frame? = [] := rfl
        rw [acceptedFrames, List.filterMap_append, hnone, List.append_nil]
        rfl
      have hsame :
          SameSegment (s'.call (.addSegment duration sequence programDateTime discontinuity)).1
          s' :=
        ⟨rfl, rfl, rfl, rfl, rfl⟩
      rw [hframes]
      refine ⟨hfollows.congr hsame rfl rfl, closed, opened, ?_⟩
      have hcompleted : (trace HlsSession.call s'
          [.addSegment duration sequence programDateTime discontinuity]).flatten = [] := rfl
      rw [hcompleted, List.append_nil]
      exact hconserved.congr hsame
    | onFrame now frame =>
      have hcompleted : (trace HlsSession.call s' [.onFrame now frame]).flatten =
          (s'.onFrame now frame).2.toList := List.append_nil _
      have hfinal : final HlsSession.call s' [.onFrame now frame] = (s'.onFrame now frame).1 := rfl
      rw [acceptedFrames_onFrame hfollows.active hfollows.primed, hcompleted, hfinal]
      by_cases haccepts : s'.accepts frame
      · obtain ⟨parts, next, hcall, hnext⟩ := hconserved.onFrame hfollows.onStream haccepts now
        rw [if_pos haccepts, muxedFrames_concat]
        exact ⟨hfollows.onFrame haccepts hcall, closed ++ parts, some next, hnext⟩
      · obtain ⟨n, hcall⟩ := HlsSession.onFrame_of_not_accepts haccepts now
        have hsame : SameSegment (s'.onFrame now frame).1 s' := by
          rw [hcall]
          exact ⟨rfl, rfl, rfl, rfl, rfl⟩
        have hnone : (s'.onFrame now frame).2 = none := by rw [hcall]
        rw [if_neg haccepts, List.append_nil, hnone, Option.toList_none, List.append_nil]
        exact ⟨hfollows.congr hsame
          (by rw [hcall]) (by rw [hcall]), closed, opened, hconserved.congr hsame⟩

/-- In every run without recovery each accepted frame is muxed **once**, in order, as if there were
no segments; the segments have tables in front and tile the time of video. -/
theorem conserved_run (streamId : StreamId) (segmentDuration : F) (maxSegments : ℕ)
    {calls : List (HlsCall F)} (hcalls : ∀ c ∈ calls, c ≠ .recoverFromLag) :
    let s := HlsSession.new streamId segmentDuration maxSegments
    ∃ closed opened, Conserved (final HlsSession.call s calls)
      (trace HlsSession.call s calls).flatten
      (muxedFrames (acceptedFrames calls)) closed opened :=
  (conserved_follows streamId segmentDuration maxSegments hcalls).2

/-- A frame of video, on a clock of milliseconds. -/
def cameraFrame (ms : UInt64) (isKeyframe : Bool) : MediaFrame :=
  (MediaFrame.new "live/cam" 0 ms [0x00, 0x00, 0x00, 0x01, if isKeyframe then 0x65 else 0x41, 0x88]
    isKeyframe .h264).withClockRate 1000

/-- Two frames of video, 400 ms apart, and one of audio; then a key frame. -/
def splitCalls : List (HlsCall ℚ) :=
  [.onFrame 0 (cameraFrame 1000 true), .onFrame 0 (cameraFrame 1400 false),
    .onFrame 0 (.new "live/cam" 1 1000 [0x21, 0x10, 0x04, 0x60, 0x8C, 0x1C, 0x00, 0x00] false .aac),
    .onFrame 0 (cameraFrame 1440 true), .addSegment (2 / 5) 0 0 false]

/-- The key frame completes a segment of 400 ms, and the next opens there. -/
theorem conserved_split :
    (∀ c ∈ splitCalls, c ≠ .recoverFromLag) ∧ ∃ p next,
      Conserved (final HlsSession.call (.new "live/cam" 1 1) splitCalls)
        (trace HlsSession.call (.new "live/cam" 1 1) splitCalls).flatten
        (muxedFrames (acceptedFrames splitCalls)) [p] (some next) ∧
      (trace HlsSession.call (.new "live/cam" 1 1) splitCalls).flatten.map
        CompletedSegment.duration = [2 / 5] ∧
      (muxedFrames (acceptedFrames splitCalls)).map MuxedFrame.ms = [0, 400, 400, 440] ∧
      p.openMs = 0 ∧ next.openMs = p.lastMs ∧ next.lastMs = 440 := by
  have hcalls : ∀ c ∈ splitCalls, c ≠ .recoverFromLag := by simp [splitCalls]
  have hdurations : (trace HlsSession.call (.new "live/cam" 1 1) splitCalls).flatten.map
      CompletedSegment.duration = [2 / 5] := by decide +kernel
  have htime : (final HlsSession.call (.new "live/cam" 1 1) splitCalls).sessionVideoMuxMs =
      440 := by
    decide +kernel
  obtain ⟨closed, opened, h⟩ := conserved_run "live/cam" 1 1 hcalls
  have hone : closed.length = 1 := by
    rw [← h.completed.length_eq, ← List.length_map CompletedSegment.duration, hdurations]
    rfl
  obtain ⟨p, rfl⟩ := List.length_eq_one_iff.mp hone
  have hopens := h.opened
  cases opened with
  | none =>
    have hopen : (final HlsSession.call (.new "live/cam" 1 1) splitCalls).segmentBuffer ≠ [] := by
      decide +kernel
    exact absurd hopens.1 hopen
  | some next =>
    obtain ⟨hp, -, hnext, -, hlast⟩ := h.tiles
    refine ⟨hcalls, p, next, h, hdurations, by decide +kernel, hp, hnext, hlast.trans htime⟩

end Runs

end VcpMediaServer
