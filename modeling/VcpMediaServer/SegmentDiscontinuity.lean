import VcpMediaServer.HlsGaps
import VcpMediaServer.TsContinuity

/-!
# Discontinuities in the segments

Behind a recovery a session flags a segment in the playlist, and marks a PAT. The flag goes to the
segment that is **closed** next, and the mark into the tables of the one that is opened then.

* `patDiscontinuity` — what a demuxer reads from the first PAT packet.
* `Unmarked` — between two steps the tables of the open segment are not marked.
* `markedAsFlagged_run_iff` — flag and mark agree in every segment exactly if none is closed while
  the flag is up.
-/

namespace VcpMediaServer

open Lts Mealy

/-! ## Marks -/

/-- The `discontinuity_indicator` of a packet. -/
def discontinuityIndicator (packet : List UInt8) : Bool :=
  hasAdaptationField packet && decide (0 < packet.getD 4 0) && packet.getD 5 0 &&& 0x80 != 0

/-- The `discontinuity_indicator` of the first PAT packet. -/
def patDiscontinuity (data : List UInt8) : Bool :=
  ((tsPackets data).find? fun packet => tsPid packet == PAT_PID.toNat).any discontinuityIndicator

/-- A PAT fits into one packet, behind an adaptation field. -/
theorem tsPacket_pat (cc : UInt8) (discontinuity : Bool) :
    tsPacket PAT_PID true TsMuxer.patPayload cc discontinuity =
      (tsHeader PAT_PID true true cc ++
        (stuffingField (if discontinuity then AF_DISCONTINUITY else 0x00) 167 ++
            TsMuxer.patPayload), nextCc cc) := by
  have hlen : TsMuxer.patPayload.length = 17 := rfl
  have htake : TsMuxer.patPayload.take 17 = TsMuxer.patPayload :=
    List.take_of_length_le (Nat.le_refl 17)
  have hdrop : TsMuxer.patPayload.drop 17 = [] := List.drop_of_length_le (Nat.le_refl 17)
  have hstuffing :
      (if discontinuity = true ∧ TS_PACKET_SIZE - 4 - 17 < 2 then 2 else TS_PACKET_SIZE - 4 - 17) =
          167 :=
    if_neg fun h => absurd h.2 (by decide)
  rw [tsPacket, if_neg TsMuxer.patPayload_ne_nil, hlen, tableLoop, if_neg TsMuxer.patPayload_ne_nil,
    tablePacket, hlen, if_pos (.inl (by decide))]
  dsimp only
  rw [hstuffing, show TS_PACKET_SIZE - 4 - 167 = 17 by rfl, htake, hdrop, tableLoop, if_pos rfl]
  simp only [List.append_assoc, List.append_nil]

/-- The mark of a PAT is read where it is written. -/
theorem patDiscontinuity_pat {cc : UInt8} (hcc : cc < 16) (discontinuity : Bool)
    (rest : List UInt8) :
    patDiscontinuity ((tsPacket PAT_PID true TsMuxer.patPayload cc discontinuity).1 ++ rest) =
        discontinuity := by
  rw [tsPacket_pat]
  have hpid := tsPid_header (by decide : PAT_PID < 0x2000) true true cc
    (stuffingField (if discontinuity then AF_DISCONTINUITY else 0x00) 167 ++ TsMuxer.patPayload)
  have hfield := hasAdaptationField_header PAT_PID true true hcc
    (stuffingField (if discontinuity then AF_DISCONTINUITY else 0x00) 167 ++ TsMuxer.patPayload)
  rw [patDiscontinuity, tsPackets_cons (by cases discontinuity <;> rfl),
    List.find?_cons_of_pos (by simp [hpid]), Option.any_some, discontinuityIndicator, hfield]
  change (true && decide ((0 : UInt8) < UInt8.ofNat 166) &&
    ((if discontinuity then AF_DISCONTINUITY else 0x00) &&& 0x80 != 0)) = discontinuity
  cases discontinuity <;> decide

/-! ## Between two steps -/

/-- A muxer that marks no PAT. -/
structure Plain (m : TsMuxer) : Prop where
  counter : m.ccPat < 16
  unmarked : m.segmentDiscontinuity = false

/-- Tables without a mark, and what is behind them. -/
def BeginsPlain (data : List UInt8) : Prop :=
  ∃ cc rest, cc < 16 ∧ data = (tsPacket PAT_PID true TsMuxer.patPayload cc false).1 ++ rest

theorem BeginsPlain.append {data : List UInt8} (h : BeginsPlain data) (more : List UInt8) :
    BeginsPlain (data ++ more) := by
  obtain ⟨cc, rest, hcc, rfl⟩ := h
  exact ⟨cc, rest ++ more, hcc, List.append_assoc _ _ _⟩

theorem BeginsPlain.patDiscontinuity {data : List UInt8} (h : BeginsPlain data) :
    patDiscontinuity data = false := by
  obtain ⟨cc, rest, hcc, rfl⟩ := h
  exact patDiscontinuity_pat hcc false rest

/-- The mark goes into one PAT: behind it a muxer is plain. -/
theorem Plain.generatePatPmt {m : TsMuxer} (h : Plain m) (hasVideo hasAudio : Bool) :
    Plain (m.generatePatPmt hasVideo hasAudio).1 ∧
        BeginsPlain (m.generatePatPmt hasVideo hasAudio).2 := by
  rw [TsMuxer.generatePatPmt_eq, TsMuxer.generatePmt_eq, TsMuxer.generatePat_eq, h.unmarked]
  refine ⟨⟨?_, rfl⟩, m.ccPat, _, h.counter, rfl⟩
  dsimp only
  rw [tsPacket_pat]
  exact nextCc_lt _

theorem Plain.updatePcr {m : TsMuxer} (h : Plain m) (timestamp : UInt64) :
    Plain (m.updatePcr timestamp) where
  counter := by
    rw [TsMuxer.updatePcr_ccPat]
    exact h.counter
  unmarked := by
    rw [TsMuxer.updatePcr_segmentDiscontinuity]
    exact h.unmarked

theorem Plain.frameToTs {m : TsMuxer} (h : Plain m) (frame : MediaFrame) :
    Plain (m.frameToTs frame).1 := by
  by_cases hpayload : TsMuxer.framePayload frame = []
  · rw [TsMuxer.frameToTs_of_eq_nil hpayload]
    exact h
  · rw [TsMuxer.frameToTs_of_ne_nil hpayload]
    dsimp only
    split <;> exact ⟨h.counter, h.unmarked⟩

variable {F : Type}

/-- Between two steps: the open segment has tables without a mark, and the next would have. -/
structure Unmarked (s : HlsSession F) : Prop where
  muxer : Plain s.muxer
  buffer : s.segmentBuffer ≠ [] → BeginsPlain s.segmentBuffer

namespace Unmarked

variable {s s' : HlsSession F}

theorem congr (h : Unmarked s) (hsame : SameSegment s' s) : Unmarked s' where
  muxer := by
    rw [hsame.muxer]
    exact h.muxer
  buffer := by
    rw [hsame.buffer]
    exact h.buffer

/-- When a session decides on a frame, a segment is open. -/
theorem openSegment (h : Unmarked s) (frame : MediaFrame) :
    Unmarked (s.openSegment frame) ∧ BeginsPlain (s.openSegment frame).segmentBuffer := by
  by_cases hnil : s.segmentBuffer = []
  · obtain ⟨hmuxer, hbuffer⟩ := h.muxer.generatePatPmt true
      (decide (0 < s.sessionAudioFrames) || decide (frame.codec = .aac))
    rw [HlsSession.openSegment_of_nil hnil]
    generalize s.muxer.generatePatPmt true _ = tables at hmuxer hbuffer ⊢
    exact ⟨⟨hmuxer, fun _ => hbuffer⟩, hbuffer⟩
  · rw [HlsSession.openSegment_of_ne_nil hnil]
    exact ⟨h, h.buffer hnil⟩

theorem muxFrame (h : Unmarked s) (hbuffer : BeginsPlain s.segmentBuffer) (frame : MediaFrame) :
    Unmarked (s.muxFrame frame) where
  muxer := by
    rw [muxFrame_eq, muxStep_eq]
    exact (h.muxer.updatePcr _).frameToTs _
  buffer := by
    rw [muxFrame_eq]
    exact fun _ => hbuffer.append _

variable [F64 F]

theorem ready (h : Unmarked s) (frame : MediaFrame) :
    Unmarked (s.ready frame) ∧ BeginsPlain (s.ready frame).segmentBuffer := by
  obtain ⟨hopen, hbuffer⟩ := (h.congr (sameSegment_countAudio s frame)).openSegment frame
  have htrack := sameSegment_trackDuration
    (HlsSession.openSegment { s.countAudio frame with primed := true } frame) frame
  refine ⟨hopen.congr htrack, ?_⟩
  rw [HlsSession.ready, htrack.buffer]
  exact hbuffer

/-- While the flag is down, so is the mark of the next segment. -/
theorem nextSegment (h : Unmarked s) (hdown : s.pendingDiscontinuity = false) :
    Unmarked s.nextSegment ∧ BeginsPlain s.nextSegment.segmentBuffer := by
  have hnext : s.nextMuxer = s.muxer := by simp [HlsSession.nextMuxer, hdown]
  obtain ⟨hmuxer, hbuffer⟩ := h.muxer.generatePatPmt true (decide (0 < s.sessionAudioFrames))
  rw [HlsSession.nextSegment_eq, hnext]
  generalize s.muxer.generatePatPmt true _ = tables at hmuxer hbuffer ⊢
  exact ⟨⟨hmuxer, fun _ => hbuffer⟩, hbuffer⟩

end Unmarked

/-! ## Runs -/

section Runs

variable [F64 F] {s : HlsSession F}

/-- The flag of a segment is the mark of its first PAT. -/
def MarkedAsFlagged (segment : CompletedSegment F) : Prop :=
  segment.discontinuity = patDiscontinuity segment.data

omit [F64 F] in
instance (segment : CompletedSegment F) : Decidable (MarkedAsFlagged segment) :=
  inferInstanceAs (Decidable (_ = _))

/-- A call does not close a segment while the flag is up. -/
def ClosesUnflagged (s : HlsSession F) : HlsCall F → Prop
  | .onFrame _ frame => s.accepts frame → (s.ready frame).splits frame →
    s.pendingDiscontinuity = false
  | .addSegment .. | .recoverFromLag => True

/-- A call in such a state gives a segment with flag and mark alike exactly if the flag is down. -/
theorem markedAsFlagged_call_iff (h : Unmarked s) (c : HlsCall F) :
    (∀ segment ∈ (s.call c).2, MarkedAsFlagged segment) ↔ ClosesUnflagged s c := by
  cases c with
  | onFrame now frame =>
    rw [HlsSession.call, ClosesUnflagged]
    dsimp only
    by_cases haccepts : s.accepts frame
    · rw [HlsSession.onFrame_of_accepts haccepts]
      by_cases hsplits : (s.ready frame).splits frame
      · obtain ⟨-, hbuffer⟩ := h.ready frame
        have hsame : MarkedAsFlagged ((s.ready frame).completedSegment now) ↔
            s.pendingDiscontinuity = false := by
          have hflag : ((s.ready frame).completedSegment now).discontinuity =
              s.pendingDiscontinuity :=
            (HlsSession.samePlaylist_ready s frame).pending
          have hmark : patDiscontinuity ((s.ready frame).completedSegment now).data = false :=
            hbuffer.patDiscontinuity
          rw [MarkedAsFlagged, hflag, hmark]
        rw [if_pos hsplits]
        simp [haccepts, hsplits, hsame]
      · rw [if_neg hsplits]
        simp [hsplits]
    · obtain ⟨n, hcall⟩ := HlsSession.onFrame_of_not_accepts haccepts now
      rw [hcall]
      simp [haccepts]
  | addSegment | recoverFromLag => simp [HlsSession.call, ClosesUnflagged]

/-- And then the next state is such a state. -/
theorem Unmarked.call (h : Unmarked s) {c : HlsCall F} (hdown : ClosesUnflagged s c) :
    Unmarked (s.call c).1 := by
  cases c with
  | onFrame now frame =>
    change Unmarked (s.onFrame now frame).1
    by_cases haccepts : s.accepts frame
    · obtain ⟨hready, hbuffer⟩ := h.ready frame
      rw [HlsSession.onFrame_of_accepts haccepts]
      by_cases hsplits : (s.ready frame).splits frame
      · have hvideo :=
          HlsSession.isVideo_of_isHlsVideoKeyframe (HlsSession.isHlsVideoKeyframe_of_splits hsplits)
        have hpending :=
          (HlsSession.samePlaylist_ready s frame).pending.trans (hdown haccepts hsplits)
        obtain ⟨hnext, hbuffer⟩ := hready.nextSegment hpending
        rw [if_pos hsplits, HlsSession.muxSplitKeyframe_eq_muxFrame _ hvideo]
        exact hnext.muxFrame hbuffer frame
      · rw [if_neg hsplits]
        exact hready.muxFrame hbuffer frame
    · obtain ⟨n, hcall⟩ := HlsSession.onFrame_of_not_accepts haccepts now
      rw [hcall]
      exact ⟨h.muxer, h.buffer⟩
  | addSegment => exact ⟨h.muxer, h.buffer⟩
  | recoverFromLag => exact ⟨h.muxer, fun hne => absurd rfl hne⟩

/-- In every run, flag and mark agree in all segments that are completed **exactly if** none of them
is closed while the flag is up. -/
theorem markedAsFlagged_run_iff (streamId : StreamId) (segmentDuration : F) (maxSegments : ℕ)
    (calls : List (HlsCall F)) :
    (∀ segment ∈ (trace HlsSession.call (.new streamId segmentDuration maxSegments) calls).flatten,
        MarkedAsFlagged segment) ↔
      Always (fun s c => some (HlsSession.call s c).1) ClosesUnflagged
        (.new streamId segmentDuration maxSegments) calls := by
  have hnew : Unmarked (HlsSession.new streamId segmentDuration maxSegments) :=
    ⟨⟨show (0 : UInt8) < 16 by decide, rfl⟩, fun hne => absurd rfl hne⟩
  rw [forall_trace_iff_always]
  refine always_iff_of_inv (I := Unmarked) (fun s c h => markedAsFlagged_call_iff h c)
    (fun s c s' h hdown hs' => ?_) hnew
  obtain rfl := Option.some.inj hs'
  exact h.call hdown

/-- A key frame of a publisher that counts milliseconds. -/
def keyFrameAt (ms : UInt64) : HlsCall ℚ :=
  .onFrame 0
    ((MediaFrame.new "live" 0 ms [0x00, 0x00, 0x00, 0x01, 0x65, 1] true .h264).withClockRate 1000)

/-- A recovery behind the first key frame. -/
def recoveredCalls : List (HlsCall ℚ) :=
  [keyFrameAt 1000, .recoverFromLag, keyFrameAt 2000, keyFrameAt 2400, keyFrameAt 2800]

/-- The segment that is flagged is not marked, and the one that is **marked** is not flagged. -/
theorem not_markedAsFlagged_recovered :
    ((trace HlsSession.call (.new "live" 1 5) recoveredCalls).flatten.map fun segment =>
        (segment.discontinuity, patDiscontinuity segment.data)) = [(true, false), (false, true)] ∧
      ¬ ∀ segment ∈ (trace HlsSession.call (.new "live" 1 5) recoveredCalls).flatten,
          MarkedAsFlagged segment := by
  decide +kernel

end Runs

end VcpMediaServer
