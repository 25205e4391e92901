import VcpMediaServer.HlsLoop
import VcpMediaServer.SequentialDelivery

/-!
# The cursor of the mux loop

Reading never moves the cursor back. A snap may: it is made at a lag of 30 frames, and where no key
frame has come since the last one that was read, the latest key frame is **behind** the cursor.

* `NeverBack` — a step leaves the cursor or moves it forward, and gives no frame to `on_frame`
  twice.
* `SnapsForward` — the condition: no snap goes behind the cursor.
* `neverBack_iff` — along every run without a reset, the two are the same.
-/

namespace VcpMediaServer

open Lts

/-! ## Reading -/

/-- Where a snap to the latest key frame leads, by what was published. -/
theorem RingInv.snap_latestIdr_eq {fs : List MediaFrame} {r : FrameRing} (h : RingInv fs r) :
    r.snap .latestIdr = (keySeqs fs).getLast?.getD (fs.length - 1) := by
  rw [FrameRing.snap, h.latestIdrSeq_eq, FrameRing.latestSeq, h.writeSeq_eq]

/-- The latest key frame is never an older one. -/
theorem RingInv.snap_latestIdr_mono {fs : List MediaFrame} {r r' : FrameRing} (h : RingInv fs r)
    {f : MediaFrame} (hp : r.push f = some r') : r.snap .latestIdr ≤ r'.snap .latestIdr := by
  have hsnap := h.snap_latestIdr_le
  rw [FrameRing.latestSeq, h.writeSeq_eq] at hsnap
  rw [(h.push hp).snap_latestIdr_eq, keySeqs_concat, List.length_append, List.length_singleton]
  split
  · rw [List.getLast?_concat, Option.getD_some]
    omega
  · rw [List.append_nil, h.snap_latestIdr_eq]
    rcases (keySeqs fs).getLast? with _ | k
    · exact Nat.sub_le_sub_right (Nat.le_succ _) 1
    · exact le_rfl

namespace DispatchReader

variable {fs : List MediaFrame} {h : StreamHub} {r : DispatchReader}

/-- What a read does: rising numbers from the cursor on, and the cursor behind them. -/
structure Reads (r : DispatchReader) (frames : List StoredFrame) (r' : DispatchReader) : Prop where
  policy : r'.policy = r.policy
  cursor : r.cursor ≤ r'.cursor
  rising : (seqsOf frames).Pairwise (· < ·)
  bounds : ∀ n ∈ seqsOf frames, r.cursor ≤ n ∧ n < r'.cursor

theorem reads_recvBatch (hinv : RingInv fs h.ring) (hr : r.policy.isSequential = true) :
    Reads r (r.recvBatch h).1 (r.recvBatch h).2 := by
  have hnone : Reads r [] r := ⟨rfl, le_rfl, .nil, nofun⟩
  rw [recvBatch_of_isSequential hr]
  split
  · exact hnone
  next hle =>
  dsimp only
  split
  · obtain hjump | ⟨lo, hi, hle, hlt, hseqs, hreader⟩ := jumpToIdr_cases (r := r) hinv
    · rw [hjump]
      exact hnone
    · refine ⟨by rw [hreader], ?_, ?_, ?_⟩
      · rw [hreader]
        exact Nat.le_of_lt (lt_of_lt_of_le hlt (Nat.le_succ_of_le hle))
      · rw [hseqs]
        exact span_pairwise lo hi
      · intro n hn
        rw [hseqs, mem_span] at hn
        rw [hreader]
        exact ⟨Nat.le_of_lt (lt_of_lt_of_le hlt hn.1), Nat.lt_succ_of_le hn.2⟩
  · have hend : r.cursor ≤ r.batchEnd h := by
      rw [batchEnd]
      rcases hp : r.policy with _ | _ | _ | _
      · rw [hp] at hr
        cases hr
      · exact le_min (Nat.le_of_not_lt hle) (Nat.le_add_right _ _)
      · exact le_rfl
      · exact le_min (Nat.le_of_not_lt hle) (Nat.le_add_right _ _)
    refine ⟨rfl, Nat.le_succ_of_le hend, hinv.framesFrom_pairwise _ _, ?_⟩
    intro n hn
    obtain ⟨f, hf, rfl⟩ := List.mem_map.mp hn
    obtain ⟨-, hlo, hhi⟩ := FrameRing.mem_framesFrom.mp hf
    exact ⟨hlo, Nat.lt_succ_of_le hhi⟩

end DispatchReader

/-! ## Runs -/

namespace HlsLoop

variable {F : Type}

/-- The frames of the batch that are still to be muxed. -/
def pending (s : HlsLoop F) : List StoredFrame :=
  match s.phase with
  | .muxing frames => frames
  | _ => []

/-- The loop has not begun. -/
def Starting (s : HlsLoop F) : Prop :=
  match s.phase with
  | .unsubscribed => True
  | .subscribed => True
  | _ => False

/-- What holds of the reader between two steps. -/
structure Inv (s : HlsLoop F) : Prop where
  /-- The ring is one that pushes lead to. -/
  ring : ∃ fs, RingInv fs s.hub.ring
  /-- The reader reads in sequence, from key frames. -/
  policy : s.reader.policy = .sequentialFromIdr
  /-- The numbers rise. -/
  rising : (s.passed ++ seqsOf s.pending).Pairwise (· < ·)
  /-- The cursor is behind them. -/
  below : ∀ n ∈ s.passed ++ seqsOf s.pending, n < s.reader.cursor
  /-- Until the loop begins, the latest key frame is not behind the cursor. -/
  start : s.Starting → s.reader.cursor ≤ s.hub.snap .latestIdr

variable [F64 F]

/-- A step does not move the cursor back, and the numbers that `on_frame` is given rise. -/
def NeverBack (s : HlsLoop F) (l : HlsLoopStep) : Prop :=
  ∀ s' ∈ s.step l, s.reader.cursor ≤ s'.reader.cursor ∧ s'.passed.Pairwise (· < ·)

/-- The condition on a step: a check that finds a lag finds the latest key frame at the cursor or in
front of it. -/
def SnapsForward (s : HlsLoop F) : HlsLoopStep → Prop
  | .check =>
    match s.phase with
    | .muxing [] => HLS_MUX_LAG_SNAP_THRESHOLD < s.lag → s.reader.cursor ≤ s.hub.snap .latestIdr
    | _ => True
  | _ => True

/-- The run has no reset of the hub. -/
def KeepsHub (_ : HlsLoop F) : HlsLoopStep → Prop
  | .reset => False
  | _ => True

theorem Inv.init (stream : Stream) (segmentDuration : F) (maxSegments : ℕ) :
    (HlsLoop.init stream segmentDuration maxSegments).Inv where
  ring := ⟨[], RingInv.withCapacity _ _⟩
  policy := rfl
  rising := .nil
  below := nofun
  start := fun _ => le_rfl

variable {s s' : HlsLoop F} {l : HlsLoopStep}

omit [F64 F] in
/-- A publish leaves the reader where it is. -/
theorem Inv.publish (hi : s.Inv) {frame : MediaFrame} {hub : StreamHub}
    (hp : s.hub.publish frame = some hub) :
    ({ s with hub } : HlsLoop F).Inv := by
  obtain ⟨fs, hring⟩ := hi.ring
  obtain ⟨ring, hpush, rfl⟩ := StreamHub.publish_eq_some.mp hp
  exact ⟨⟨_, hring.push hpush⟩, hi.policy, hi.rising, hi.below,
    fun h => (hi.start h).trans (hring.snap_latestIdr_mono hpush)⟩

omit [F64 F] in
/-- A step that moves the cursor forward, if at all, and leaves the numbers. -/
theorem Inv.forward (hi : s.Inv) {phase : LoopPhase} {reader : DispatchReader}
    (hpolicy : reader.policy = .sequentialFromIdr) (hcursor : s.reader.cursor ≤ reader.cursor)
    (hphase : ({ s with reader, phase } : HlsLoop F).pending = [])
    (hstart : ({ s with reader, phase } : HlsLoop F).Starting →
      reader.cursor ≤ s.hub.snap .latestIdr) :
    ({ s with reader, phase } : HlsLoop F).Inv := by
  have hpassed : s.passed.Pairwise (· < ·) ∧ ∀ n ∈ s.passed, n < s.reader.cursor :=
    ⟨(List.pairwise_append.mp hi.rising).1, fun n hn => hi.below n (List.mem_append_left _ hn)⟩
  refine ⟨hi.ring, hpolicy, ?_, ?_, hstart⟩
  · rw [hphase]
    exact (List.append_nil s.passed).symm ▸ hpassed.1
  · rw [hphase]
    intro n hn
    exact (hpassed.2 n (List.append_nil s.passed ▸ hn)).trans_le hcursor

/-- A batch goes on from the cursor. -/
theorem Inv.take (hi : s.Inv) {r : DispatchReader}
    (hpolicy : r.policy = s.reader.policy) (hcursor : r.cursor = s.reader.cursor) :
    (s.take r).Inv ∧ s.reader.cursor ≤ (s.take r).reader.cursor ∧ (s.take r).passed = s.passed := by
  obtain ⟨fs, hring⟩ := hi.ring
  have hsequential : r.policy.isSequential = true := by
    rw [hpolicy, hi.policy]
    rfl
  obtain ⟨hsame, hle, hrising, hbounds⟩ := DispatchReader.reads_recvBatch hring hsequential
  obtain ⟨n, r', hr', hp', htake⟩ := s.take_eq r
  have hkept := s.sameReading_recover n
  have hold : s.passed.Pairwise (· < ·) ∧ ∀ n ∈ s.passed, n < s.reader.cursor :=
    ⟨(List.pairwise_append.mp hi.rising).1, fun n hn => hi.below n (List.mem_append_left _ hn)⟩
  rw [hcursor] at hle hbounds
  rw [htake]
  refine ⟨⟨?_, ?_, ?_, ?_, nofun⟩, ?_, hkept.passed⟩
  · exact ⟨fs, by rw [hkept.hub]; exact hring⟩
  · exact hp'.trans (hsame.trans (hpolicy.trans hi.policy))
  · change ((recover^[n] s).passed ++ seqsOf (r.recvBatch s.hub).1).Pairwise (· < ·)
    rw [hkept.passed]
    exact List.pairwise_append.mpr
      ⟨hold.1, hrising, fun a ha b hb => (hold.2 a ha).trans_le (hbounds b hb).1⟩
  · change ∀ m ∈ (recover^[n] s).passed ++ seqsOf (r.recvBatch s.hub).1, m < r'.cursor
    rw [hkept.passed, hr']
    intro m hm
    rcases List.mem_append.mp hm with hm | hm
    · exact (hold.2 m hm).trans_le hle
    · exact (hbounds m hm).2
  · exact hle.trans (Nat.le_of_eq hr'.symm)

/-- A frame is given to `on_frame`, or passed over. -/
theorem Inv.mux (hi : s.Inv) {f : StoredFrame} {rest : List StoredFrame}
    (hphase : s.phase = .muxing (f :: rest)) (env : FrameEnv) :
    (s.mux env f rest).Inv ∧ (s.mux env f rest).reader = s.reader := by
  have hpending : s.pending = f :: rest := by
    rw [pending, hphase]
  have hrising := hi.rising
  have hbelow := hi.below
  rw [hpending] at hrising hbelow
  have hsub : (s.passed ++ seqsOf rest).Sublist (s.passed ++ seqsOf (f :: rest)) :=
    (List.Sublist.refl _).append (List.sublist_cons_self _ _)
  rw [HlsLoop.mux]
  split
  · exact ⟨⟨hi.ring, hi.policy, hrising.sublist hsub, fun n hn => hbelow n (hsub.subset hn),
      fun h => False.elim h⟩, rfl⟩
  · next frame hgiven =>
    obtain ⟨hhub, hreader, -, hpassed⟩ := s.sameReading_onFrame env frame
    have hnumbers : s.passed ++ [f.seq] ++ seqsOf rest = s.passed ++ seqsOf (f :: rest) :=
      List.append_assoc _ _ _
    refine ⟨⟨?_, ?_, ?_, ?_, fun h => False.elim h⟩, hreader⟩
    · rw [hhub]
      exact hi.ring
    · rw [hreader]
      exact hi.policy
    · exact hnumbers.symm ▸ hrising
    · change ∀ n ∈ s.passed ++ [f.seq] ++ seqsOf rest, n < (s.onFrame env frame).reader.cursor
      rw [hnumbers, hreader]
      exact hbelow

/-- A check for a lag, that does not snap back. -/
theorem Inv.check (hi : s.Inv) (hforward : HLS_MUX_LAG_SNAP_THRESHOLD < s.lag →
    s.reader.cursor ≤ s.hub.snap .latestIdr) :
    s.check.Inv ∧ s.reader.cursor ≤ s.check.reader.cursor ∧ s.check.passed = s.passed := by
  rw [HlsLoop.check]
  split
  · next hlag =>
    have hsnap : ({ s with reader := s.reader.snapToLatestIdr s.hub, phase := .receiving false } :
        HlsLoop F).Inv := hi.forward hi.policy (hforward hlag) rfl fun h => False.elim h
    exact ⟨⟨hsnap.ring, hsnap.policy, hsnap.rising, hsnap.below, fun h => False.elim h⟩,
      hforward hlag, rfl⟩
  · exact ⟨hi.forward hi.policy le_rfl rfl fun h => False.elim h, le_rfl, rfl⟩

/-- **Every step** that does not snap back keeps the invariant, and never goes back. -/
theorem Inv.step (hi : s.Inv) (hkeeps : s.KeepsHub l) (hforward : s.SnapsForward l)
    (h : s.step l = some s') :
    s'.Inv ∧ s.reader.cursor ≤ s'.reader.cursor := by
  cases l with
  | publish frame =>
    obtain ⟨hub, hp, rfl⟩ := Option.map_eq_some_iff.mp h
    exact ⟨hi.publish hp, le_rfl⟩
  | reset => exact hkeeps.elim
  | subscribe =>
    rw [HlsLoop.step] at h
    split at h
    · next hphase =>
      obtain rfl := Option.some.inj h
      have hle : s.reader.cursor ≤ s.hub.snap .latestIdr :=
        hi.start (by rw [Starting, hphase]; trivial)
      exact ⟨hi.forward rfl hle rfl fun _ => le_rfl, hle⟩
    · cases h
  | finishPrime =>
    rw [HlsLoop.step] at h
    split at h
    · next hphase =>
      obtain rfl := Option.some.inj h
      have hle : s.reader.cursor ≤ s.hub.snap .latestIdr :=
        hi.start (by rw [Starting, hphase]; trivial)
      have hprime : s.reader.finishPrime s.hub = s.reader.snapToLatestIdr s.hub := by
        rw [DispatchReader.finishPrime, hi.policy]
      rw [hprime]
      exact ⟨hi.forward hi.policy hle rfl fun h => False.elim h, hle⟩
    · cases h
  | check =>
    rw [HlsLoop.step] at h
    rw [SnapsForward] at hforward
    split at h
    · next hphase =>
      obtain rfl := Option.some.inj h
      rw [hphase] at hforward
      exact ⟨(hi.check hforward).1, (hi.check hforward).2.1⟩
    · cases h
  | recv =>
    rw [HlsLoop.step] at h
    split at h
    · obtain rfl := Option.some.inj h
      split
      · exact ⟨(hi.take rfl rfl).1, (hi.take rfl rfl).2.1⟩
      · exact ⟨hi.forward hi.policy le_rfl rfl fun h => False.elim h, le_rfl⟩
    · cases h
  | wake =>
    rw [HlsLoop.step] at h
    split at h
    · split at h
      · obtain rfl := Option.some.inj h
        obtain ⟨hinv, hle, -⟩ := hi.take (r := s.reader.seen s.hub.seqTx) rfl rfl
        exact ⟨hinv, hle⟩
      · cases h
    · cases h
  | mux env =>
    rw [HlsLoop.step] at h
    split at h
    · next f rest hphase =>
      obtain rfl := Option.some.inj h
      obtain ⟨hinv, hreader⟩ := hi.mux hphase env
      exact ⟨hinv, by rw [hreader]⟩
    · cases h

/-- A step that does not go back did not snap back. -/
theorem snapsForward_of_neverBack (h : s.NeverBack l) : s.SnapsForward l := by
  cases l with
  | check =>
    rw [SnapsForward]
    split
    · next hphase =>
      intro hlag
      have hstep : s.step .check = some s.check := by rw [HlsLoop.step, hphase]
      have hle := (h s.check hstep).1
      rwa [HlsLoop.check, if_pos hlag] at hle
    · trivial
  | _ => trivial

/-- Along every run without a reset, the cursor never goes back and no frame is given to `on_frame`
twice **if and only if** no check snaps to a key frame behind the cursor. -/
theorem neverBack_iff (stream : Stream) (segmentDuration : F) (maxSegments : ℕ)
    {ls : List HlsLoopStep}
    (hkeeps : Always step KeepsHub (HlsLoop.init stream segmentDuration maxSegments) ls) :
    Always step NeverBack (HlsLoop.init stream segmentDuration maxSegments) ls ↔
      Always step SnapsForward (HlsLoop.init stream segmentDuration maxSegments) ls := by
  refine always_iff_of_always (I := Inv) (fun s l hi hl => ?_) (fun s l s' hi hl hG h => ?_)
    (Inv.init stream segmentDuration maxSegments) hkeeps
  · refine ⟨snapsForward_of_neverBack, fun hforward s' h => ?_⟩
    obtain ⟨hinv, hle⟩ := hi.step hl hforward h
    exact ⟨hle, (List.pairwise_append.mp hinv.rising).1⟩
  · exact (hi.step hl hG h).1

instance (s : HlsLoop F) (l : HlsLoopStep) : Decidable (s.NeverBack l) :=
  inferInstanceAs (Decidable (∀ s' ∈ s.step l, s.reader.cursor ≤ s'.reader.cursor ∧
    s'.passed.Pairwise (· < ·)))

instance : (s : HlsLoop F) → (l : HlsLoopStep) → Decidable (s.KeepsHub l)
  | _, .reset => inferInstanceAs (Decidable False)
  | _, .publish _ | _, .subscribe | _, .finishPrime | _, .check | _, .recv | _, .wake | _, .mux _ =>
    inferInstanceAs (Decidable True)

/-- A key frame is published and muxed. -/
def firstFrame : List HlsLoopStep :=
  [.publish (.new "live" 0 0 [0x65, 1] true .h264), .subscribe, .finishPrime, .check, .recv,
    .mux testEnv]

/-- The rest of its GOP is longer than a lag may be. -/
def longGop : List HlsLoopStep :=
  firstFrame ++ List.replicate 32 (.publish (.new "live" 0 40 [0x41, 1] false .h264)) ++
    [.check, .recv, .mux testEnv]

theorem neverBack_firstFrame :
    Always step KeepsHub testLoop firstFrame ∧
      (Always step NeverBack testLoop firstFrame ↔
          Always step SnapsForward testLoop firstFrame) := by
  have hkeeps : Always step KeepsHub testLoop firstFrame := by decide +kernel
  exact ⟨hkeeps, neverBack_iff (StreamHub.new "live").stream 1 5 hkeeps⟩

/-- The key frame is muxed, a lag of 31 frames puts the cursor **back to it**, and it is muxed
again. -/
theorem not_neverBack_longGop :
    Always step KeepsHub testLoop longGop ∧
      (exec step testLoop longGop).map HlsLoop.passed = some [0, 0] ∧
      ¬Always step NeverBack testLoop longGop := by
  decide +kernel

end HlsLoop

end VcpMediaServer
