import VcpMediaServer.Dispatch

/-!
# Readers across a reset

A hub with any number of readers. `StreamHub::reset` puts a new ring in place of
the old one, whose numbers start at zero, while the readers keep their cursors.

* `HubReaders.step` — a call on the hub, or on one of its readers.
* `HubReaders.Behind` — no cursor is beyond the number the ring assigns next. A
  reader that is would **pass over** the frames up to its cursor.
* `HubReaders.KeepsUp` — the condition under which one call keeps `Behind`.
* `behind_iff_keepsUp` — along every run, the two are the same.
-/

namespace VcpMediaServer

open Lts

namespace RingInv

open FrameRing

variable {fs : List MediaFrame} {r : FrameRing}

/-- A stored number has been assigned. -/
theorem seq_lt_writeSeq (h : RingInv fs r) {f : StoredFrame} (hf : f ∈ r.slots) :
    f.seq < r.writeSeq := by
  rw [h.writeSeq_eq]
  exact seq_lt_of_mem_stamped (h.mem_stamped hf)

/-- The number after the latest one, where a frame is stored. -/
theorem latestSeq_succ (h : RingInv fs r) {f : StoredFrame} (hf : f ∈ r.slots) :
    r.latestSeq + 1 = r.writeSeq := by
  have hlt := h.seq_lt_writeSeq hf
  rw [latestSeq]
  omega

/-- A snap to the latest key frame stays within the numbers assigned. -/
theorem snap_latestIdr_le (h : RingInv fs r) : r.snap .latestIdr ≤ r.latestSeq := by
  rw [snap, h.latestIdrSeq_eq]
  rcases hk : (keySeqs fs).getLast? with _ | k
  · exact le_rfl
  · have hlt := lt_of_mem_keySeqs (List.mem_of_getLast? hk)
    rw [Option.getD_some, latestSeq, h.writeSeq_eq]
    omega

end RingInv

theorem FrameRing.mem_framesFrom {r : FrameRing} {a b : ℕ} {f : StoredFrame} :
    f ∈ r.framesFrom a b ↔ f ∈ r.slots ∧ a ≤ f.seq ∧ f.seq ≤ b := by
  simp [framesFrom]

/-- A range that holds a frame. -/
theorem FrameRing.exists_of_framesFrom_ne_nil {r : FrameRing} {a b : ℕ}
    (h : r.framesFrom a b ≠ []) : ∃ f ∈ r.slots, a ≤ f.seq ∧ f.seq ≤ b := by
  obtain ⟨f, hf⟩ := List.exists_mem_of_ne_nil _ h
  exact ⟨f, mem_framesFrom.mp hf⟩

theorem FrameRing.mem_of_oldestSeq {r : FrameRing} {n : ℕ} (h : r.oldestSeq = some n) :
    ∃ f ∈ r.slots, f.seq = n := by
  obtain ⟨f, hf, hn⟩ := Option.map_eq_some_iff.mp h
  exact ⟨f, List.mem_of_head? hf, hn⟩

theorem FrameRing.mem_of_get {r : FrameRing} {n : ℕ} {f : StoredFrame} (h : r.get n = some f) :
    f ∈ r.slots ∧ f.seq = n :=
  ⟨List.mem_of_find?_eq_some h, by simpa using List.find?_some h⟩

/-! ## What receiving does to the cursor -/

namespace DispatchReader

variable {fs : List MediaFrame} {h : StreamHub} {r : DispatchReader}

/-- A cursor after a range that holds a frame and ends at the live edge at most. -/
theorem succ_le_writeSeq (hinv : RingInv fs h.ring) {a b : ℕ} (hne : h.framesFrom a b ≠ [])
    (hb : b ≤ h.latestSeq) : b + 1 ≤ h.ring.writeSeq := by
  obtain ⟨f, hf, -⟩ := FrameRing.exists_of_framesFrom_ne_nil hne
  rw [← hinv.latestSeq_succ hf]
  exact Nat.succ_le_succ hb

theorem recvCatchup_cursor_le (hinv : RingInv fs h.ring) (hr : r.cursor ≤ h.ring.writeSeq)
    (until' : ℕ) : (r.recvCatchup h until').2.cursor ≤ h.ring.writeSeq := by
  rw [recvCatchup]
  split
  · exact hr
  · dsimp only
    split
    · exact hr
    · next hne => exact succ_le_writeSeq hinv hne (Nat.min_le_left _ _)

/-- The snap of a lagging reader: its lag shows that frames have been numbered. -/
theorem snapOnLag_cursor_le (hr : r.cursor ≤ h.ring.writeSeq) :
    (r.snapOnLag h).cursor ≤ h.ring.writeSeq := by
  rw [snapOnLag]
  split
  · next hlag =>
    have hlt := hlag.2
    change h.ring.latestSeq + 1 ≤ h.ring.writeSeq
    rw [StreamHub.latestSeq, FrameRing.latestSeq] at hlt
    rw [FrameRing.latestSeq]
    omega
  · exact hr

theorem jumpToIdr_cursor_le (hinv : RingInv fs h.ring) (hr : r.cursor ≤ h.ring.writeSeq) :
    (r.jumpToIdr h).2.cursor ≤ h.ring.writeSeq := by
  rw [jumpToIdr]
  split
  · exact hr
  · next oldest hold =>
    obtain ⟨f, hf, rfl⟩ := FrameRing.mem_of_oldestSeq hold
    have hlatest := hinv.latestSeq_succ hf
    have hsnap := hinv.snap_latestIdr_le
    have hseq := hinv.seq_lt_writeSeq hf
    have hmax : max (h.snap .latestIdr) f.seq ≤ h.ring.writeSeq := by
      rw [StreamHub.snap]
      omega
    split
    · dsimp only
      split
      · split
        · exact hmax
        · next hne => exact succ_le_writeSeq hinv hne (Nat.min_le_left _ _)
      · exact hmax
    · exact hr

theorem deliver_cursor_le (hinv : RingInv fs h.ring) {frames : List StoredFrame} {stop : ℕ}
    (hstop : stop + 1 ≤ h.ring.writeSeq) :
    (r.deliver h frames stop).2.cursor ≤ h.ring.writeSeq := by
  rw [deliver]
  split
  · split
    · split
      · next idrSeq hidr =>
        -- the catch-up begins after a frame of the ring
        have hany := List.find?_some (p := fun seq => (h.ring.get seq).any
          StoredFrame.isPlayableIdr) hidr
        obtain ⟨f, hf, -⟩ := (Option.any_eq_true _ _).mp hany
        obtain ⟨hmem, rfl⟩ := FrameRing.mem_of_get hf
        exact hinv.seq_lt_writeSeq hmem
      · exact hstop
    · exact hstop
  · exact hstop
  · exact hstop
  · exact hstop

theorem batchEnd_le_latestSeq (hr : r.cursor ≤ h.latestSeq) : r.batchEnd h ≤ h.latestSeq := by
  rw [batchEnd]
  split
  · exact Nat.min_le_left _ _
  · exact Nat.min_le_left _ _
  · exact le_rfl
  · exact hr

/-- **Receiving** leaves a reader behind the ring that was behind it. -/
theorem recvBatch_cursor_le (hinv : RingInv fs h.ring) (hr : r.cursor ≤ h.ring.writeSeq) :
    (r.recvBatch h).2.cursor ≤ h.ring.writeSeq := by
  have hrange : (r.recvRange h).2.cursor ≤ h.ring.writeSeq := by
    have hsnap := snapOnLag_cursor_le hr
    rw [recvRange]
    dsimp only
    split
    · exact hsnap
    · next hle =>
      split
      · exact jumpToIdr_cursor_le hinv hsnap
      · next hne =>
        exact deliver_cursor_le hinv
          (succ_le_writeSeq hinv hne (batchEnd_le_latestSeq (Nat.le_of_not_lt hle)))
  rw [recvBatch]
  split
  · exact recvCatchup_cursor_le hinv hr _
  · exact hrange

/-- Priming puts the cursor on a stored frame, or leaves it. -/
theorem primeCheck_cursor_le (hinv : RingInv fs h.ring) (hr : r.cursor ≤ h.ring.writeSeq)
    (baseline : ℕ) : (r.primeCheck h baseline).2.cursor ≤ h.ring.writeSeq := by
  rw [primeCheck]
  split
  · exact hr
  · next idrSeq _ =>
    split
    · split
      · next idr hidr =>
        obtain ⟨hget, -⟩ := Option.filter_eq_some_iff.mp hidr
        obtain ⟨hmem, rfl⟩ := FrameRing.mem_of_get hget
        exact Nat.le_of_lt (hinv.seq_lt_writeSeq hmem)
      · exact hr
    · exact hr

end DispatchReader

/-! ## A hub and its readers -/

/-- A reader, and whether it is waiting in `ensure_data`. -/
structure Subscriber where
  /-- The reader. -/
  reader : DispatchReader
  /-- Whether a call of it awaits `wake.changed()`. -/
  waiting : Bool
  deriving DecidableEq, Repr

/-- A call on a reader. A call made while another waits gives that one up. -/
inductive ReaderOp where
  /-- `recv_batch`: answered at once, or left to wait. -/
  | recv
  /-- A waiting `recv_batch` finds the watch channel changed. -/
  | wake
  | setCursor (cursor : ℕ)
  | advanceCursor
  | snapToLiveEdge
  | snapToLatestIdr
  | beginVideoCatchupAfterIdr (idrSeq batchEnd : ℕ)
  | clearVideoCatchup
  | prime (baselineLatest : ℕ)
  | finishPrime
  | recoverLag
  | takeMuxerResync
  | takeLiveSnap
  deriving DecidableEq, Repr

namespace Subscriber

/-- The reader is left as `r`, and nothing of it waits. -/
def at' (r : DispatchReader) : Subscriber := ⟨r, false⟩

/-- The call on the reader; `none` if it is not there to be made. -/
def apply (u : Subscriber) (h : StreamHub) : ReaderOp → Option Subscriber
  | .recv =>
    some (if u.reader.ensureReady h then at' (u.reader.recvBatch h).2 else ⟨u.reader, true⟩)
  | .wake =>
    if u.waiting && u.reader.wake != h.seqTx then
      some (at' ((u.reader.seen h.seqTx).recvBatch h).2)
    else none
  | .setCursor c => some (at' (u.reader.setCursor c))
  | .advanceCursor => some (at' u.reader.advanceCursor)
  | .snapToLiveEdge => some (at' (u.reader.snapToLiveEdge h))
  | .snapToLatestIdr => some (at' (u.reader.snapToLatestIdr h))
  | .beginVideoCatchupAfterIdr idr stop => some (at' (u.reader.beginVideoCatchupAfterIdr idr stop))
  | .clearVideoCatchup => some (at' u.reader.clearVideoCatchup)
  | .prime baseline => some (at' (u.reader.primeCheck h baseline).2)
  | .finishPrime => some (at' (u.reader.finishPrime h))
  | .recoverLag => some (at' (u.reader.recoverLag h))
  | .takeMuxerResync => some (at' u.reader.takeMuxerResync.2)
  | .takeLiveSnap => some (at' u.reader.takeLiveSnap.2)

end Subscriber

/-- A hub and its readers. -/
structure HubReaders where
  /-- The hub. -/
  hub : StreamHub
  /-- The readers, in the order of their creation. -/
  readers : List Subscriber
  deriving DecidableEq, Repr

/-- A call on the hub or on one of its readers. -/
inductive HubCall where
  | publish (frame : MediaFrame)
  | reset
  | subscribe (policy : DispatchPolicy)
  | drop (i : ℕ)
  | reader (i : ℕ) (op : ReaderOp)
  deriving DecidableEq, Repr

namespace HubReaders

/-- A hub without readers. -/
def init (stream : Stream) : HubReaders := ⟨StreamHub.withStream stream, []⟩

/-- The call; `none` if it is not there to be made, or never returns. -/
def step (s : HubReaders) : HubCall → Option HubReaders
  | .publish f => (s.hub.publish f).map fun hub => { s with hub }
  | .reset => some { s with hub := s.hub.reset }
  | .subscribe policy =>
    some { s with readers := s.readers ++ [Subscriber.at' (DispatchReader.new s.hub policy)] }
  | .drop i => some { s with readers := s.readers.eraseIdx i }
  | .reader i op =>
    (s.readers[i]?).bind fun u => (u.apply s.hub op).map fun u' =>
      { s with readers := s.readers.set i u' }

/-- No reader is ahead of the ring: every cursor is at most the number that the
ring assigns next. -/
def Behind (s : HubReaders) : Prop :=
  ∀ u ∈ s.readers, u.reader.cursor ≤ s.hub.ring.writeSeq

instance (s : HubReaders) : Decidable s.Behind :=
  inferInstanceAs (Decidable (∀ u ∈ s.readers, u.reader.cursor ≤ s.hub.ring.writeSeq))

/-- After the call no reader is ahead of the ring. -/
def StaysBehind (s : HubReaders) (c : HubCall) : Prop :=
  ∀ s', s.step c = some s' → s'.Behind

/-- The condition on a call on one reader. -/
def OpKeepsUp (h : StreamHub) (r : DispatchReader) : ReaderOp → Prop
  | .setCursor c => c ≤ h.ring.writeSeq
  | .advanceCursor => r.cursor < h.ring.writeSeq
  | .snapToLiveEdge => 0 < h.ring.writeSeq
  | .recoverLag => 0 < h.ring.writeSeq
  | .finishPrime => r.policy = .sequentialFromIdr ∨ 0 < h.ring.writeSeq
  | .beginVideoCatchupAfterIdr idr _ => idr < h.ring.writeSeq
  | _ => True

/-- The condition on a call: a **reset** comes only while every cursor is at
zero; a reader is put to the **live edge** only of a ring that has numbered a
frame; and a cursor set from outside is not beyond the ring. -/
def KeepsUp (s : HubReaders) : HubCall → Prop
  | .publish _ => True
  | .reset => ∀ u ∈ s.readers, u.reader.cursor = 0
  | .subscribe policy => policy = .sequentialFromIdr ∨ 0 < s.hub.ring.writeSeq
  | .drop _ => True
  | .reader i op => ∀ u, s.readers[i]? = some u → OpKeepsUp s.hub u.reader op

/-- The ring of the hub is one that pushes lead to, and no reader is ahead. -/
structure Inv (s : HubReaders) : Prop where
  /-- The history of the ring since the last reset. -/
  ring : ∃ fs, RingInv fs s.hub.ring
  /-- The property. -/
  behind : s.Behind

theorem Inv.init (stream : Stream) : (HubReaders.init stream).Inv where
  ring := ⟨[], RingInv.withCapacity _ _⟩
  behind := fun _ hu => absurd hu List.not_mem_nil

/-- A call keeps the ring one that pushes lead to. -/
theorem ring_step {s s' : HubReaders} {c : HubCall} (hi : ∃ fs, RingInv fs s.hub.ring)
    (h : s.step c = some s') : ∃ fs, RingInv fs s'.hub.ring := by
  obtain ⟨fs, hfs⟩ := hi
  cases c with
  | publish f =>
    obtain ⟨hub, hpub, rfl⟩ := Option.map_eq_some_iff.mp h
    obtain ⟨ring, hring, rfl⟩ := StreamHub.publish_eq_some.mp hpub
    exact ⟨fs ++ [f], hfs.push hring⟩
  | reset =>
    obtain rfl := Option.some.inj h
    exact ⟨[], RingInv.withCapacity _ _⟩
  | subscribe policy =>
    obtain rfl := Option.some.inj h
    exact ⟨fs, hfs⟩
  | drop i =>
    obtain rfl := Option.some.inj h
    exact ⟨fs, hfs⟩
  | reader i op =>
    obtain ⟨u, -, hu⟩ := Option.bind_eq_some_iff.mp h
    obtain ⟨u', -, rfl⟩ := Option.map_eq_some_iff.mp hu
    exact ⟨fs, hfs⟩

/-- A live-edge snap is within the ring **exactly if** a frame has been numbered. -/
theorem liveEdge_le_iff (h : StreamHub) :
    h.snap .liveEdge + 1 ≤ h.ring.writeSeq ↔ 0 < h.ring.writeSeq := by
  change h.ring.writeSeq - 1 + 1 ≤ h.ring.writeSeq ↔ _
  omega

/-- A snap to the latest key frame is always within the ring. -/
theorem latestIdr_le {h : StreamHub} {fs : List MediaFrame} (hfs : RingInv fs h.ring) :
    h.snap .latestIdr ≤ h.ring.writeSeq :=
  hfs.snap_latestIdr_le.trans (Nat.sub_le _ _)

/-- A new reader is behind the ring **exactly if** its condition holds. -/
theorem new_cursor_le_iff {h : StreamHub} {fs : List MediaFrame} (hfs : RingInv fs h.ring)
    (policy : DispatchPolicy) :
    (DispatchReader.new h policy).cursor ≤ h.ring.writeSeq ↔
      policy = .sequentialFromIdr ∨ 0 < h.ring.writeSeq := by
  cases policy with
  | sequentialFromIdr => exact iff_of_true (latestIdr_le hfs) (.inl rfl)
  | liveCoalesce => exact (liveEdge_le_iff h).trans (by simp)
  | webRtcPlay => exact (liveEdge_le_iff h).trans (by simp)
  | liveSequential => exact (liveEdge_le_iff h).trans (by simp)

/-- A reader that was behind the ring is so after a call **exactly if** the
condition on the call holds. -/
theorem apply_cursor_le_iff {h : StreamHub} {fs : List MediaFrame} (hfs : RingInv fs h.ring)
    {u u' : Subscriber} {op : ReaderOp} (hu : u.reader.cursor ≤ h.ring.writeSeq)
    (ha : u.apply h op = some u') :
    u'.reader.cursor ≤ h.ring.writeSeq ↔ OpKeepsUp h u.reader op := by
  cases op with
  | recv =>
    obtain rfl := Option.some.inj ha
    refine iff_of_true ?_ trivial
    split
    · exact DispatchReader.recvBatch_cursor_le hfs hu
    · exact hu
  | wake =>
    rw [Subscriber.apply, Option.ite_none_right_eq_some] at ha
    obtain rfl := Option.some.inj ha.2
    exact iff_of_true (DispatchReader.recvBatch_cursor_le hfs hu) trivial
  | setCursor c =>
    obtain rfl := Option.some.inj ha
    exact Iff.rfl
  | advanceCursor =>
    obtain rfl := Option.some.inj ha
    exact Iff.rfl
  | snapToLiveEdge =>
    obtain rfl := Option.some.inj ha
    exact liveEdge_le_iff h
  | snapToLatestIdr =>
    obtain rfl := Option.some.inj ha
    exact iff_of_true (latestIdr_le hfs) trivial
  | beginVideoCatchupAfterIdr idr stop =>
    obtain rfl := Option.some.inj ha
    exact Iff.rfl
  | clearVideoCatchup =>
    obtain rfl := Option.some.inj ha
    exact iff_of_true hu trivial
  | prime baseline =>
    obtain rfl := Option.some.inj ha
    exact iff_of_true (DispatchReader.primeCheck_cursor_le hfs hu baseline) trivial
  | finishPrime =>
    obtain rfl := Option.some.inj ha
    change (u.reader.finishPrime h).cursor ≤ _ ↔ u.reader.policy = .sequentialFromIdr ∨ _
    rw [DispatchReader.finishPrime]
    rcases u.reader.policy with _ | _ | _ | _
    · exact (liveEdge_le_iff h).trans (by simp)
    · exact iff_of_true (latestIdr_le hfs) (.inl rfl)
    · exact (liveEdge_le_iff h).trans (by simp)
    · exact (liveEdge_le_iff h).trans (by simp)
  | recoverLag =>
    obtain rfl := Option.some.inj ha
    exact liveEdge_le_iff h
  | takeMuxerResync =>
    obtain rfl := Option.some.inj ha
    exact iff_of_true hu trivial
  | takeLiveSnap =>
    obtain rfl := Option.some.inj ha
    exact iff_of_true hu trivial

/-- One call leaves no reader ahead of the ring **exactly if** it meets the
condition, or cannot be made. -/
theorem staysBehind_iff {s : HubReaders} (hi : s.Inv) (c : HubCall) :
    s.StaysBehind c ↔ (∀ s', s.step c = some s' → s.KeepsUp c) := by
  obtain ⟨fs, hfs⟩ := hi.ring
  refine forall_congr' fun s' => imp_congr_right fun h => ?_
  cases c with
  | publish f =>
    obtain ⟨hub, hpub, rfl⟩ := Option.map_eq_some_iff.mp h
    obtain ⟨ring, hring, rfl⟩ := StreamHub.publish_eq_some.mp hpub
    refine iff_of_true (fun u hu => ?_) trivial
    have hle := hi.behind u hu
    have hnext := (hfs.push hring).writeSeq_eq
    rw [List.length_append, List.length_singleton, ← hfs.writeSeq_eq] at hnext
    change u.reader.cursor ≤ ring.writeSeq
    omega
  | reset =>
    obtain rfl := Option.some.inj h
    exact forall_congr' fun u => imp_congr_right fun _ => Nat.le_zero
  | subscribe policy =>
    obtain rfl := Option.some.inj h
    refine Iff.trans ?_ (new_cursor_le_iff hfs policy)
    constructor
    · exact fun hb => hb _ (List.mem_append_right _ (List.mem_singleton_self _))
    · intro hnew u hu
      rcases List.mem_append.mp hu with hu | hu
      · exact hi.behind u hu
      · obtain rfl := List.mem_singleton.mp hu
        exact hnew
  | drop i =>
    obtain rfl := Option.some.inj h
    exact iff_of_true (fun u hu => hi.behind u ((List.eraseIdx_sublist _ _).subset hu)) trivial
  | reader i op =>
    obtain ⟨u, hu, hap⟩ := Option.bind_eq_some_iff.mp h
    obtain ⟨u', hu', rfl⟩ := Option.map_eq_some_iff.mp hap
    have hlt := (List.getElem?_eq_some_iff.mp hu).1
    have hiff := apply_cursor_le_iff hfs (hi.behind u (List.mem_of_getElem? hu)) hu'
    constructor
    · intro hb v hv
      obtain rfl := Option.some.inj (hu.symm.trans hv)
      exact hiff.mp (hb u' (List.mem_set hlt u'))
    · intro hk v hv
      rcases List.mem_or_eq_of_mem_set hv with hv | rfl
      · exact hi.behind v hv
      · exact hiff.mpr (hk u hu)

/-- The condition of a call, where the call can be made. -/
def Meets (s : HubReaders) (c : HubCall) : Prop := ∀ s', s.step c = some s' → s.KeepsUp c

/-- Along every run of a hub and its readers, no reader is ever ahead of the ring
**exactly if** every call meets its condition. -/
theorem behind_iff_keepsUp (stream : Stream) (cs : List HubCall) :
    Always HubReaders.step StaysBehind (HubReaders.init stream) cs ↔
      Always HubReaders.step Meets (HubReaders.init stream) cs :=
  always_iff_of_inv (fun _ c hi => staysBehind_iff hi c)
    (fun _ c s' hi hg h => ⟨ring_step hi.ring h, (staysBehind_iff hi c).mpr hg s' h⟩)
    (Inv.init stream)

/-- A reader that has read one frame is ahead of the ring after a **reset**, and
passes over the next publisher's first frame. -/
theorem not_behind_after_reset :
    ¬ Always HubReaders.step StaysBehind (HubReaders.init (StreamHub.new "live").stream)
      [.subscribe .sequentialFromIdr, .publish (testFrame true), .reader 0 .recv, .reset] := by
  intro h
  obtain ⟨r, hr⟩ : ∃ r, exec HubReaders.step (HubReaders.init (StreamHub.new "live").stream)
      [.subscribe .sequentialFromIdr, .publish (testFrame true), .reader 0 .recv] = some r :=
    ⟨_, rfl⟩
  have hstays := always_iff.mp h _ .reset ⟨[], rfl⟩ r hr
  obtain rfl := Option.some.inj hr
  exact absurd (hstays _ rfl) (by decide)

end HubReaders

end VcpMediaServer
