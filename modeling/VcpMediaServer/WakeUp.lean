import VcpMediaServer.ReaderCursor

/-!
# Waking a waiting reader

`ensure_data` looks at the ring and then waits on a watch channel, while publishes and
resets change the ring and **then** send to the channel. Nothing holds the two together:
each look and each change takes the lock of the ring for itself, and any number of
publishers may be between their change and their notification.

* `WakeUp.step` — one look, one change or one notification.
* `WakeUp.NotLeft` — once every publish and reset has notified, a reader that waits
  while there is a frame for it **can go on**.
* `not_left_waiting` — so it is in every state of every interleaving.
* `WakeUp.Inv` — a waiting reader with a frame to read is owed a notification, or has
  one that it has not seen.
-/

namespace VcpMediaServer

open Lts

/-- Where a reader is. -/
inductive ReaderPhase where
  /-- In `DispatchReader::new`: it listens to the channel and has no cursor yet. -/
  | subscribed
  /-- Outside `ensure_data`. -/
  | idle
  /-- In `ensure_data`, and the ring was not empty. -/
  | notEmpty
  /-- It awaits `wake.changed()`. -/
  | waiting
  /-- `ensure_data` has returned, and the rest of `recv_batch` is to come. -/
  | ready
  deriving DecidableEq, Repr

/-- A hub, the publishes and resets on it, and one of its readers. -/
structure WakeUp where
  /-- The hub. -/
  hub : StreamHub
  /-- How many publishes and resets have changed the ring and not notified yet. -/
  pending : ℕ
  /-- The reader, once it has subscribed. -/
  reader : Option (DispatchReader × ReaderPhase)
  deriving DecidableEq, Repr

/-- A step of a publisher or of the reader. -/
inductive WakeUpStep where
  /-- `publish` pushes a frame. -/
  | push (frame : MediaFrame)
  /-- `reset` puts a new ring in place. -/
  | replace
  /-- A `publish` or `reset` sends to the watch channel, and is over. -/
  | notify
  /-- `DispatchReader::new` subscribes to the channel. -/
  | subscribe (policy : DispatchPolicy)
  /-- It puts the cursor into the ring. -/
  | snap
  /-- `ensure_data` asks whether the ring is empty. -/
  | checkEmpty
  /-- It asks for the latest number. -/
  | checkLatest
  /-- `wake.changed()` completes. -/
  | wake
  /-- The waiting call is given up. -/
  | giveUp
  /-- The rest of `recv_batch`, with nothing in between. -/
  | recvBatch
  /-- The rest of a `recv_batch` that others come in between of, or another call that
  moves the cursor: whatever it finds, it leaves the reader with some cursor. -/
  | move (cursor : ℕ)
  /-- `wait_new_frames` completes, which waits on the same channel. -/
  | waitNewFrames
  deriving DecidableEq, Repr

namespace WakeUp

/-- A new hub, without a reader. -/
def init (stream : Stream) : WakeUp := ⟨StreamHub.withStream stream, 0, none⟩

/-- The first half of `StreamHub::publish`, or `none` if the push never returns. -/
def pushed (h : StreamHub) (frame : MediaFrame) : Option StreamHub :=
  (h.ring.push frame).map fun ring => { h with ring }

/-- The first half of `StreamHub::reset`. -/
def replaced (h : StreamHub) : StreamHub := { h with ring := FrameRing.new }

/-- The second half of both: `seq_tx.send(..)`. -/
def notified (h : StreamHub) : StreamHub := { h with seqTx := h.seqTx + 1 }

/-- The halves make a publish. -/
theorem publish_eq (h : StreamHub) (frame : MediaFrame) :
    h.publish frame = (pushed h frame).map notified := by
  rw [StreamHub.publish, pushed, Option.map_map]
  rfl

/-- The halves make a reset. -/
theorem reset_eq (h : StreamHub) : h.reset = notified (replaced h) := rfl

/-- One step; `none` if it is not there to be made, or never returns. -/
def step (s : WakeUp) : WakeUpStep → Option WakeUp
  | .push f => (pushed s.hub f).map fun hub => { s with hub, pending := s.pending + 1 }
  | .replace => some { s with hub := replaced s.hub, pending := s.pending + 1 }
  | .notify =>
    if s.pending = 0 then none
    else some { s with hub := notified s.hub, pending := s.pending - 1 }
  | .subscribe policy =>
    match s.reader with
    | none => some { s with reader := some (DispatchReader.new s.hub policy, .subscribed) }
    | some _ => none
  | .snap =>
    match s.reader with
    | some (r, .subscribed) =>
      some { s with
        reader := some ({ DispatchReader.new s.hub r.policy with wake := r.wake }, .idle) }
    | _ => none
  | .checkEmpty =>
    match s.reader with
    | some (r, .idle) =>
      some { s with reader := some (r, if s.hub.isEmpty then .waiting else .notEmpty) }
    | _ => none
  | .checkLatest =>
    match s.reader with
    | some (r, .notEmpty) =>
      some { s with reader := some (r, if r.cursor ≤ s.hub.latestSeq then .ready else .waiting) }
    | _ => none
  | .wake =>
    match s.reader with
    | some (r, .waiting) =>
      if r.wake = s.hub.seqTx then none
      else some { s with reader := some (r.seen s.hub.seqTx, .ready) }
    | _ => none
  | .giveUp =>
    match s.reader with
    | some (r, .waiting) => some { s with reader := some (r, .idle) }
    | _ => none
  | .recvBatch =>
    match s.reader with
    | some (r, .ready) => some { s with reader := some ((r.recvBatch s.hub).2, .idle) }
    | _ => none
  | .move cursor =>
    match s.reader with
    | some (r, .ready) => some { s with reader := some (r.setCursor cursor, .idle) }
    | some (r, .idle) => some { s with reader := some (r.setCursor cursor, .idle) }
    | _ => none
  | .waitNewFrames =>
    match s.reader with
    | some (r, .idle) =>
      if r.wake = s.hub.seqTx then none
      else some { s with reader := some (r.seen s.hub.seqTx, .idle) }
    | _ => none

/-- The two looks of `ensure_data`, with nothing in between, are its test. -/
theorem check_in_a_row {s : WakeUp} {r : DispatchReader} (hr : s.reader = some (r, .idle)) :
    exec step s [.checkEmpty, .checkLatest] = some { s with reader := some (r, .ready) } ↔
      r.ensureReady s.hub = true := by
  rcases hempty : s.hub.isEmpty with _ | _
  · have hfirst : step s .checkEmpty = some { s with reader := some (r, .notEmpty) } := by
      simp [step, hr, hempty]
    rw [exec_cons_of_step hfirst]
    by_cases hle : r.cursor ≤ s.hub.latestSeq
    · simp [exec_cons, step, DispatchReader.ensureReady, hempty, hle]
    · simp [exec_cons, step, DispatchReader.ensureReady, hempty, hle]
  · have hfirst : step s .checkEmpty = some { s with reader := some (r, .waiting) } := by
      simp [step, hr, hempty]
    rw [exec_cons_of_step hfirst]
    simp [exec_cons, step, DispatchReader.ensureReady, hempty]

/-- A reader that waits, while a frame with its cursor's number or a later one is stored
and every publish and reset is over, **can go on**. -/
def NotLeft (s : WakeUp) : Prop :=
  ∀ r, s.reader = some (r, .waiting) → s.pending = 0 →
    (∃ f ∈ s.hub.ring.slots, r.cursor ≤ f.seq) → (s.step .wake).isSome

/-! ## The invariant -/

/-- What holds of the reader between two steps. -/
structure Inv (s : WakeUp) : Prop where
  /-- The ring is one that pushes lead to. -/
  ring : ∃ fs, RingInv fs s.hub.ring
  /-- The reader has seen no version that is still to come. -/
  wake : ∀ r p, s.reader = some (r, p) → r.wake ≤ s.hub.seqTx
  /-- A waiting reader has a version to see, or is owed one, or has nothing to read. -/
  owed : ∀ r, s.reader = some (r, .waiting) → r.wake ≠ s.hub.seqTx ∨ s.pending ≠ 0 ∨
    ∀ f ∈ s.hub.ring.slots, f.seq < r.cursor

variable {s s' : WakeUp} {l : WakeUpStep}

theorem Inv.init (stream : Stream) : (WakeUp.init stream).Inv where
  ring := ⟨[], RingInv.withCapacity _ _⟩
  wake := nofun
  owed := nofun

/-- A change of the ring is **owed** to the reader. -/
theorem Inv.change {hub : StreamHub} (hi : s.Inv) (hring : ∃ fs, RingInv fs hub.ring)
    (hseq : hub.seqTx = s.hub.seqTx) : Inv { s with hub, pending := s.pending + 1 } where
  ring := hring
  wake r p hr := by
    change r.wake ≤ hub.seqTx
    rw [hseq]
    exact hi.wake r p hr
  owed _ _ := .inr (.inl (Nat.succ_ne_zero _))

/-- A notification is one that the reader has not seen. -/
theorem Inv.notify (hi : s.Inv) :
    Inv { s with hub := notified s.hub, pending := s.pending - 1 } where
  ring := hi.ring
  wake r p hr := Nat.le_succ_of_le (hi.wake r p hr)
  owed r hr := .inl (Nat.ne_of_lt (Nat.lt_succ_of_le (hi.wake r _ hr)))

/-- A step of the reader that leaves it waiting for want of a frame. -/
theorem Inv.wait {r : DispatchReader} {p : ReaderPhase} (hi : s.Inv)
    (hwake : r.wake ≤ s.hub.seqTx)
    (hnone : p = .waiting → ∀ f ∈ s.hub.ring.slots, f.seq < r.cursor) :
    Inv { s with reader := some (r, p) } where
  ring := hi.ring
  wake r' p' hr := by
    cases hr
    exact hwake
  owed r' hr := by
    cases hr
    exact .inr (.inr (hnone rfl))

/-- A step of the reader that does not leave it waiting. -/
theorem Inv.reader {r : DispatchReader} {p : ReaderPhase} (hi : s.Inv)
    (hwake : r.wake ≤ s.hub.seqTx) (hp : p ≠ .waiting) : Inv { s with reader := some (r, p) } :=
  hi.wait hwake fun heq => absurd heq hp

/-- Receiving leaves the channel alone. -/
theorem recvBatch_wake (r : DispatchReader) (h : StreamHub) : (r.recvBatch h).2.wake = r.wake := by
  have hdeliver : ∀ (r' : DispatchReader) frames stop, (r'.deliver h frames stop).2.wake =
      r'.wake := by
    intro r' frames stop
    rw [DispatchReader.deliver]
    split
    · split
      · split <;> rfl
      · rfl
    · rfl
    · rfl
    · rfl
  have hjump : ∀ r' : DispatchReader, (r'.jumpToIdr h).2.wake = r'.wake := by
    intro r'
    rw [DispatchReader.jumpToIdr]
    split
    · rfl
    · split
      · dsimp only
        split
        · split <;> rfl
        · rfl
      · rfl
  have hrange : (r.recvRange h).2.wake = r.wake := by
    have hsnap : (r.snapOnLag h).wake = r.wake := by
      rw [DispatchReader.snapOnLag]
      split <;> rfl
    rw [DispatchReader.recvRange]
    dsimp only
    split
    · exact hsnap
    · split
      · exact (hjump _).trans hsnap
      · exact (hdeliver _ _ _).trans hsnap
  rw [DispatchReader.recvBatch]
  split
  · rw [DispatchReader.recvCatchup]
    dsimp only
    split
    · rfl
    · split <;> rfl
  · exact hrange

theorem Inv.push (hi : s.Inv) {f : MediaFrame} (h : s.step (.push f) = some s') : s'.Inv := by
  obtain ⟨fs, hfs⟩ := hi.ring
  obtain ⟨hub, hpush, rfl⟩ := Option.map_eq_some_iff.mp h
  obtain ⟨ring, hring, rfl⟩ := Option.map_eq_some_iff.mp hpush
  exact hi.change ⟨fs ++ [f], hfs.push hring⟩ rfl

/-- A reader that waits because the ring is empty passes no frame over. -/
theorem Inv.checkEmpty (hi : s.Inv) (h : s.step .checkEmpty = some s') : s'.Inv := by
  dsimp only [WakeUp.step] at h
  split at h
  · next r hr =>
    cases h
    refine hi.wait (hi.wake r _ hr) fun hp f hf => ?_
    have hempty : s.hub.ring.slots = [] := by
      by_contra hne
      simp [StreamHub.isEmpty, FrameRing.isEmpty, hne] at hp
    rw [hempty] at hf
    cases hf
  · cases h

/-- One that waits because it is behind the latest frame passes none over either. -/
theorem Inv.checkLatest (hi : s.Inv) (h : s.step .checkLatest = some s') : s'.Inv := by
  obtain ⟨fs, hfs⟩ := hi.ring
  dsimp only [WakeUp.step] at h
  split at h
  · next r hr =>
    cases h
    refine hi.wait (hi.wake r _ hr) fun hp f hf => ?_
    -- every stored number is at most the latest one, which is before the cursor
    have hlatest := hfs.latestSeq_succ hf
    have hlt := hfs.seq_lt_writeSeq hf
    have hcursor : ¬ r.cursor ≤ s.hub.latestSeq := by
      intro hle
      rw [if_pos hle] at hp
      cases hp
    rw [StreamHub.latestSeq] at hcursor
    omega
  · cases h

/-- A reader that sees a version has seen the latest. -/
theorem Inv.woken (hi : s.Inv) (h : s.step .wake = some s' ∨ s.step .waitNewFrames = some s') :
    s'.Inv := by
  rcases h with h | h
  all_goals
    dsimp only [WakeUp.step] at h
    split at h
    · split at h
      · cases h
      · cases h
        exact hi.reader le_rfl (by simp)
    · cases h

/-- A reader that is somewhere else has seen no other version. -/
theorem Inv.move (hi : s.Inv) {cursor : ℕ} (h : s.step (.move cursor) = some s') : s'.Inv := by
  dsimp only [WakeUp.step] at h
  split at h
  · next r hr =>
    cases h
    exact hi.reader (hi.wake r _ hr) (by simp)
  · next r hr =>
    cases h
    exact hi.reader (hi.wake r _ hr) (by simp)
  · cases h

/-- **Every step** keeps the invariant. -/
theorem Inv.step (hi : s.Inv) (h : s.step l = some s') : s'.Inv := by
  cases l with
  | push f => exact hi.push h
  | checkEmpty => exact hi.checkEmpty h
  | checkLatest => exact hi.checkLatest h
  | wake => exact hi.woken (.inl h)
  | waitNewFrames => exact hi.woken (.inr h)
  | move cursor => exact hi.move h
  | replace =>
    cases h
    exact hi.change ⟨[], RingInv.withCapacity _ _⟩ rfl
  | notify =>
    rw [WakeUp.step, Option.ite_none_left_eq_some] at h
    obtain ⟨-, h⟩ := h
    cases h
    exact hi.notify
  | subscribe policy =>
    dsimp only [WakeUp.step] at h
    split at h
    · cases h
      exact hi.reader le_rfl (by simp)
    · cases h
  | snap =>
    dsimp only [WakeUp.step] at h
    split at h
    · next r hr =>
      cases h
      exact hi.reader (hi.wake r _ hr) (by simp)
    · cases h
  | giveUp =>
    dsimp only [WakeUp.step] at h
    split at h
    · next r hr =>
      cases h
      exact hi.reader (hi.wake r _ hr) (by simp)
    · cases h
  | recvBatch =>
    dsimp only [WakeUp.step] at h
    split at h
    · next r hr =>
      cases h
      exact hi.reader ((recvBatch_wake r s.hub).trans_le (hi.wake r _ hr)) (by simp)
    · cases h

/-- Under the invariant a waiting reader can go on. -/
theorem Inv.notLeft (hi : s.Inv) : s.NotLeft := by
  rintro r hr hpending ⟨f, hf, hle⟩
  have hne : r.wake ≠ s.hub.seqTx := by
    rcases hi.owed r hr with hne | howed | hnone
    · exact hne
    · exact absurd hpending howed
    · exact absurd hle (Nat.not_le.mpr (hnone f hf))
  simp [WakeUp.step, hr, hne]

/-- In every state of every interleaving, a reader that waits while a frame for it is
stored can go on as soon as all publishes and resets are over: **no wake-up is lost**. -/
theorem not_left_waiting (stream : Stream) (ls : List WakeUpStep) {s : WakeUp}
    (h : exec WakeUp.step (WakeUp.init stream) ls = some s) : s.NotLeft :=
  (exec_inv' (fun _ _ _ hi hs => Inv.step hi hs) (Inv.init stream) h).notLeft

/-- A reader waits that has used up the notification of the frame it read, and a frame
for it comes. -/
theorem not_left_after_wake :
    ∃ s r, exec WakeUp.step (WakeUp.init (StreamHub.new "live").stream)
        [.subscribe .sequentialFromIdr, .push (testFrame true), .snap, .checkEmpty, .checkLatest,
          .recvBatch, .checkEmpty, .checkLatest, .notify, .wake, .recvBatch, .checkEmpty,
          .checkLatest, .push (testFrame false), .notify] = some s ∧
      s.reader = some (r, .waiting) ∧ s.pending = 0 ∧ r.cursor = 1 ∧ s.NotLeft :=
  ⟨_, _, rfl, rfl, rfl, rfl, not_left_waiting (StreamHub.new "live").stream
    [.subscribe .sequentialFromIdr, .push (testFrame true), .snap, .checkEmpty, .checkLatest,
      .recvBatch, .checkEmpty, .checkLatest, .notify, .wake, .recvBatch, .checkEmpty,
      .checkLatest, .push (testFrame false), .notify] rfl⟩

end WakeUp

end VcpMediaServer
