import VcpMediaServer.StreamManager

/-!
# Publisher handover

Taking or giving back the slot of a stream is **three steps**: the slot changes
under one lock, then the ring is replaced under another, then the parameter sets
are cleared under a third. Here any number of publishers take these steps on one
hub in any order, beside publishing and storing parameter sets.

* `Handover.step` — one step of one publisher.
* `Handover.Harmful` — a reset or clear that is left over from **before** a
  publisher's acquire returned, and wipes what that publisher has stored since.
* `exec_acquire_eq`, `exec_release_eq` — taken without a break, the steps are
  the manager's functions.
* `handover_safe` — without an acquire that succeeds while another publisher
  still has steps to do, no step is harmful.
-/

namespace VcpMediaServer

open Lts

/-- The two functions that end in `reset_stream_media`. -/
inductive SlotOp where
  | acquire
  | release
  deriving DecidableEq, Repr

/-- What is left to do of `reset_stream_media`: replace the ring, then clear the
parameter sets. -/
inductive MediaStep where
  | reset
  | clear
  deriving DecidableEq, Repr

/-- Where a publisher is. -/
inductive Phase where
  | idle
  /-- The slot has changed; `next` is the next step to take. -/
  | running (op : SlotOp) (next : MediaStep)
  deriving DecidableEq, Repr

/-- Who stored a frame or a parameter set, and when that publisher's last
acquire had returned. -/
structure StoredBy where
  /-- The publisher. -/
  publisher : String
  /-- The time its last acquire returned, if one had. -/
  since : Option ℕ
  deriving DecidableEq, Repr

/-- One hub and its publishers. Everything from `clock` on is **history** that
no step reads. -/
structure Handover where
  /-- The hub of the stream. -/
  hub : StreamHub
  /-- Where each publisher is. -/
  phase : String → Phase
  /-- The number of steps taken. -/
  clock : ℕ
  /-- When each publisher's running operation changed the slot. -/
  started : String → ℕ
  /-- When each publisher's last acquire returned. -/
  returned : String → Option ℕ
  /-- Whether a publisher has acquired the slot and not given it back. -/
  holding : String → Bool
  /-- Who stored the frame under a number, since the ring was replaced. -/
  frameBy : ℕ → Option StoredBy
  /-- Who stored the parameter sets, since they were cleared. -/
  configBy : Option StoredBy

/-- One step of one publisher. -/
inductive HandoverStep where
  | acquire (p : String)
  | release (p : String)
  | reset (p : String)
  | clear (p : String)
  | publish (p : String) (frame : MediaFrame)
  | setSpsPps (p : String) (sps pps : List UInt8)
  deriving DecidableEq, Repr

namespace Handover

/-- A new hub, before any publisher. -/
def init (stream : Stream) : Handover where
  hub := StreamHub.withStream stream
  phase := fun _ => .idle
  clock := 0
  started := fun _ => 0
  returned := fun _ => none
  holding := fun _ => false
  frameBy := fun _ => none
  configBy := none

/-- The publisher `p` is about to do something else than finish an operation. -/
def Idle (s : Handover) (p : String) : Prop := s.phase p = .idle

instance (s : Handover) (p : String) : Decidable (s.Idle p) :=
  inferInstanceAs (Decidable (s.phase p = .idle))

/-- The slot step of `acquire_publisher`. A rejected acquire is over at once. -/
def acquireStep (s : Handover) (p : String) : Handover :=
  match s.hub.acquirePublisher p with
  | (hub, .ok ()) =>
    { s with
      hub
      phase := Function.update s.phase p (.running .acquire .reset)
      started := Function.update s.started p s.clock
      holding := Function.update s.holding p true
      clock := s.clock + 1 }
  | (_, .error _) => { s with clock := s.clock + 1 }

/-- The slot step of `release_publisher`. -/
def releaseStep (s : Handover) (p : String) : Handover :=
  match s.hub.releasePublisher p with
  | (hub, true) =>
    { s with
      hub
      phase := Function.update s.phase p (.running .release .reset)
      started := Function.update s.started p s.clock
      holding := Function.update s.holding p false
      clock := s.clock + 1 }
  | (_, false) => { s with clock := s.clock + 1 }

/-- The ring step of `reset_stream_media`. -/
def resetStep (s : Handover) (p : String) (op : SlotOp) : Handover :=
  { s with
    hub := s.hub.reset
    phase := Function.update s.phase p (.running op .clear)
    frameBy := fun _ => none
    clock := s.clock + 1 }

/-- The parameter-set step of `reset_stream_media`, after which the operation
returns. -/
def clearStep (s : Handover) (p : String) (op : SlotOp) : Handover :=
  { s with
    hub := s.hub.updateStream fun stream => { stream with sps := none, pps := none }
    phase := Function.update s.phase p .idle
    returned := if op = .acquire then Function.update s.returned p (some s.clock) else s.returned
    configBy := none
    clock := s.clock + 1 }

/-- `publish_frame`, on the ring. -/
def publishStep (s : Handover) (p : String) (frame : MediaFrame) : Option Handover :=
  (s.hub.publish frame).map fun hub =>
    { s with
      hub
      frameBy := Function.update s.frameBy s.hub.ring.writeSeq (some ⟨p, s.returned p⟩)
      clock := s.clock + 1 }

/-- `set_stream_sps_pps`. -/
def setSpsPpsStep (s : Handover) (p : String) (sps pps : List UInt8) : Handover :=
  { s with
    hub := s.hub.updateStream fun stream => { stream with sps := some sps, pps := some pps }
    configBy := some ⟨p, s.returned p⟩
    clock := s.clock + 1 }

/-- One step. A publisher works through its calls one after the other, but
nothing else is asked of it: it may publish **without the slot**. -/
def step (s : Handover) : HandoverStep → Option Handover
  | .acquire p => if s.Idle p then some (s.acquireStep p) else none
  | .release p => if s.Idle p then some (s.releaseStep p) else none
  | .reset p =>
    match s.phase p with
    | .running op .reset => some (s.resetStep p op)
    | _ => none
  | .clear p =>
    match s.phase p with
    | .running op .clear => some (s.clearStep p op)
    | _ => none
  | .publish p frame => if s.Idle p then s.publishStep p frame else none
  | .setSpsPps p sps pps => if s.Idle p then some (s.setSpsPpsStep p sps pps) else none

/-! ## The property -/

/-- What `by` says was stored after the acquire of another publisher than `a`
had returned, and the running operation of `a` is older than that. -/
def Outdated (s : Handover) (a : String) (by' : StoredBy) : Prop :=
  by'.publisher ≠ a ∧ ∃ r, by'.since = some r ∧ s.started a < r

/-- The step clears frames or parameter sets that another publisher stored after
its acquire returned, and is left over from before that. -/
def Harmful (s : Handover) : HandoverStep → Prop
  | .reset a => ∃ f ∈ s.hub.ring.slots, ∃ by', s.frameBy f.seq = some by' ∧ s.Outdated a by'
  | .clear a => ∃ by', s.configBy = some by' ∧ s.Outdated a by'
  | _ => False

/-- At most one publisher owns the slot, and the slot names it. -/
def SingleOwner (s : Handover) : Prop :=
  (∀ p, s.holding p = true → s.hub.publisher = some p) ∧
    ∀ p q, s.holding p = true → s.holding q = true → p = q

/-- What the handover is to keep, at one step. -/
def Safe (s : Handover) (l : HandoverStep) : Prop :=
  ∀ s', s.step l = some s' → s'.SingleOwner ∧ ¬ s.Harmful l

/-- The condition: an acquire **succeeds** only while every other publisher is
idle. -/
def AcquiresAlone (s : Handover) : HandoverStep → Prop
  | .acquire p => (s.hub.publisher = none ∨ s.hub.publisher = some p) → ∀ q, q ≠ p → s.Idle q
  | _ => True

/-! ## The steps -/

theorem acquireStep_of_available {s : Handover} {p : String}
    (h : s.hub.publisher = none ∨ s.hub.publisher = some p) :
    s.acquireStep p =
      { s with
        hub := { s.hub with publisher := some p }
        phase := Function.update s.phase p (.running .acquire .reset)
        started := Function.update s.started p s.clock
        holding := Function.update s.holding p true
        clock := s.clock + 1 } := by
  rw [acquireStep, StreamHub.acquirePublisher_of_available h]

theorem acquireStep_of_held {s : Handover} {p q : String} (hq : s.hub.publisher = some q)
    (hne : q ≠ p) : s.acquireStep p = { s with clock := s.clock + 1 } := by
  rw [acquireStep, StreamHub.acquirePublisher_of_held hq hne]

theorem releaseStep_of_held {s : Handover} {p : String} (h : s.hub.publisher = some p) :
    s.releaseStep p =
      { s with
        hub := { s.hub with publisher := none }
        phase := Function.update s.phase p (.running .release .reset)
        started := Function.update s.started p s.clock
        holding := Function.update s.holding p false
        clock := s.clock + 1 } := by
  rw [releaseStep, StreamHub.releasePublisher_of_held h]

theorem releaseStep_of_not_held {s : Handover} {p : String} (h : s.hub.publisher ≠ some p) :
    s.releaseStep p = { s with clock := s.clock + 1 } := by
  rw [releaseStep, StreamHub.releasePublisher_of_not_held h]

/-- What a step can be. -/
theorem step_cases {s s' : Handover} {l : HandoverStep} (h : s.step l = some s') :
    (∃ p, l = .acquire p ∧ s.Idle p ∧ s' = s.acquireStep p) ∨
    (∃ p, l = .release p ∧ s.Idle p ∧ s' = s.releaseStep p) ∨
    (∃ p op, l = .reset p ∧ s.phase p = .running op .reset ∧ s' = s.resetStep p op) ∨
    (∃ p op, l = .clear p ∧ s.phase p = .running op .clear ∧ s' = s.clearStep p op) ∨
    (∃ p f, l = .publish p f ∧ s.Idle p ∧ s.publishStep p f = some s') ∨
    (∃ p sps pps, l = .setSpsPps p sps pps ∧ s.Idle p ∧ s' = s.setSpsPpsStep p sps pps) := by
  cases l with
  | acquire p =>
    rw [step, Option.ite_none_right_eq_some] at h
    exact .inl ⟨p, rfl, h.1, (Option.some.inj h.2).symm⟩
  | release p =>
    rw [step, Option.ite_none_right_eq_some] at h
    exact .inr (.inl ⟨p, rfl, h.1, (Option.some.inj h.2).symm⟩)
  | reset p =>
    rw [step] at h
    split at h
    · next op hp => exact .inr (.inr (.inl ⟨p, op, rfl, hp, (Option.some.inj h).symm⟩))
    · cases h
  | clear p =>
    rw [step] at h
    split at h
    · next op hp => exact .inr (.inr (.inr (.inl ⟨p, op, rfl, hp, (Option.some.inj h).symm⟩)))
    · cases h
  | publish p f =>
    rw [step, Option.ite_none_right_eq_some] at h
    exact .inr (.inr (.inr (.inr (.inl ⟨p, f, rfl, h.1, h.2⟩))))
  | setSpsPps p sps pps =>
    rw [step, Option.ite_none_right_eq_some] at h
    exact .inr (.inr (.inr (.inr (.inr ⟨p, sps, pps, rfl, h.1, (Option.some.inj h.2).symm⟩))))

/-- Who can be on record as having stored something, now or at the next store. -/
def Known (s : Handover) (b : StoredBy) : Prop :=
  (∃ n, s.frameBy n = some b) ∨ s.configBy = some b ∨ ∃ p, b = ⟨p, s.returned p⟩

/-- A step puts on record only what could be, or the return of an acquire. -/
theorem known_step {s s' : Handover} {l : HandoverStep} (h : s.step l = some s') {b : StoredBy}
    (hb : s'.Known b) :
    s.Known b ∨ ∃ p, l = .clear p ∧ s.phase p = .running .acquire .clear ∧
      b = ⟨p, some s.clock⟩ := by
  obtain ⟨p, -, -, rfl⟩ | ⟨p, -, -, rfl⟩ | ⟨p, op, -, -, rfl⟩ | ⟨p, op, rfl, hp, rfl⟩ |
    ⟨p, f, -, -, hpub⟩ | ⟨p, sps, pps, -, -, rfl⟩ := step_cases h
  · left
    rw [acquireStep] at hb
    split at hb <;> exact hb
  · left
    rw [releaseStep] at hb
    split at hb <;> exact hb
  · left
    obtain ⟨n, hn⟩ | hc | hr := hb
    · cases hn
    · exact .inr (.inl hc)
    · exact .inr (.inr hr)
  · obtain ⟨n, hn⟩ | hc | ⟨q, rfl⟩ := hb
    · exact .inl (.inl ⟨n, hn⟩)
    · cases hc
    · by_cases hq : op = .acquire ∧ q = p
      · obtain ⟨rfl, rfl⟩ := hq
        refine .inr ⟨q, rfl, hp, ?_⟩
        simp [clearStep]
      · refine .inl (.inr (.inr ⟨q, ?_⟩))
        rcases op with _ | _
        · have hne : q ≠ p := fun heq => hq ⟨rfl, heq⟩
          simp [clearStep, Function.update_of_ne hne]
        · simp [clearStep]
  · left
    rw [publishStep, Option.map_eq_some_iff] at hpub
    obtain ⟨hub, -, rfl⟩ := hpub
    obtain ⟨n, hn⟩ | hc | hr := hb
    · by_cases hw : n = s.hub.ring.writeSeq
      · simp only [hw, Function.update_self] at hn
        exact .inr (.inr ⟨p, (Option.some.inj hn).symm⟩)
      · simp only [Function.update_of_ne hw] at hn
        exact .inl ⟨n, hn⟩
    · exact .inr (.inl hc)
    · exact .inr (.inr hr)
  · left
    obtain hn | hc | hr := hb
    · exact .inl hn
    · exact .inr (.inr ⟨p, (Option.some.inj hc).symm⟩)
    · exact .inr (.inr hr)

/-- A publisher is busy after a step if it was before, or has just changed the
slot. -/
theorem phase_step {s s' : Handover} {l : HandoverStep} (h : s.step l = some s') {a : String}
    (ha : s'.phase a ≠ .idle) :
    (s.phase a ≠ .idle ∧ s'.started a = s.started a) ∨
      (s'.started a = s.clock ∧
        (l = .acquire a ∧ (s.hub.publisher = none ∨ s.hub.publisher = some a) ∨
          l = .release a ∧ s.hub.publisher = some a)) := by
  obtain ⟨p, rfl, -, rfl⟩ | ⟨p, rfl, -, rfl⟩ | ⟨p, op, -, hp, rfl⟩ | ⟨p, op, rfl, hp, rfl⟩ |
    ⟨p, f, -, -, hpub⟩ | ⟨p, sps, pps, -, -, rfl⟩ := step_cases h
  · by_cases hav : s.hub.publisher = none ∨ s.hub.publisher = some p
    · rw [acquireStep_of_available hav] at ha ⊢
      by_cases hap : a = p
      · obtain rfl := hap
        exact .inr ⟨Function.update_self _ _ _, .inl ⟨rfl, hav⟩⟩
      · left
        simpa [Function.update_of_ne hap] using ha
    · obtain ⟨q, hq⟩ := Option.ne_none_iff_exists'.mp fun hn => hav (.inl hn)
      have hne : q ≠ p := by
        rintro rfl
        exact hav (.inr hq)
      rw [acquireStep_of_held hq hne] at ha ⊢
      exact .inl ⟨ha, rfl⟩
  · by_cases hheld : s.hub.publisher = some p
    · rw [releaseStep_of_held hheld] at ha ⊢
      by_cases hap : a = p
      · obtain rfl := hap
        exact .inr ⟨Function.update_self _ _ _, .inr ⟨rfl, hheld⟩⟩
      · left
        simpa [Function.update_of_ne hap] using ha
    · rw [releaseStep_of_not_held hheld] at ha ⊢
      exact .inl ⟨ha, rfl⟩
  · left
    refine ⟨?_, rfl⟩
    by_cases hap : a = p
    · rw [hap, hp]
      simp
    · simpa [resetStep, Function.update_of_ne hap] using ha
  · left
    refine ⟨?_, rfl⟩
    by_cases hap : a = p
    · rw [hap, hp]
      simp
    · simpa [clearStep, Function.update_of_ne hap] using ha
  · rw [publishStep, Option.map_eq_some_iff] at hpub
    obtain ⟨hub, -, rfl⟩ := hpub
    exact .inl ⟨ha, rfl⟩
  · exact .inl ⟨ha, rfl⟩

/-- A publisher that changes the slot nowhere in a run is idle after it if it was
before. -/
theorem idle_of_exec {s r : Handover} {ls : List HandoverStep} (h : exec step s ls = some r)
    {q : String} (hq : s.Idle q) (hacq : .acquire q ∉ ls) (hrel : .release q ∉ ls) : r.Idle q := by
  induction ls generalizing s with
  | nil =>
    obtain rfl := Option.some.inj h
    exact hq
  | cons l ls ih =>
    obtain ⟨s', hs', hr⟩ := exec_cons_eq_some.mp h
    rw [List.mem_cons, not_or] at hacq hrel
    refine ih hr ?_ hacq.2 hrel.2
    by_contra hbusy
    rcases phase_step hs' hbusy with ⟨hne, -⟩ | ⟨-, ⟨rfl, -⟩ | ⟨rfl, -⟩⟩
    · exact hne hq
    · exact hacq.1 rfl
    · exact hrel.1 rfl

/-- Every step takes one tick. -/
theorem clock_step {s s' : Handover} {l : HandoverStep} (h : s.step l = some s') :
    s'.clock = s.clock + 1 := by
  obtain ⟨p, -, -, rfl⟩ | ⟨p, -, -, rfl⟩ | ⟨p, op, -, -, rfl⟩ | ⟨p, op, -, -, rfl⟩ |
    ⟨p, f, -, -, hpub⟩ | ⟨p, sps, pps, -, -, rfl⟩ := step_cases h
  · rw [acquireStep]
    split <;> rfl
  · rw [releaseStep]
    split <;> rfl
  · rfl
  · rfl
  · rw [publishStep, Option.map_eq_some_iff] at hpub
    obtain ⟨hub, -, rfl⟩ := hpub
    rfl
  · rfl

/-- Only an acquire that has changed the slot makes a publisher acquiring. -/
theorem acquiring_step {s s' : Handover} {l : HandoverStep} (h : s.step l = some s')
    {p : String} {n : MediaStep} (hp : s'.phase p = .running .acquire n) :
    (∃ n', s.phase p = .running .acquire n') ∨
      (l = .acquire p ∧ (s.hub.publisher = none ∨ s.hub.publisher = some p)) := by
  obtain ⟨q, rfl, -, rfl⟩ | ⟨q, rfl, -, rfl⟩ | ⟨q, op, -, hq, rfl⟩ | ⟨q, op, rfl, hq, rfl⟩ |
    ⟨q, f, -, -, hpub⟩ | ⟨q, sps, pps, -, -, rfl⟩ := step_cases h
  · by_cases hav : s.hub.publisher = none ∨ s.hub.publisher = some q
    · by_cases hpq : p = q
      · obtain rfl := hpq
        exact .inr ⟨rfl, hav⟩
      · rw [acquireStep_of_available hav] at hp
        exact .inl ⟨n, by simpa [Function.update_of_ne hpq] using hp⟩
    · obtain ⟨o, ho⟩ := Option.ne_none_iff_exists'.mp fun hn => hav (.inl hn)
      have hne : o ≠ q := by
        rintro rfl
        exact hav (.inr ho)
      rw [acquireStep_of_held ho hne] at hp
      exact .inl ⟨n, hp⟩
  · left
    rw [releaseStep] at hp
    split at hp
    · by_cases hpq : p = q
      · obtain rfl := hpq
        simp at hp
      · exact ⟨n, by simpa [Function.update_of_ne hpq] using hp⟩
    · exact ⟨n, hp⟩
  · left
    by_cases hpq : p = q
    · obtain rfl := hpq
      simp only [resetStep, Function.update_self, Phase.running.injEq] at hp
      exact ⟨.reset, by rw [hq, hp.1]⟩
    · exact ⟨n, by simpa [resetStep, Function.update_of_ne hpq] using hp⟩
  · left
    by_cases hpq : p = q
    · obtain rfl := hpq
      simp [clearStep] at hp
    · exact ⟨n, by simpa [clearStep, Function.update_of_ne hpq] using hp⟩
  · rw [publishStep, Option.map_eq_some_iff] at hpub
    obtain ⟨hub, -, rfl⟩ := hpub
    exact .inl ⟨n, hp⟩
  · exact .inl ⟨n, hp⟩

/-! ## The invariant -/

/-- What holds of the publishers while every acquire succeeds alone. -/
structure Inv (s : Handover) : Prop where
  /-- The slot names whoever holds it. -/
  holding_slot : ∀ p, s.holding p = true → s.hub.publisher = some p
  /-- Whoever is acquiring holds the slot already. -/
  acquiring_holding : ∀ p n, s.phase p = .running .acquire n → s.holding p = true
  /-- Whoever is acquiring is alone. -/
  acquiring_alone : ∀ p n, s.phase p = .running .acquire n → ∀ q, q ≠ p → s.phase q = .idle
  /-- What is on record is past. -/
  known_lt : ∀ b r, s.Known b → b.since = some r → r < s.clock
  /-- No running operation is older than what is on record of others. -/
  known_fresh : ∀ a b, s.phase a ≠ .idle → s.Known b → ¬ s.Outdated a b

theorem Inv.init (stream : Stream) : (Handover.init stream).Inv where
  holding_slot := fun p hp => by cases hp
  acquiring_holding := fun p n hp => by cases hp
  acquiring_alone := fun p n hp => by cases hp
  known_lt := by
    rintro b r (⟨n, hn⟩ | hc | ⟨p, rfl⟩) hr
    · cases hn
    · cases hc
    · cases hr
  known_fresh := fun a b ha => absurd rfl ha

/-- The slot and its holders, across a step. -/
theorem Inv.holding_step {s s' : Handover} {l : HandoverStep} (hi : s.Inv)
    (h : s.step l = some s') : ∀ p, s'.holding p = true → s'.hub.publisher = some p := by
  intro p hp
  obtain ⟨q, rfl, -, rfl⟩ | ⟨q, rfl, -, rfl⟩ | ⟨q, op, -, -, rfl⟩ | ⟨q, op, rfl, -, rfl⟩ |
    ⟨q, f, -, -, hpub⟩ | ⟨q, sps, pps, -, -, rfl⟩ := step_cases h
  · by_cases hav : s.hub.publisher = none ∨ s.hub.publisher = some q
    · rw [acquireStep_of_available hav] at hp ⊢
      by_cases hpq : p = q
      · rw [hpq]
      · -- another holder would have its name in the slot
        simp only [Function.update_of_ne hpq] at hp
        have hslot := hi.holding_slot p hp
        rcases hav with hav | hav
        · rw [hav] at hslot
          cases hslot
        · rw [hav] at hslot
          exact absurd (Option.some.inj hslot).symm hpq
    · obtain ⟨o, ho⟩ := Option.ne_none_iff_exists'.mp fun hn => hav (.inl hn)
      have hne : o ≠ q := by
        rintro rfl
        exact hav (.inr ho)
      rw [acquireStep_of_held ho hne] at hp ⊢
      exact hi.holding_slot p hp
  · by_cases hheld : s.hub.publisher = some q
    · rw [releaseStep_of_held hheld] at hp ⊢
      by_cases hpq : p = q
      · obtain rfl := hpq
        simp at hp
      · simp only [Function.update_of_ne hpq] at hp
        have hslot := hi.holding_slot p hp
        rw [hheld] at hslot
        exact absurd (Option.some.inj hslot).symm hpq
    · rw [releaseStep_of_not_held hheld] at hp ⊢
      exact hi.holding_slot p hp
  · exact hi.holding_slot p hp
  · exact hi.holding_slot p hp
  · rw [publishStep, Option.map_eq_some_iff] at hpub
    obtain ⟨hub, hub', rfl⟩ := hpub
    obtain ⟨ring, -, rfl⟩ := StreamHub.publish_eq_some.mp hub'
    exact hi.holding_slot p hp
  · exact hi.holding_slot p hp

/-- A holder stays one, but by its own release. -/
theorem holding_of_step {s s' : Handover} {l : HandoverStep} (h : s.step l = some s') {p : String}
    (hp : s.holding p = true) : s'.holding p = true ∨ (l = .release p ∧ s.Idle p) := by
  obtain ⟨q, rfl, -, rfl⟩ | ⟨q, rfl, hidle, rfl⟩ | ⟨q, op, -, -, rfl⟩ | ⟨q, op, rfl, -, rfl⟩ |
    ⟨q, f, -, -, hpub⟩ | ⟨q, sps, pps, -, -, rfl⟩ := step_cases h
  · left
    rw [acquireStep]
    split
    · by_cases hpq : p = q
      · simp [hpq]
      · simp [Function.update_of_ne hpq, hp]
    · exact hp
  · by_cases hpq : p = q
    · obtain rfl := hpq
      exact .inr ⟨rfl, hidle⟩
    · left
      rw [releaseStep]
      split
      · simp [Function.update_of_ne hpq, hp]
      · exact hp
  · exact .inl hp
  · exact .inl hp
  · rw [publishStep, Option.map_eq_some_iff] at hpub
    obtain ⟨hub, -, rfl⟩ := hpub
    exact .inl hp
  · exact .inl hp

/-- **Every step** that meets the condition keeps the invariant. -/
theorem Inv.step {s s' : Handover} {l : HandoverStep} (hi : s.Inv) (hg : s.AcquiresAlone l)
    (h : s.step l = some s') : s'.Inv where
  holding_slot := hi.holding_step h
  acquiring_holding := by
    intro p n hp
    rcases acquiring_step h hp with ⟨n', hn'⟩ | ⟨rfl, hav⟩
    · rcases holding_of_step h (hi.acquiring_holding p n' hn') with hh | ⟨-, hidle⟩
      · exact hh
      · rw [Idle, hn'] at hidle
        cases hidle
    · rw [Handover.step, Option.ite_none_right_eq_some, acquireStep_of_available hav] at h
      obtain rfl := Option.some.inj h.2
      exact Function.update_self _ _ _
  acquiring_alone := by
    intro p n hp q hqp
    by_contra hq
    rcases acquiring_step h hp with ⟨n', hn'⟩ | ⟨rfl, hav⟩
    · -- `p` was alone and its name is in the slot, so `q` could not start either
      have hslot := hi.holding_slot p (hi.acquiring_holding p n' hn')
      rcases phase_step h hq with ⟨hbusy, -⟩ | ⟨-, ⟨-, hav | hav⟩ | ⟨-, hav⟩⟩
      · exact hbusy (hi.acquiring_alone p n' hn' q hqp)
      · rw [hav] at hslot
        cases hslot
      · rw [hav] at hslot
        exact hqp (Option.some.inj hslot)
      · rw [hav] at hslot
        exact hqp (Option.some.inj hslot)
    · rcases phase_step h hq with ⟨hbusy, -⟩ | ⟨-, ⟨hl, -⟩ | ⟨hl, -⟩⟩
      · exact hbusy (hg hav q hqp)
      · exact hqp (HandoverStep.acquire.inj hl).symm
      · cases hl
  known_lt := by
    intro b r hb hr
    have hclock : s'.clock = s.clock + 1 := clock_step h
    rcases known_step h hb with hold | ⟨p, -, -, rfl⟩
    · have hlt := hi.known_lt b r hold hr
      omega
    · obtain rfl := Option.some.inj hr
      omega
  known_fresh := by
    rintro a b ha hb ⟨hne, r, hr, hlt⟩
    rcases known_step h hb with hold | ⟨p, rfl, hp, rfl⟩
    · rcases phase_step h ha with ⟨hbusy, hstart⟩ | ⟨hstart, -⟩
      · exact hi.known_fresh a b hbusy hold ⟨hne, r, hr, by rwa [← hstart]⟩
      · have hpast := hi.known_lt b r hold hr
        omega
    · -- the acquire that returns was alone, so `a` is not busy
      rcases phase_step h ha with ⟨hbusy, -⟩ | ⟨-, ⟨hl, -⟩ | ⟨hl, -⟩⟩
      · exact hbusy (hi.acquiring_alone p _ hp a (Ne.symm hne))
      · cases hl
      · cases hl

/-- Under the invariant the slot has a single owner. -/
theorem Inv.singleOwner {s : Handover} (hi : s.Inv) : s.SingleOwner := by
  refine ⟨hi.holding_slot, fun p q hp hq => ?_⟩
  have h := (hi.holding_slot p hp).symm.trans (hi.holding_slot q hq)
  exact Option.some.inj h

/-- Under the invariant no step is harmful. -/
theorem Inv.not_harmful {s s' : Handover} {l : HandoverStep} (hi : s.Inv)
    (h : s.step l = some s') : ¬ s.Harmful l := by
  cases l with
  | reset a =>
    rintro ⟨f, -, b, hb, hout⟩
    refine hi.known_fresh a b ?_ (.inl ⟨f.seq, hb⟩) hout
    intro hidle
    rw [Handover.step, hidle] at h
    cases h
  | clear a =>
    rintro ⟨b, hb, hout⟩
    refine hi.known_fresh a b ?_ (.inr (.inl hb)) hout
    intro hidle
    rw [Handover.step, hidle] at h
    cases h
  | acquire p => exact id
  | release p => exact id
  | publish p f => exact id
  | setSpsPps p sps pps => exact id

/-- In every run in which acquires succeed only while every other publisher is
idle, the slot has a single owner and **no step is harmful**. -/
theorem handover_safe (stream : Stream) (ls : List HandoverStep)
    (h : Always Handover.step AcquiresAlone (Handover.init stream) ls) :
    Always Handover.step Safe (Handover.init stream) ls :=
  always_of_inv (fun _ _ hi hg _ hs' => ⟨(hi.step hg hs').singleOwner, hi.not_harmful hs'⟩)
    (fun _ _ _ hi hg hs' => hi.step hg hs') (Inv.init stream) h

/-- The condition is met by a handover in sequence, in which `B` acquires when
`A` has finished its release. -/
theorem handover_safe_in_sequence :
    Always Handover.step Safe (Handover.init (StreamHub.new "live").stream)
      [.acquire "A", .reset "A", .clear "A", .publish "A" (testFrame true), .release "A",
        .reset "A", .clear "A", .acquire "B", .reset "B", .clear "B",
        .publish "B" (testFrame true)] := by
  apply handover_safe _ _
  refine always_cons_of_step (fun _ _ _ => rfl) rfl ?_
  apply always_cons_of_step trivial rfl
  apply always_cons_of_step trivial rfl
  apply always_cons_of_step trivial rfl
  apply always_cons_of_step trivial rfl
  apply always_cons_of_step trivial rfl
  apply always_cons_of_step trivial rfl
  refine always_cons_of_step (fun _ q _ => ?_) rfl ?_
  · by_cases hq : q = "A"
    · obtain rfl := hq
      rfl
    · have hidle : (Handover.init (StreamHub.new "live").stream).Idle q := rfl
      let seven : List HandoverStep := [.acquire "A", .reset "A", .clear "A",
        .publish "A" (testFrame true), .release "A", .reset "A", .clear "A"]
      have hacq : .acquire q ∉ seven := by simp [seven, hq]
      have hrel : .release q ∉ seven := by simp [seven, hq]
      exact idle_of_exec rfl hidle hacq hrel
  · apply always_cons_of_step trivial rfl
    apply always_cons_of_step trivial rfl
    exact always_cons_of_step trivial rfl trivial

/-- `B` acquires and publishes between the slot step and the ring step of the
release of `A`, which then **wipes** the frame of `B`. -/
theorem handover_not_safe_interleaved :
    ¬ Always Handover.step Safe (Handover.init (StreamHub.new "live").stream)
      [.acquire "A", .reset "A", .clear "A", .release "A", .acquire "B", .reset "B", .clear "B",
        .publish "B" (testFrame true), .reset "A"] := by
  intro h
  obtain ⟨r, hr⟩ : ∃ r, exec Handover.step (Handover.init (StreamHub.new "live").stream)
      [.acquire "A", .reset "A", .clear "A", .release "A", .acquire "B", .reset "B", .clear "B",
        .publish "B" (testFrame true)] = some r := ⟨_, rfl⟩
  have hsafe := always_iff.mp h _ (.reset "A") ⟨[], rfl⟩ r hr
  obtain rfl := Option.some.inj hr
  refine (hsafe _ rfl).2 ⟨StoredFrame.ofMediaFrame 0 (testFrame true), ?_, ⟨"B", some 6⟩, ?_, ?_⟩
  · decide
  · decide
  · exact ⟨by decide, 6, rfl, by decide⟩

/-! ## The manager's functions -/

/-- Without a break, the steps of an acquire are `acquire_publisher`. -/
theorem exec_acquire_eq {m : StreamManager} {s : Handover} {st : StreamId} {p : String}
    (hhub : m.getHub st = some s.hub) (hidle : s.Idle p)
    (hav : s.hub.publisher = none ∨ s.hub.publisher = some p) :
    ∃ s', exec Handover.step s [.acquire p, .reset p, .clear p] = some s' ∧ s'.Idle p ∧
      (m.acquirePublisher st p).2 = .ok () ∧
      (m.acquirePublisher st p).1.getHub st = some s'.hub := by
  have hav' : Ownership.Available m.slots st p :=
    StreamManager.available_iff_getHub.mpr ⟨s.hub, hhub, hav⟩
  refine ⟨((s.acquireStep p).resetStep p .acquire).clearStep p .acquire, ?_, ?_,
    StreamManager.acquirePublisher_ok_iff.mpr hav', ?_⟩
  · have hfirst : s.step (.acquire p) = some (s.acquireStep p) := if_pos hidle
    rw [exec_cons_of_step hfirst, acquireStep_of_available hav, exec_cons, Handover.step]
    simp only [Function.update_self, Option.bind_some, exec_cons, Handover.step, resetStep,
      exec_nil]
  · exact Function.update_self _ _ _
  · rw [StreamManager.acquirePublisher_of_available hav', StreamManager.getHub_resetStreamMedia,
      if_pos rfl, StreamManager.getHub_updateHub_self, hhub, acquireStep_of_available hav]
    rfl

/-- Without a break, the steps of a release are `release_publisher`. -/
theorem exec_release_eq {m : StreamManager} {s : Handover} {st : StreamId} {p : String}
    (hhub : m.getHub st = some s.hub) (hidle : s.Idle p) (hheld : s.hub.publisher = some p) :
    ∃ s', exec Handover.step s [.release p, .reset p, .clear p] = some s' ∧ s'.Idle p ∧
      (m.releasePublisher st p).2 = true ∧
      (m.releasePublisher st p).1.getHub st = some s'.hub := by
  have hheld' : Ownership.Holds m.slots st p :=
    StreamManager.holds_iff_getHub.mpr ⟨s.hub, hhub, hheld⟩
  refine ⟨((s.releaseStep p).resetStep p .release).clearStep p .release, ?_, ?_, ?_, ?_⟩
  · have hfirst : s.step (.release p) = some (s.releaseStep p) := if_pos hidle
    rw [exec_cons_of_step hfirst, releaseStep_of_held hheld, exec_cons, Handover.step]
    simp only [Function.update_self, Option.bind_some, exec_cons, Handover.step, resetStep,
      exec_nil]
  · exact Function.update_self _ _ _
  · rw [StreamManager.releasePublisher_of_holds hheld']
  · rw [StreamManager.releasePublisher_of_holds hheld', StreamManager.getHub_resetStreamMedia,
      if_pos rfl, StreamManager.getHub_updateHub_self, hhub, releaseStep_of_held hheld]
    rfl

end Handover

end VcpMediaServer
