import VcpMediaServer.Lts
import VcpMediaServer.WebrtcSession

/-!
# WebRTC sessions and the publisher slot

A WebRTC session as a system: its signals in any order, the tasks that read the
tracks of its peer connections, and its play relays, with the calls of **other
parties** in between. A `Publish` signal is three events, since the session waits
twice on the peer connection; nothing else is read in the meantime. The tasks work
on after the signal that ends their publication, until the peer connection that was
closed in the background **is closed**.

* `WebrtcRun.step` — one event of the session or of another party.
* `webrtc_publish_authority` — what others hold keeps its media and its status, and
  after a `StopPublish` and after the cleanup the session holds nothing, if it stops
  what it publishes and its left-over tracks do not come after another publisher.
-/

namespace VcpMediaServer

open Lts Ownership StreamManager Webrtc

/-- A `Publish` signal that is being handled. -/
inductive PublishPhase where
  /-- The peer connection is being made. -/
  | connecting (s : StreamId) (p : String)
  /-- The slot is taken, and the descriptions are being set. -/
  | negotiating (s : StreamId) (p : String)
  deriving DecidableEq, Repr

/-- A session and the streams. -/
structure WebrtcRun where
  /-- The streams. -/
  manager : StreamManager
  /-- The state of the session. -/
  state : Webrtc.SessionState
  /-- The `Publish` signal that is being handled. -/
  pending : Option PublishPhase
  /-- The streams of the publishing peer connections that are not closed. -/
  peers : List StreamId
  /-- The tasks that read tracks. -/
  tracks : List TrackTask
  /-- The streams of the play relays that run. -/
  relays : List StreamId
  /-- The session is cleaned up. -/
  closed : Bool

/-- What happens in the session, or beside it. -/
inductive WebrtcEvent where
  /-- Another party calls the manager. -/
  | other (op : ManagerOp)
  /-- A `Publish` signal is read, and a number is drawn for its publisher id. -/
  | publish (s : StreamId) (number : UInt64)
  /-- The peer connection is made, or cannot be. -/
  | peerConnection (offer : Option PublishOffer)
  /-- Both descriptions are set, or one cannot be. -/
  | answer (ok : Bool)
  /-- A `StopPublish` signal is read. -/
  | stopPublish (s : StreamId)
  /-- A `Play` signal is read; `ok` says how its peer connection turns out. -/
  | play (s : StreamId) (ok : Bool)
  /-- A `StopPlay` signal is read. -/
  | stopPlay
  /-- A publishing peer connection has a track: audio, with its clock, or video. -/
  | trackStart (i : ℕ) (clockRate : Option UInt32)
  /-- A packet arrives on a track. -/
  | trackPacket (i : ℕ) (pkt : RtpPacket)
  /-- A track ends. -/
  | trackEnd (i : ℕ)
  /-- A publishing peer connection is closed. -/
  | peerClosed (i : ℕ)
  /-- A play relay has read a frame. -/
  | relayFrame (i : ℕ) (frame : MediaFrame)
  /-- A play relay ends. -/
  | relayEnd (i : ℕ)
  /-- The WebSocket ends, for whatever reason, and the session is cleaned up. -/
  | disconnect
  deriving DecidableEq, Repr

namespace WebrtcRun

/-- A session that was just accepted. -/
def start (m : StreamManager) : WebrtcRun := ⟨m, .new, none, [], [], [], false⟩

/-- The session reads the next signal. -/
def IsReading (r : WebrtcRun) : Prop := r.closed = false ∧ r.pending = none

instance (r : WebrtcRun) : Decidable r.IsReading := inferInstanceAs (Decidable (_ ∧ _))

/-- The peer connection of a `Publish` signal is made. -/
def connect (r : WebrtcRun) (s : StreamId) (p : String) (offer : PublishOffer) : WebrtcRun :=
  match openPublish r.manager s p offer with
  | (manager, .ok ()) =>
    { r with manager, pending := some (.negotiating s p), peers := r.peers ++ [s] }
  | (manager, .error _) => { r with manager, pending := none }

/-- One event; `none` if it cannot happen, or the push of a frame never returns. The
publisher ids in `own` are the ones that the session draws. -/
def step (own : String → Bool) (r : WebrtcRun) : WebrtcEvent → Option WebrtcRun
  | .other op =>
    if op.publisherId.any own then none
    else (op.apply r.manager).map fun manager => { r with manager }
  | .publish s number =>
    if r.IsReading ∧ own (webrtcPublisherId s number) then
      let (manager, state) := Webrtc.publish r.manager r.state s
      some { r with manager, state, pending := some (.connecting s (webrtcPublisherId s number)) }
    else none
  | .peerConnection offer =>
    match r.pending, offer with
    | some (.connecting _ _), none => some { r with pending := none }
    | some (.connecting s p), some offer => some (r.connect s p offer)
    | _, _ => none
  | .answer ok =>
    match r.pending with
    | some (.negotiating s p) =>
      let (manager, state) := closePublish r.manager r.state s p ok
      some { r with manager, state, pending := none }
    | _ => none
  | .stopPublish s =>
    if r.IsReading then
      let (manager, state) := Webrtc.stopPublish r.manager r.state s
      some { r with manager, state }
    else none
  | .play s ok =>
    if r.IsReading then
      let (state, relay) := Webrtc.play r.manager r.state s ok
      some { r with state, relays := if relay then r.relays ++ [s] else r.relays }
    else none
  | .stopPlay => if r.IsReading then some { r with state := r.state.stopPlaySession } else none
  | .trackStart i clockRate =>
    (r.peers[i]?).map fun s => { r with tracks := r.tracks ++ [.new s clockRate] }
  | .trackPacket i pkt =>
    (r.tracks[i]?).bind fun task => (task.readPacket r.manager pkt).map fun (manager, task) =>
      { r with manager, tracks := r.tracks.set i task }
  | .trackEnd i =>
    (r.tracks[i]?).bind fun task => (task.finish r.manager).map fun manager =>
      { r with manager, tracks := r.tracks.eraseIdx i }
  | .peerClosed i => (r.peers[i]?).map fun _ => { r with peers := r.peers.eraseIdx i }
  | .relayFrame i frame =>
    (r.relays[i]?).map fun s => { r with manager := Webrtc.relayFrame r.manager s frame }
  | .relayEnd i => (r.relays[i]?).map fun _ => { r with relays := r.relays.eraseIdx i }
  | .disconnect =>
    if r.IsReading then
      let (manager, state) := cleanupSession r.manager r.state
      some { r with manager, state, closed := true }
    else none

variable {own : String → Bool} {r r' : WebrtcRun} {e : WebrtcEvent}

/-! ## The law and its condition -/

/-- What others hold **keeps** its media and its status, and after a `StopPublish`
and after the cleanup the session holds nothing. -/
structure Lawful (own : String → Bool) (r : WebrtcRun) (e : WebrtcEvent) (r' : WebrtcRun) :
    Prop where
  media : (∀ op, e ≠ .other op) → ∀ k, r.manager.HeldByOther own k →
    r'.manager.media k = r.manager.media k
  status : (∀ op, e ≠ .other op) → ∀ k, r.manager.HeldByOther own k →
    r'.manager.status k = r.manager.status k
  released : (r'.closed = true ∨ ∃ s, e = .stopPublish s) →
    ∀ p, own p = true → r'.manager.HoldsNothing p

/-- The event does what it may. -/
def Authority (own : String → Bool) (r : WebrtcRun) (e : WebrtcEvent) : Prop :=
  ∀ r', step own r e = some r' → Lawful own r e r'

/-- The stream whose slot the session has taken. -/
def published (r : WebrtcRun) : Option StreamId :=
  match r.pending with
  | some (.negotiating s _) => some s
  | some (.connecting _ _) => none
  | none => r.state.publishStreamId

/-- A stream that the session may touch: the one it publishes, or one that nobody
else holds. -/
def MayTouch (own : String → Bool) (r : WebrtcRun) (s : StreamId) : Prop :=
  r.published ≠ some s → ¬ r.manager.HeldByOther own s

instance (own : String → Bool) (r : WebrtcRun) (s : StreamId) : Decidable (MayTouch own r s) :=
  inferInstanceAs (Decidable (_ → _))

/-- The condition. A `StopPublish` names the stream that is published, if there is
one; it, a packet of a track and the end of a video track come only for a stream
that the session may touch, and so do parameter sets on a relay; and nobody makes
the stream that is published when it is gone. -/
def StaysOwn (own : String → Bool) (r : WebrtcRun) : WebrtcEvent → Prop
  | .other op => ∀ s ∈ r.published, r.manager.slots s = none → op.created ≠ some s
  | .stopPublish s => (∀ t ∈ r.published, t = s) ∧ r.MayTouch own s
  | .trackPacket i _ => ∀ task ∈ r.tracks[i]?, r.MayTouch own task.streamId
  | .trackEnd i => ∀ task ∈ r.tracks[i]?, task.isVideo = true → r.MayTouch own task.streamId
  | .relayFrame i frame => ∀ s ∈ r.relays[i]?,
      containsSpsOrPpsNalu (ensureAnnexB frame.data) = true → r.MayTouch own s
  | _ => True

instance (own : String → Bool) (r : WebrtcRun) : (e : WebrtcEvent) → Decidable (StaysOwn own r e)
  | .other _ => inferInstanceAs (Decidable (∀ _ ∈ _, _))
  | .stopPublish _ => inferInstanceAs (Decidable (_ ∧ _))
  | .trackPacket _ _ => inferInstanceAs (Decidable (∀ _ ∈ _, _))
  | .trackEnd _ => inferInstanceAs (Decidable (∀ _ ∈ _, _))
  | .relayFrame _ _ => inferInstanceAs (Decidable (∀ _ ∈ _, _))
  | .publish _ _ => .isTrue trivial
  | .peerConnection _ => .isTrue trivial
  | .answer _ => .isTrue trivial
  | .play _ _ => .isTrue trivial
  | .stopPlay => .isTrue trivial
  | .trackStart _ _ => .isTrue trivial
  | .peerClosed _ => .isTrue trivial
  | .relayEnd _ => .isTrue trivial
  | .disconnect => .isTrue trivial

/-! ## The invariant -/

/-- What carries the law: between signals the state records the one slot that is
held, and during a `Publish` signal the phase does. -/
inductive Inv (own : String → Bool) (r : WebrtcRun) : Prop
  | reading (reg : Registration) (pending : r.pending = none) (records : r.state.Records reg)
      (registers : Registers own r.manager reg) (closed : r.closed = true → reg = none)
  | connecting (s : StreamId) (p : String) (pending : r.pending = some (.connecting s p))
      (mine : own p = true) (records : r.state.Records none)
      (registers : Registers own r.manager none) (closed : r.closed = false)
  | negotiating (s : StreamId) (p : String) (pending : r.pending = some (.negotiating s p))
      (records : r.state.Records none) (registers : Registers own r.manager (some (s, p)))
      (closed : r.closed = false)

theorem inv_start {m : StreamManager} (hm : ∀ p, own p = true → m.HoldsNothing p) :
    Inv own (start m) :=
  .reading none rfl Webrtc.SessionState.records_new (registers_none hm) nofun

/-- What is published is what is registered. -/
theorem Inv.published_eq (h : Inv own r) :
    ∃ reg, r.published = reg.map Prod.fst ∧ Registers own r.manager reg := by
  cases h with
  | reading reg pending records registers =>
    refine ⟨reg, ?_, registers⟩
    rw [published, pending]
    exact records.publishStreamId
  | connecting s p pending mine records registers =>
    refine ⟨none, ?_, registers⟩
    rw [published, pending]
    rfl
  | negotiating s p pending records registers =>
    refine ⟨some (s, p), ?_, registers⟩
    rw [published, pending]
    rfl

/-- What the session may touch, nobody else holds. -/
theorem Inv.not_heldByOther {s : StreamId} (h : Inv own r) (hs : r.MayTouch own s) :
    ¬ r.manager.HeldByOther own s := by
  obtain ⟨reg, hpub, hreg⟩ := h.published_eq
  rcases reg with _ | ⟨t, p⟩
  · exact hs (by simp [hpub])
  · by_cases hts : t = s
    · obtain rfl := hts
      exact hreg.not_heldByOther
    · exact hs (by simpa [hpub] using hts)

/-- An event beside the signals keeps the invariant with the registration. -/
theorem Inv.of_registers (h : Inv own r) (state : r'.state = r.state)
    (pending : r'.pending = r.pending) (closed : r'.closed = r.closed)
    (hreg : ∀ reg, r.published = reg.map Prod.fst → Registers own r.manager reg →
      Registers own r'.manager reg) : Inv own r' := by
  cases h with
  | reading reg hp records registers hc =>
    refine .reading reg (pending.trans hp) (state ▸ records) (hreg reg ?_ registers) (closed ▸ hc)
    rw [published, hp]
    exact records.publishStreamId
  | connecting s p hp mine records registers hc =>
    refine .connecting s p (pending.trans hp) mine (state ▸ records) (hreg none ?_ registers)
      (closed.trans hc)
    rw [published, hp]
    rfl
  | negotiating s p hp records registers hc =>
    refine .negotiating s p (pending.trans hp) (state ▸ records) (hreg _ ?_ registers)
      (closed.trans hc)
    rw [published, hp]
    rfl

/-- An event beside the signals that leaves the slots alone. -/
theorem Inv.of_slots (h : Inv own r) (state : r'.state = r.state)
    (pending : r'.pending = r.pending) (closed : r'.closed = r.closed)
    (slots : r'.manager.slots = r.manager.slots) : Inv own r' :=
  h.of_registers state pending closed fun _ _ hreg => hreg.of_slots slots

/-- Between signals, the invariant is about what the state records. -/
theorem Inv.records (h : Inv own r) (hr : r.IsReading) :
    ∃ reg, r.state.Records reg ∧ Registers own r.manager reg := by
  cases h with
  | reading reg _ records registers _ => exact ⟨reg, records, registers⟩
  | connecting s p pending => exact absurd (pending.symm.trans hr.2) (by simp)
  | negotiating s p pending => exact absurd (pending.symm.trans hr.2) (by simp)

/-- Between signals, a session without a publishing peer connection holds nothing. -/
theorem Inv.holdsNothing {p : String} (h : Inv own r) (pending : r.pending = none)
    (hpc : r.state.publishPc = false) (hp : own p = true) : r.manager.HoldsNothing p := by
  cases h with
  | reading reg _ records registers _ =>
    rcases reg with _ | ⟨t, q⟩
    · exact registers.holdsNothing hp
    · exact absurd (records.publishPc.symm.trans hpc) (by simp)
  | connecting s q hpending => exact absurd (hpending.symm.trans pending) (by simp)
  | negotiating s q hpending => exact absurd (hpending.symm.trans pending) (by simp)

/-- After the cleanup the session holds nothing. -/
theorem Inv.holdsNothing_of_closed {p : String} (h : Inv own r) (closed : r.closed = true)
    (hp : own p = true) : r.manager.HoldsNothing p := by
  cases h with
  | reading reg _ _ registers hc =>
    obtain rfl := hc closed
    exact registers.holdsNothing hp
  | connecting _ _ _ _ _ _ hopen => exact absurd (closed.symm.trans hopen) (by simp)
  | negotiating _ _ _ _ _ hopen => exact absurd (closed.symm.trans hopen) (by simp)

/-! ## The events -/

/-- A signal that is handled to its end. -/
theorem Inv.of_leaves {reg : Registration} {m' : StreamManager} {st' : Webrtc.SessionState}
    (hr : r.IsReading) (h : Leaves own r.manager m' st' reg) (relays : List StreamId) :
    Inv own { r with manager := m', state := st', relays } :=
  .reading reg hr.2 h.records h.registers fun hc => absurd (hr.1.symm.trans hc) (by simp)

/-- A task or a relay touches one stream, which nobody else holds. -/
theorem Inv.touches {s : StreamId} {m' : StreamManager} (h : Inv own r) (hs : r.MayTouch own s)
    (honly : OnlyAt s r.manager m') (tracks : List TrackTask) :
    Spares own r.manager m' ∧ Inv own { r with manager := m', tracks } :=
  ⟨.of_ne (h.not_heldByOther hs) honly.getHub, h.of_slots rfl rfl rfl honly.slots⟩

/-- A peer connection that cannot be made leaves nothing behind. -/
theorem Inv.of_connecting {s : StreamId} {p : String} (h : Inv own r)
    (hp : r.pending = some (.connecting s p)) : Inv own { r with pending := none } := by
  cases h with
  | reading _ pending => exact absurd (pending.symm.trans hp) (by simp)
  | negotiating _ _ pending => exact absurd (pending.symm.trans hp) (by simp)
  | connecting _ _ _ _ records registers => exact .reading none rfl records registers fun _ => rfl

/-- The peer connection is made. -/
theorem connect_keeps {s : StreamId} {p : String} (h : Inv own r)
    (hp : r.pending = some (.connecting s p)) (offer : PublishOffer) :
    Spares own r.manager (r.connect s p offer).manager ∧ Inv own (r.connect s p offer) := by
  cases h with
  | reading _ pending => exact absurd (pending.symm.trans hp) (by simp)
  | negotiating _ _ pending => exact absurd (pending.symm.trans hp) (by simp)
  | connecting s' p' pending mine records registers closed =>
    obtain ⟨rfl, rfl⟩ : s' = s ∧ p' = p := by simpa using pending.symm.trans hp
    rw [connect]
    rcases hopen : openPublish r.manager s' p' offer with ⟨m', _ | ⟨⟨⟩⟩⟩
    · obtain ⟨hspares, hreg⟩ := openPublish_leaves registers mine hopen
      exact ⟨hspares, .reading none rfl records (by simpa using hreg) fun _ => rfl⟩
    · obtain ⟨hspares, hreg⟩ := openPublish_leaves registers mine hopen
      exact ⟨hspares, .negotiating s' p' rfl records (by simpa using hreg) closed⟩

/-- The `Publish` signal is handled to its end. -/
theorem answer_keeps {s : StreamId} {p : String} (h : Inv own r)
    (hp : r.pending = some (.negotiating s p)) (ok : Bool) :
    Spares own r.manager (closePublish r.manager r.state s p ok).1 ∧
      Inv own { r with
        manager := (closePublish r.manager r.state s p ok).1
        state := (closePublish r.manager r.state s p ok).2
        pending := none } := by
  cases h with
  | reading _ pending => exact absurd (pending.symm.trans hp) (by simp)
  | connecting _ _ pending => exact absurd (pending.symm.trans hp) (by simp)
  | negotiating s' p' pending records registers closed =>
    obtain ⟨rfl, rfl⟩ : s' = s ∧ p' = p := by simpa using pending.symm.trans hp
    have hclose := closePublish_leaves records registers ok
    refine ⟨hclose.spares, .reading _ rfl hclose.records hclose.registers fun hc => ?_⟩
    exact absurd (closed.symm.trans hc) (by simp)

/-- The calls of other parties keep the invariant. -/
theorem other_keeps {op : ManagerOp} {m' : StreamManager} (h : Inv own r)
    (hG : StaysOwn own r (.other op)) (hid : ¬ op.publisherId.any own = true)
    (hop : op.apply r.manager = some m') : Inv own { r with manager := m' } := by
  refine h.of_registers rfl rfl rfl fun reg hreg hregs => ?_
  refine hregs.of_respects (ManagerOp.respects_apply (fun p hp hown => ?_) hop) ?_
  · rw [hp] at hid
    exact hid hown
  · rintro s p rfl habs
    exact ManagerOp.slots_apply_eq_none (hG s (by simp [hreg]) habs) habs hop

/-- A `Publish` signal ends the publication that there is. -/
theorem publish_keeps {s : StreamId} {number : UInt64} (hI : Inv own r)
    (h : step own r (.publish s number) = some r') :
    Spares own r.manager r'.manager ∧ Inv own r' := by
  rw [step, Option.ite_none_right_eq_some] at h
  obtain ⟨⟨hr, hown⟩, h⟩ := h
  cases h
  obtain ⟨reg, records, registers⟩ := hI.records hr
  have hend := publish_leaves records registers s
  exact ⟨hend.spares, .connecting s _ rfl hown hend.records hend.registers hr.1⟩

/-- The peer connection is made, or cannot be made. -/
theorem peerConnection_keeps {offer : Option PublishOffer} (hI : Inv own r)
    (h : step own r (.peerConnection offer) = some r') :
    Spares own r.manager r'.manager ∧ Inv own r' := by
  rcases hp : r.pending with _ | ⟨s, p⟩ | ⟨s, p⟩
  · simp [step, hp] at h
  · rcases offer with _ | offer
    · obtain rfl : { r with pending := none } = r' := by simpa [step, hp] using h
      exact ⟨.refl own _, hI.of_connecting hp⟩
    · obtain rfl : r.connect s p offer = r' := by simpa [step, hp] using h
      exact connect_keeps hI hp offer
  · simp [step, hp] at h

/-- A `StopPublish` signal ends a publication of the session, or one that nobody else holds. -/
theorem stopPublish_keeps {s : StreamId} (hI : Inv own r) (hG : StaysOwn own r (.stopPublish s))
    (h : step own r (.stopPublish s) = some r') : Spares own r.manager r'.manager ∧ Inv own r' := by
  rw [step, Option.ite_none_right_eq_some] at h
  obtain ⟨hr, h⟩ := h
  cases h
  obtain ⟨reg, records, registers⟩ := hI.records hr
  have hpub : r.published = r.state.publishStreamId := by rw [published, hr.2]
  have hend := stopPublish_leaves records registers (hpub ▸ hG.1) fun _ =>
    hI.not_heldByOther hG.2
  exact ⟨hend.spares, .of_leaves hr hend r.relays⟩

/-- A packet of a track goes to the stream of its task. -/
theorem trackPacket_keeps {i : ℕ} {pkt : RtpPacket} (hI : Inv own r)
    (hG : StaysOwn own r (.trackPacket i pkt)) (h : step own r (.trackPacket i pkt) = some r') :
    Spares own r.manager r'.manager ∧ Inv own r' := by
  obtain ⟨task, htask, h⟩ := Option.bind_eq_some_iff.mp h
  obtain ⟨⟨m', task'⟩, hread, rfl⟩ := Option.map_eq_some_iff.mp h
  exact hI.touches (hG task htask) (TrackTask.onlyAt_readPacket hread).1 (r.tracks.set i task')

/-- The end of a video track flushes its ingest; that of another one changes nothing. -/
theorem trackEnd_keeps {i : ℕ} (hI : Inv own r) (hG : StaysOwn own r (.trackEnd i))
    (h : step own r (.trackEnd i) = some r') : Spares own r.manager r'.manager ∧ Inv own r' := by
  obtain ⟨task, htask, h⟩ := Option.bind_eq_some_iff.mp h
  obtain ⟨m', hend, rfl⟩ := Option.map_eq_some_iff.mp h
  rcases hv : task.isVideo with _ | _
  · rw [TrackTask.finish_of_not_isVideo hv] at hend
    cases hend
    exact ⟨.refl own _, hI.of_slots rfl rfl rfl rfl⟩
  · exact hI.touches (hG task htask hv) (TrackTask.onlyAt_finish hend) (r.tracks.eraseIdx i)

/-- A relay that plays a frame stores the parameter sets in it. -/
theorem relayFrame_keeps {i : ℕ} {frame : MediaFrame} (hI : Inv own r)
    (hG : StaysOwn own r (.relayFrame i frame)) (h : step own r (.relayFrame i frame) = some r') :
    Spares own r.manager r'.manager ∧ Inv own r' := by
  obtain ⟨s, hs, rfl⟩ := Option.map_eq_some_iff.mp h
  rcases hc : containsSpsOrPpsNalu (ensureAnnexB frame.data) with _ | _
  · rw [relayFrame_eq_self hc]
    exact ⟨.refl own _, hI.of_slots rfl rfl rfl rfl⟩
  · exact hI.touches (hG s hs hc) (onlyAt_relayFrame r.manager s frame) r.tracks

/-- The cleanup leaves nothing behind. -/
theorem disconnect_keeps (hI : Inv own r) (h : step own r .disconnect = some r') :
    Spares own r.manager r'.manager ∧ Inv own r' := by
  rw [step, Option.ite_none_right_eq_some] at h
  obtain ⟨hr, h⟩ := h
  cases h
  obtain ⟨reg, records, registers⟩ := hI.records hr
  have hend := cleanupSession_leaves records registers
  exact ⟨hend.spares, .reading none hr.2 hend.records hend.registers fun _ => rfl⟩

/-- **One step**: what others hold is left alone, and the invariant is kept. -/
theorem step_keeps (hI : Inv own r) (hG : StaysOwn own r e) (h : step own r e = some r') :
    ((∀ op, e ≠ .other op) → Spares own r.manager r'.manager) ∧ Inv own r' := by
  cases e with
  | other op =>
    rw [step, Option.ite_none_left_eq_some, Option.map_eq_some_iff] at h
    obtain ⟨hid, m', hop, rfl⟩ := h
    exact ⟨fun hne => absurd rfl (hne op), other_keeps hI hG hid hop⟩
  | publish s number => exact (publish_keeps hI h).imp_left fun hspares _ => hspares
  | peerConnection offer => exact (peerConnection_keeps hI h).imp_left fun hspares _ => hspares
  | answer ok =>
    rcases hp : r.pending with _ | ⟨s, p⟩ | ⟨s, p⟩
    · simp [step, hp] at h
    · simp [step, hp] at h
    · simp only [step, hp] at h
      cases h
      exact (answer_keeps hI hp ok).imp_left fun hspares _ => hspares
  | stopPublish s => exact (stopPublish_keeps hI hG h).imp_left fun hspares _ => hspares
  | play s ok =>
    rw [step, Option.ite_none_right_eq_some] at h
    obtain ⟨hr, h⟩ := h
    cases h
    obtain ⟨reg, records, registers⟩ := hI.records hr
    have hplay := play_leaves records registers s ok
    exact ⟨fun _ => .refl own _, .of_leaves hr hplay _⟩
  | stopPlay =>
    rw [step, Option.ite_none_right_eq_some] at h
    obtain ⟨hr, h⟩ := h
    cases h
    obtain ⟨reg, records, registers⟩ := hI.records hr
    have hstop : Leaves own r.manager r.manager r.state.stopPlaySession reg :=
      (Leaves.refl records registers).of_fields rfl rfl rfl
    exact ⟨fun _ => .refl own _, .of_leaves hr hstop r.relays⟩
  | trackStart i clockRate =>
    obtain ⟨s, -, rfl⟩ := Option.map_eq_some_iff.mp h
    exact ⟨fun _ => .refl own _, hI.of_slots rfl rfl rfl rfl⟩
  | trackPacket i pkt => exact (trackPacket_keeps hI hG h).imp_left fun hspares _ => hspares
  | trackEnd i => exact (trackEnd_keeps hI hG h).imp_left fun hspares _ => hspares
  | peerClosed i =>
    obtain ⟨s, -, rfl⟩ := Option.map_eq_some_iff.mp h
    exact ⟨fun _ => .refl own _, hI.of_slots rfl rfl rfl rfl⟩
  | relayFrame i frame => exact (relayFrame_keeps hI hG h).imp_left fun hspares _ => hspares
  | relayEnd i =>
    obtain ⟨s, -, rfl⟩ := Option.map_eq_some_iff.mp h
    exact ⟨fun _ => .refl own _, hI.of_slots rfl rfl rfl rfl⟩
  | disconnect => exact (disconnect_keeps hI h).imp_left fun hspares _ => hspares

/-- After a `StopPublish` there is no publishing peer connection. -/
theorem publishPc_of_stopPublish {s : StreamId} (h : step own r (.stopPublish s) = some r') :
    r'.pending = none ∧ r'.state.publishPc = false := by
  rw [step, Option.ite_none_right_eq_some] at h
  obtain ⟨hr, h⟩ := h
  cases h
  refine ⟨hr.2, ?_⟩
  dsimp only [Webrtc.stopPublish]
  split <;> split <;> rfl

/-- Every event that meets the condition is lawful. -/
theorem authority_of_staysOwn (hI : Inv own r) (hG : StaysOwn own r e) : Authority own r e := by
  intro r' hr'
  obtain ⟨hspares, hinv⟩ := step_keeps hI hG hr'
  constructor
  · exact fun hne k hk => media_congr (hspares hne k hk)
  · exact fun hne k hk => status_congr (hspares hne k hk)
  · rintro (closed | ⟨s, rfl⟩) p hp
    · exact hinv.holdsNothing_of_closed closed hp
    · obtain ⟨pending, hpc⟩ := publishPc_of_stopPublish hr'
      exact hinv.holdsNothing pending hpc hp

/-- **Publish authority** of WebRTC sessions. -/
theorem webrtc_publish_authority (own : String → Bool) (m : StreamManager) (es : List WebrtcEvent)
    (hm : ∀ p, own p = true → m.HoldsNothing p)
    (hG : Always (step own) (StaysOwn own) (start m) es) :
    Always (step own) (Authority own) (start m) es :=
  always_of_inv (fun _ _ => authority_of_staysOwn) (fun _ _ _ hI hG h => (step_keeps hI hG h).2)
    (inv_start hm) hG

/-! ### Runs -/

/-- The publisher id of a session that publishes `cam` once. -/
def camId (p : String) : Bool := p == "webrtc:cam:1"

/-- A session that publishes nothing stops the stream of an RTMP publisher. -/
def stopOtherRun : List WebrtcEvent :=
  [.other (.createStream "cam" .push .rtmp none), .other (.acquirePublisher "cam" "rtmp:a"),
    .other (.setStreamSpsPps "cam" [0x67, 0x42] [0x68, 0xCE]),
      .other (.setStatus "cam" .publishing),
    .stopPublish "cam"]

/-- The stream of the RTMP publisher is **reset**. -/
theorem not_authority_of_stopPublish :
    ¬ Always (step camId) (Authority camId) (start .new) stopOtherRun := by
  intro h
  have hlast := always_iff.mp h stopOtherRun.dropLast (.stopPublish "cam") (by decide) _ rfl _ rfl
  have hmedia := hlast.media (by simp) "cam" (by decide)
  revert hmedia
  decide

/-- A run that meets the condition: a stream is published and stopped, its track
and its peer connection end, and another publisher takes over before the session
plays that stream and leaves. -/
theorem authority_of_handover :
    Always (step camId) (Authority camId) (start .new)
      [.publish "cam" 1, .peerConnection (some ⟨[⟨0, .h264, 96, 90000⟩], none, none⟩), .answer true,
        .trackStart 0 none, .trackPacket 0 ⟨7, 3000, true, [0x65, 0x88]⟩, .stopPublish "cam",
        .trackEnd 0, .peerClosed 0, .other (.acquirePublisher "cam" "rtmp:a"),
        .other (.setStatus "cam" .publishing), .play "cam" true,
        .relayFrame 0 (MediaFrame.new "cam" 0 0 [0x65, 0x88] true .h264), .stopPublish "door",
        .disconnect] :=
  webrtc_publish_authority _ _ _ (fun _ _ => holdsNothing_new _) (by decide)

end WebrtcRun

end VcpMediaServer
