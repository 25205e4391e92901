import VcpMediaServer.Lts
import VcpMediaServer.RtmpConnection

/-!
# RTMP connections and the publisher slot

`handle_connection` as a system: the handshake, messages in any order, and the
ways the read loop is left, with the calls of **other parties** in between. The
publisher id comes from the address of the peer, so that no other party uses it.

* `RtmpRun.step` — one event of the connection or of another party.
* `rtmp_publish_authority` — media changes only where the connection holds the
  slot, if while publishing it does not move to a stream of others and sequence
  headers come only while publishing.
* `rtmp_slots_released` — after the connection has returned it holds no slot, if
  while publishing it stays with its stream and its answers get written.
-/

namespace VcpMediaServer

open Lts Ownership RtmpConnection

/-- Where `handle_connection` is. -/
inductive ConnectionPhase where
  | handshaking
  | reading
  /-- It has returned, with or without an error. -/
  | returned
  /-- The task panicked, and nothing of it runs any more. -/
  | panicked
  deriving DecidableEq, Repr

/-- A connection and the streams. -/
structure RtmpRun where
  /-- The streams. -/
  manager : StreamManager
  /-- The connection. -/
  conn : RtmpConnection
  /-- Where its task is. -/
  phase : ConnectionPhase

/-- What happens to the connection, or beside it. -/
inductive RtmpEvent where
  /-- Another party calls the manager. -/
  | other (op : ManagerOp)
  /-- The handshake is complete, or its answer cannot be written. -/
  | handshake (writeOk : Bool)
  /-- A message is read; `writeOk` says whether an answer can be written. -/
  | message (msg : RtmpMessage) (writeOk : Bool)
  /-- The client closes the connection. -/
  | eof
  /-- Reading from the connection fails. -/
  | readError
  deriving DecidableEq, Repr

namespace RtmpRun

/-- A connection that was just accepted. -/
def start (m : StreamManager) : RtmpRun := ⟨m, RtmpConnection.new, .handshaking⟩

/-- The read loop goes on, is left by a `?`, or is gone. -/
def afterMessage : RtmpOutcome → ConnectionPhase
  | .done _ _ => .reading
  | .failed => .returned
  | .panicked => .panicked

/-- The read loop is left at its end: this is where the slot is released. -/
def leave (r : RtmpRun) : RtmpRun :=
  ⟨(releasePublishConnection r.manager r.conn).1, (releasePublishConnection r.manager r.conn).2,
    .returned⟩

/-- The read loop is running. -/
def IsOpen (r : RtmpRun) : Prop := r.phase = .handshaking ∨ r.phase = .reading

instance (r : RtmpRun) : Decidable r.IsOpen := inferInstanceAs (Decidable (_ ∨ _))

/-- One event; `none` if it cannot happen, or the push of a frame never returns. -/
def step (peerAddr : String) (r : RtmpRun) : RtmpEvent → Option RtmpRun
  | .other op =>
    if op.publisherId = some (rtmpPublisherId peerAddr) then none
    else (op.apply r.manager).map fun manager => { r with manager }
  | .handshake writeOk =>
    if r.phase = .handshaking then
      if writeOk then
        some { r with
          conn := { r.conn with session := { r.conn.session with state := .connected } }
          phase := .reading }
      else some { r with phase := .returned }
    else none
  | .message msg writeOk =>
    if r.phase = .reading then
      (handleRtmpMessage r.manager r.conn msg peerAddr writeOk).map fun (manager, conn, o) =>
        ⟨manager, conn, afterMessage o⟩
    else none
  | .eof => if r.IsOpen then some r.leave else none
  | .readError => if r.IsOpen then some r.leave else none

variable {peerAddr : String} {r r' : RtmpRun} {e : RtmpEvent}

/-- What an event can be. -/
theorem step_cases (h : step peerAddr r e = some r') :
    (∃ op m', e = .other op ∧ op.publisherId ≠ some (rtmpPublisherId peerAddr) ∧
      op.apply r.manager = some m' ∧ r' = { r with manager := m' }) ∨
    (r.phase = .handshaking ∧ r'.manager = r.manager ∧ r.conn.SamePublish r'.conn) ∨
    (∃ msg w o, e = .message msg w ∧ r.phase = .reading ∧ r'.phase = afterMessage o ∧
      handleRtmpMessage r.manager r.conn msg peerAddr w = some (r'.manager, r'.conn, o)) ∨
    (r.IsOpen ∧ r' = r.leave) := by
  cases e with
  | other op =>
    rw [step, Option.ite_none_left_eq_some, Option.map_eq_some_iff] at h
    obtain ⟨hid, m', hop, rfl⟩ := h
    exact .inl ⟨op, m', rfl, hid, hop, rfl⟩
  | handshake w =>
    rw [step, Option.ite_none_right_eq_some] at h
    obtain ⟨hphase, h⟩ := h
    refine .inr (.inl ⟨hphase, ?_⟩)
    split at h <;> cases h <;> exact ⟨rfl, rfl, rfl, rfl⟩
  | message msg w =>
    rw [step, Option.ite_none_right_eq_some, Option.map_eq_some_iff] at h
    obtain ⟨hphase, ⟨m', conn', o⟩, hmsg, rfl⟩ := h
    exact .inr (.inr (.inl ⟨msg, w, o, rfl, hphase, rfl, hmsg⟩))
  | eof =>
    rw [step, Option.ite_none_right_eq_some] at h
    exact .inr (.inr (.inr ⟨h.1, (Option.some.inj h.2).symm⟩))
  | readError =>
    rw [step, Option.ite_none_right_eq_some] at h
    exact .inr (.inr (.inr ⟨h.1, (Option.some.inj h.2).symm⟩))

/-! ## Authority -/

/-- The connection changes media **only by right**. -/
def Authority (peerAddr : String) (r : RtmpRun) (e : RtmpEvent) : Prop :=
  (∀ op, e ≠ .other op) → ∀ r', step peerAddr r e = some r' →
    r.manager.AuthorisedChange (rtmpPublisherId peerAddr) r'.manager

/-- The condition for it. While the connection publishes, no `connect` and no
`play` names a stream that others own, and nobody makes its stream when it is
gone; while it does not, no sequence header comes for a stream that is there. -/
def StaysOwn (peerAddr : String) (r : RtmpRun) : RtmpEvent → Prop
  | .other op =>
    r.conn.isPublishing = true → r.manager.slots r.conn.streamId = none →
      op.created ≠ some r.conn.streamId
  | .message msg _ =>
    (isConfig msg = true →
      r.conn.isPublishing = true ∨ r.manager.slots r.conn.streamId = none) ∧
    ∀ name ∈ r.conn.renamed msg, r.conn.isPublishing = true →
      r.manager.OwnOrAbsent (rtmpPublisherId peerAddr) name
  | _ => True

instance (peerAddr : String) (r : RtmpRun) : (e : RtmpEvent) → Decidable (StaysOwn peerAddr r e)
  | .other _ => inferInstanceAs (Decidable (_ → _ → _))
  | .message _ _ => inferInstanceAs (Decidable (_ ∧ _))
  | .handshake _ => .isTrue trivial
  | .eof => .isTrue trivial
  | .readError => .isTrue trivial

/-- What carries the authority: a connection that publishes does so under its
own id, on a stream that no other party owns. -/
structure Owns (own : String) (m : StreamManager) (conn : RtmpConnection) : Prop where
  publisherId : conn.isPublishing = true → conn.publisherId = some own
  stream : conn.isPublishing = true → m.OwnOrAbsent own conn.streamId

theorem Owns.of_same {own : String} {m : StreamManager} {conn conn' : RtmpConnection}
    (h : Owns own m conn) (same : conn.SamePublish conn') : Owns own m conn' := by
  obtain ⟨h₁, h₂, h₃⟩ := same
  constructor
  · rw [h₁, h₃]
    exact h.publisherId
  · rw [h₁, h₂]
    exact h.stream

theorem Owns.of_not_publishing {own : String} {m : StreamManager} {conn : RtmpConnection}
    (h : conn.isPublishing = false) : Owns own m conn :=
  ⟨fun hp => absurd (h.symm.trans hp) Bool.false_ne_true,
    fun hp => absurd (h.symm.trans hp) Bool.false_ne_true⟩

section Message

variable {own : String} {m m' : StreamManager} {conn conn' : RtmpConnection} {msg : RtmpMessage}

/-- A message **may** do to the media what it does. -/
theorem authorisedChange_of_handled (hI : Owns own m conn)
    (hconfig : isConfig msg = true → conn.isPublishing = true ∨ m.slots conn.streamId = none)
    (h : Handled own m conn msg m' conn') : m.AuthorisedChange own m' := by
  cases h with
  | media _ slots media =>
    refine .of_holds slots fun k hk => ?_
    obtain ⟨rfl, hne, hor⟩ := media k hk
    have hpub : conn.isPublishing = true := by
      rcases hor with hpub | hcfg
      · exact hpub
      · exact (hconfig hcfg).resolve_right hne
    exact (hI.stream hpub).resolve_right hne
  | renames => exact .of_media fun _ => rfl
  | rejects _ _ _ _ _ media => exact .of_media media
  | accepts name _ free _ slots media =>
    intro k hk
    obtain ⟨rfl, hnone⟩ := media k hk
    refine .inr ⟨hnone, .inr ?_⟩
    rw [slots, holds_acquire]
    exact .inr ⟨rfl, rfl, free⟩
  | ends => exact authorisedChange_releasePublishConnection hI.publisherId

/-- A message leaves the connection on a stream that is its own. -/
theorem Owns.of_handled (hI : Owns own m conn)
    (hname : ∀ name ∈ conn.renamed msg, conn.isPublishing = true → m.OwnOrAbsent own name)
    (h : Handled own m conn msg m' conn') : Owns own m' conn' := by
  cases h with
  | media same slots =>
    refine Owns.of_same ⟨hI.publisherId, fun hp => ?_⟩ same
    rw [StreamManager.OwnOrAbsent, slots]
    exact hI.stream hp
  | renames name renamed same =>
    refine Owns.of_same ?_ same
    exact ⟨hI.publisherId, hname name renamed⟩
  | rejects name _ taken same slots =>
    exact Owns.of_same ⟨hI.publisherId, fun hp => (hI.stream hp).create taken slots⟩ same
  | accepts name _ free same slots =>
    refine Owns.of_same ⟨fun _ => rfl, fun _ => .inl ?_⟩ same
    rw [slots, holds_acquire]
    exact .inr ⟨rfl, rfl, free⟩
  | ends same =>
    exact Owns.of_same (.of_not_publishing (releasePublishConnection_isPublishing m conn)) same

end Message

/-- Every event that meets the condition is by right. -/
theorem authority_of_staysOwn (hI : Owns (rtmpPublisherId peerAddr) r.manager r.conn)
    (hG : StaysOwn peerAddr r e) : Authority peerAddr r e := by
  intro hne r' hr'
  obtain ⟨op, m', rfl, -⟩ | ⟨-, hm, -⟩ | ⟨msg, w, o, rfl, -, -, hmsg⟩ | ⟨-, rfl⟩ := step_cases hr'
  · exact absurd rfl (hne op)
  · rw [hm]
    exact .of_media fun _ => rfl
  · exact authorisedChange_of_handled hI hG.1 (handleRtmpMessage_handled hmsg)
  · exact authorisedChange_releasePublishConnection hI.publisherId

/-- Every event that meets the condition leaves the connection on a stream that
is its own. -/
theorem owns_step (hI : Owns (rtmpPublisherId peerAddr) r.manager r.conn)
    (hG : StaysOwn peerAddr r e) (h : step peerAddr r e = some r') :
    Owns (rtmpPublisherId peerAddr) r'.manager r'.conn := by
  obtain ⟨op, m', rfl, hid, hop, rfl⟩ | ⟨-, hm, same⟩ | ⟨msg, w, o, rfl, -, -, hmsg⟩ | ⟨-, rfl⟩ :=
    step_cases h
  · exact ⟨hI.publisherId, fun hp => (hI.stream hp).apply hid (hG hp) hop⟩
  · rw [hm]
    exact hI.of_same same
  · exact hI.of_handled hG.2 (handleRtmpMessage_handled hmsg)
  · exact .of_not_publishing (releasePublishConnection_isPublishing r.manager r.conn)

/-- **Publish authority** of RTMP connections. -/
theorem rtmp_publish_authority (peerAddr : String) (m : StreamManager) (es : List RtmpEvent)
    (hG : Always (step peerAddr) (StaysOwn peerAddr) (start m) es) :
    Always (step peerAddr) (Authority peerAddr) (start m) es :=
  always_of_inv (I := fun r => Owns (rtmpPublisherId peerAddr) r.manager r.conn)
    (fun _ _ => authority_of_staysOwn) (fun _ _ _ => owns_step)
    (.of_not_publishing rfl) hG

/-! ### Runs -/

/-- A command as a client sends it, with transaction 0. -/
def commandMessage (command : String) (args : List Amf0Value) : RtmpMessage :=
  ⟨0x14, 0, 0, Amf0.encode (.string command :: .number 0 :: args)⟩

/-- A sequence header with one SPS and one PPS. -/
def configMessage : RtmpMessage :=
  ⟨0x09, 0, 0, [0x17, 0, 0, 0, 0, 1, 0x42, 0, 0x1F, 0xFF, 0xE1, 0, 2, 0x67, 0x42, 1, 0, 1, 0x68]⟩

/-- A key frame of one NAL unit. -/
def keyframeMessage : RtmpMessage := ⟨0x09, 40, 0, [0x17, 1, 0, 0, 0, 0, 0, 0, 2, 0x65, 0x88]⟩

/-- A client that names the stream of an RTSP publisher in its `connect`, and
sends a sequence header without publishing anything. -/
def configRun : List RtmpEvent :=
  [.other (.createStream "cam" .push .rtsp none), .other (.acquirePublisher "cam" "rtsp:a"),
    .handshake true, .message (commandMessage "connect" [.object [("app", .string "cam")]]) true,
    .message configMessage true]

/-- The sequence header is **stored** for the stream of the other publisher. -/
theorem not_authority_of_config :
    ¬ Always (step "10.0.0.9:4000") (Authority "10.0.0.9:4000") (start .new) configRun := by
  intro h
  have hlast := always_iff.mp h configRun.dropLast (.message configMessage true) (by decide) _ rfl
    (by simp) _ rfl "cam" (by decide)
  revert hlast
  decide

/-- A run that meets the condition: the client publishes, plays its own stream,
and leaves. -/
theorem authority_publish_play :
    Always (step "10.0.0.9:4000") (Authority "10.0.0.9:4000") (start .new)
      [.other (.createStream "door" .push .rtsp none), .other (.acquirePublisher "door" "rtsp:a"),
        .handshake true, .message (commandMessage "publish" [.null, .string "cam"]) true,
        .message configMessage true, .message keyframeMessage true,
        .message (commandMessage "play" [.null, .string "cam"]) true,
        .message keyframeMessage true, .eof] :=
  rtmp_publish_authority _ _ _ (by decide)

/-! ## Release -/

/-- The condition for the release. While the connection publishes, no `connect`,
`play` or accepted `publish` names another stream, and every answer gets written;
so does the answer to a `publish` that is accepted. -/
def StaysPut (peerAddr : String) (r : RtmpRun) : RtmpEvent → Prop
  | .message msg writeOk =>
    (r.conn.isPublishing = true → ∀ name ∈ r.conn.renamed msg, name = r.conn.streamId) ∧
    (r.conn.isPublishing = true → ∀ name ∈ r.conn.published msg,
      r.manager.Accepts (rtmpPublisherId peerAddr) name → name = r.conn.streamId) ∧
    (isAnswered msg = true → writeOk = false → r.conn.isPublishing = false ∧
      ∀ name ∈ r.conn.published msg, ¬ r.manager.Accepts (rtmpPublisherId peerAddr) name)
  | _ => True

instance (peerAddr : String) (r : RtmpRun) : (e : RtmpEvent) → Decidable (StaysPut peerAddr r e)
  | .message _ _ => inferInstanceAs (Decidable (_ ∧ _ ∧ _))
  | .other _ => .isTrue trivial
  | .handshake _ => .isTrue trivial
  | .eof => .isTrue trivial
  | .readError => .isTrue trivial

/-- What the release relies on: the one slot held is that of the stream named. -/
structure Tracks (own : String) (m : StreamManager) (conn : RtmpConnection) : Prop where
  publisherId : conn.isPublishing = true → conn.publisherId = some own
  slot : ∀ s, Holds m.slots s own → conn.isPublishing = true ∧ s = conn.streamId

section Message

variable {own : String} {m m' : StreamManager} {conn conn' : RtmpConnection} {msg : RtmpMessage}

theorem Tracks.of_same (h : Tracks own m conn) (same : conn.SamePublish conn') :
    Tracks own m conn' := by
  obtain ⟨h₁, h₂, h₃⟩ := same
  constructor
  · rw [h₁, h₃]
    exact h.publisherId
  · rw [h₁, h₂]
    exact h.slot

theorem Tracks.of_holdsNothing (hid : conn.isPublishing = true → conn.publisherId = some own)
    (h : m.HoldsNothing own) : Tracks own m conn :=
  ⟨hid, fun s hold => absurd hold (h s)⟩

/-- A connection that does not publish has **nothing**. -/
theorem Tracks.holdsNothing (h : Tracks own m conn) (hpub : conn.isPublishing = false) :
    m.HoldsNothing own := by
  intro s hold
  exact absurd (hpub.symm.trans (h.slot s hold).1) Bool.false_ne_true

/-- The release gives back **all** that is held. -/
theorem Tracks.releasePublishConnection (h : Tracks own m conn) :
    (releasePublishConnection m conn).1.HoldsNothing own := by
  rcases hpub : conn.isPublishing with _ | _
  · rw [releasePublishConnection_of_not_publishing hpub]
    exact h.holdsNothing hpub
  · intro s
    rw [releasePublishConnection_of_publishing hpub (h.publisherId hpub),
      StreamManager.slots_unpublish, holds_release]
    rintro ⟨hold, hne⟩
    exact hne ⟨(h.slot s hold).2, rfl⟩

/-- A message keeps track of the slot. -/
theorem Tracks.of_handled (h : Tracks own m conn)
    (hname : conn.isPublishing = true → ∀ name ∈ conn.renamed msg, name = conn.streamId)
    (hpublish : conn.isPublishing = true → ∀ name ∈ conn.published msg,
      m.Accepts own name → name = conn.streamId)
    (hh : Handled own m conn msg m' conn') : Tracks own m' conn' := by
  cases hh with
  | media same slots =>
    refine Tracks.of_same ⟨h.publisherId, ?_⟩ same
    rw [slots]
    exact h.slot
  | renames name renamed same =>
    refine Tracks.of_same ?_ same
    refine ⟨h.publisherId, fun s hold => ?_⟩
    obtain ⟨hpub, rfl⟩ := h.slot s hold
    exact ⟨hpub, (hname hpub name renamed).symm⟩
  | rejects name _ _ same slots =>
    refine Tracks.of_same ⟨h.publisherId, fun s hold => ?_⟩ same
    rw [slots, holds_create] at hold
    exact h.slot s hold
  | accepts name published free same slots =>
    refine Tracks.of_same ?_ same
    refine ⟨fun _ => rfl, fun s hold => ⟨rfl, ?_⟩⟩
    rw [slots, holds_acquire, holds_create] at hold
    rcases hold with hold | ⟨rfl, -, -⟩
    · -- a slot that was held before is that of the stream published again
      obtain ⟨hpub, rfl⟩ := h.slot s hold
      exact (hpublish hpub name published free).symm
    · rfl
  | ends same =>
    refine Tracks.of_same (.of_holdsNothing (fun hp => ?_) h.releasePublishConnection) same
    rw [releasePublishConnection_isPublishing] at hp
    cases hp

/-- A message that acquires nothing leaves nothing held where nothing was. -/
theorem holdsNothing_of_handled (h : m.HoldsNothing own) (hpub : conn.isPublishing = false)
    (hpublish : ∀ name ∈ conn.published msg, ¬ m.Accepts own name)
    (hh : Handled own m conn msg m' conn') : m'.HoldsNothing own := by
  cases hh with
  | media same slots =>
    intro s
    rw [slots]
    exact h s
  | renames => exact h
  | rejects name _ _ _ slots =>
    intro s
    rw [slots, holds_create]
    exact h s
  | accepts name published free => exact absurd free (hpublish name published)
  | ends =>
    rw [releasePublishConnection_of_not_publishing hpub]
    exact h

end Message

/-- What is held, by where the connection is. -/
def SlotInv (own : String) (r : RtmpRun) : Prop :=
  match r.phase with
  | .handshaking => r.conn.isPublishing = false ∧ r.manager.HoldsNothing own
  | .reading => Tracks own r.manager r.conn
  | .returned => r.manager.HoldsNothing own
  | .panicked => True

theorem slotInv_of_holdsNothing {own : String} (hpub : r.conn.isPublishing = false)
    (h : r.manager.HoldsNothing own) : SlotInv own r := by
  rw [SlotInv]
  split
  · exact ⟨hpub, h⟩
  · exact .of_holdsNothing (fun hp => absurd (hpub.symm.trans hp) Bool.false_ne_true) h
  · exact h
  · trivial

/-- Other parties give the connection nothing. -/
theorem SlotInv.apply {own : String} {op : ManagerOp} {m' : StreamManager} (h : SlotInv own r)
    (ho : op.publisherId ≠ some own) (hop : op.apply r.manager = some m') :
    SlotInv own { r with manager := m' } := by
  rcases hphase : r.phase with _ | _ | _ | _ <;> simp only [SlotInv, hphase] at h ⊢
  · exact ⟨h.1, h.2.apply ho hop⟩
  · have hr := StreamManager.respects_of_apply ho hop
    exact ⟨h.publisherId, fun s hold => h.slot s ((hr s own rfl).1 hold)⟩
  · exact h.apply ho hop

theorem slotInv_step (hI : SlotInv (rtmpPublisherId peerAddr) r) (hG : StaysPut peerAddr r e)
    (h : step peerAddr r e = some r') : SlotInv (rtmpPublisherId peerAddr) r' := by
  obtain ⟨op, m', rfl, hid, hop, rfl⟩ | ⟨hphase, hm, same⟩ | ⟨msg, w, o, rfl, hphase, hphase',
    hmsg⟩ |
    ⟨hopen, rfl⟩ := step_cases h
  · exact hI.apply hid hop
  · rw [SlotInv, hphase] at hI
    apply slotInv_of_holdsNothing (same.isPublishing.trans hI.1)
    rw [hm]
    exact hI.2
  · have htrack : Tracks (rtmpPublisherId peerAddr) r.manager r.conn := by
      rw [SlotInv, hphase] at hI
      exact hI
    have hhandled := handleRtmpMessage_handled hmsg
    rw [SlotInv, hphase']
    cases o with
    | done replies size => exact htrack.of_handled hG.1 hG.2.1 hhandled
    | failed =>
      -- the `?` returns past the release, so there must be nothing to release
      obtain ⟨hw, hanswer⟩ := handleRtmpMessage_failed hmsg
      obtain ⟨hpub, hpublish⟩ := hG.2.2 hanswer hw
      exact holdsNothing_of_handled (htrack.holdsNothing hpub) hpub hpublish hhandled
    | panicked => trivial
  · have htrack : Tracks (rtmpPublisherId peerAddr) r.manager r.conn := by
      rw [SlotInv] at hI
      rcases hopen with hphase | hphase <;> rw [hphase] at hI
      · refine .of_holdsNothing (fun hp => ?_) hI.2
        exact absurd (hI.1.symm.trans hp) Bool.false_ne_true
      · exact hI
    exact htrack.releasePublishConnection

/-- **Slot release** of RTMP connections: once the connection has returned, it
holds nothing. -/
theorem rtmp_slots_released (peerAddr : String) (m : StreamManager) (es : List RtmpEvent)
    (hm : m.HoldsNothing (rtmpPublisherId peerAddr))
    (hG : Always (step peerAddr) (StaysPut peerAddr) (start m) es) (r : RtmpRun)
    (hr : exec (step peerAddr) (start m) es = some r) (hreturned : r.phase = .returned) :
    r.manager.HoldsNothing (rtmpPublisherId peerAddr) := by
  have hI : SlotInv (rtmpPublisherId peerAddr) r :=
    exec_inv (fun _ _ _ => slotInv_step) (slotInv_of_holdsNothing rfl hm) hG hr
  rwa [SlotInv, hreturned] at hI

/-- A client that publishes two names and leaves. -/
def twoNamesRun : List RtmpEvent :=
  [.handshake true, .message (commandMessage "publish" [.null, .string "a"]) true,
    .message (commandMessage "publish" [.null, .string "b"]) true, .eof]

/-- The first of the two slots is **kept**. -/
theorem not_released_of_two_names :
    ∃ r, exec (step "10.0.0.9:4000") (start .new) twoNamesRun = some r ∧ r.phase = .returned ∧
      ¬ r.manager.HoldsNothing (rtmpPublisherId "10.0.0.9:4000") := by
  refine ⟨_, rfl, rfl, fun h => h "a" ?_⟩
  decide

/-- A client that publishes one name twice, until its connection breaks. -/
def oneNameRun : List RtmpEvent :=
  [.handshake true, .message (commandMessage "publish" [.null, .string "a"]) true,
    .message (commandMessage "publish" [.null, .string "a"]) true, .readError]

/-- Nothing is kept then. -/
theorem released_of_one_name :
    ∃ r, exec (step "10.0.0.9:4000") (start .new) oneNameRun = some r ∧
      r.manager.HoldsNothing (rtmpPublisherId "10.0.0.9:4000") :=
  ⟨_, rfl, rtmp_slots_released "10.0.0.9:4000" .new oneNameRun (StreamManager.holdsNothing_new _)
    (by decide) _
    rfl rfl⟩

end RtmpRun

end VcpMediaServer
