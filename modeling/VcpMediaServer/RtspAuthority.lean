import VcpMediaServer.Lts
import VcpMediaServer.RtspServerSession

/-!
# RTSP connections and the publisher slot

The read loop of an RTSP connection as a system: requests and interleaved packets
in any order until the connection is cleaned up, with the calls of **other
parties** in between.

* `RtspRun.step` — one event of the connection or of another party.
* `rtsp_publish_authority` — a packet changes media only where the session's
  publisher id holds the slot, if packets come only from sessions that have a
  publisher id, for the stream of the session.
* `rtsp_slots_released` — after a `TEARDOWN` and after the cleanup the session
  holds nothing, if it announces one stream at a time and records what it has.
-/

namespace VcpMediaServer

open Lts Ownership StreamManager RtspServerSession

/-- A connection and the streams. -/
structure RtspRun where
  /-- The streams. -/
  manager : StreamManager
  /-- The connection. -/
  ss : RtspServerSession
  /-- The connection is cleaned up. -/
  closed : Bool

/-- What happens on the connection, or beside it. -/
inductive RtspEvent where
  /-- Another party calls the manager. -/
  | other (op : ManagerOp)
  /-- A request is read; `newId` is what it draws as a session id. -/
  | request (req : RtspRequest) (newId : String)
  /-- A packet is read on a channel. -/
  | packet (data : List UInt8) (channel : UInt8)
  /-- The read loop ends, for whatever reason, and the connection is cleaned up. -/
  | disconnect
  deriving DecidableEq, Repr

namespace RtspRun

/-- A connection that was just accepted. -/
def start (m : StreamManager) : RtspRun := ⟨m, RtspServerSession.new, false⟩

/-- One event; `none` if it cannot happen, or the push of a frame never returns. -/
def step (peerAddr : String) (r : RtspRun) : RtspEvent → Option RtspRun
  | .other op =>
    if op.publisherId = some (rtspPublisherId peerAddr) then none
    else (op.apply r.manager).map fun manager => { r with manager }
  | .request req newId =>
    if r.closed then none
    else
      let (manager, ss, _) := processRequest r.manager r.ss req peerAddr newId
      some { r with manager, ss }
  | .packet data channel =>
    if r.closed then none
    else (handleRtpData r.manager r.ss data channel).map fun (manager, ss) => { r with manager, ss }
  | .disconnect =>
    if r.closed then none
    else
      let (manager, ss) := cleanupOnDisconnect r.manager r.ss
      some ⟨manager, ss, true⟩

variable {peerAddr : String} {r r' : RtspRun} {e : RtspEvent}

/-- What an event can be. -/
theorem step_cases (h : step peerAddr r e = some r') :
    (∃ op m', e = .other op ∧ op.publisherId ≠ some (rtspPublisherId peerAddr) ∧
      op.apply r.manager = some m' ∧ r' = { r with manager := m' }) ∨
    (∃ req newId, e = .request req newId ∧ r.closed = false ∧ r'.closed = false ∧
      RtspHandled (rtspPublisherId peerAddr) r.manager r.ss.session req r'.manager
        r'.ss.session) ∨
    (∃ data channel, e = .packet data channel ∧ r.closed = false ∧ r'.closed = false ∧
      handleRtpData r.manager r.ss data channel = some (r'.manager, r'.ss)) ∨
    (e = .disconnect ∧ r.closed = false ∧ r'.closed = true ∧
      r'.manager = endRtspPublish r.manager r.ss.session ∧
      r'.ss.session.publisherId = none) := by
  cases e with
  | other op =>
    rw [step, Option.ite_none_left_eq_some, Option.map_eq_some_iff] at h
    obtain ⟨hid, m', hop, rfl⟩ := h
    exact .inl ⟨op, m', rfl, hid, hop, rfl⟩
  | request req newId =>
    rw [step, Option.ite_none_left_eq_some] at h
    obtain ⟨hopen, h⟩ := h
    cases h
    have hopen : r.closed = false := by simpa using hopen
    exact .inr (.inl ⟨req, newId, rfl, hopen, hopen,
      processRtspRequest_handled r.manager r.ss.session req peerAddr newId⟩)
  | packet data channel =>
    rw [step, Option.ite_none_left_eq_some, Option.map_eq_some_iff] at h
    obtain ⟨hopen, ⟨m', ss'⟩, hp, rfl⟩ := h
    have hopen : r.closed = false := by simpa using hopen
    exact .inr (.inr (.inl ⟨data, channel, rfl, hopen, hopen, hp⟩))
  | disconnect =>
    rw [step, Option.ite_none_left_eq_some] at h
    obtain ⟨hopen, h⟩ := h
    cases h
    exact .inr (.inr (.inr ⟨rfl, by simpa using hopen, rfl, rfl, rfl⟩))

/-! ## Authority -/

/-- A packet changes media **only** where the publisher id of the session holds
the slot. -/
def Authority (peerAddr : String) (r : RtspRun) : RtspEvent → Prop
  | .packet data channel =>
    ∀ r', step peerAddr r (.packet data channel) = some r' →
      ∀ k, r'.manager.media k ≠ r.manager.media k →
        ∃ p, r.ss.session.publisherId = some p ∧ Holds r.manager.slots k p
  | _ => True

/-- The condition for it. A packet comes only while the session has a publisher
id or no stream at all, and it goes to the stream of the session: the ingest was
not made for another. A session with a publisher id and no stream gets none by
`DESCRIBE` or `SETUP` that others own, and nobody makes the stream of a session
with a publisher id when it is gone. -/
def StaysOwn (peerAddr : String) (r : RtspRun) : RtspEvent → Prop
  | .other op =>
    r.ss.session.publisherId ≠ none → ∀ s ∈ r.ss.session.streamId, r.manager.slots s = none →
      op.created ≠ some s
  | .request req _ =>
    req.Is "DESCRIBE" ∨ req.Is "SETUP" → r.ss.session.publisherId ≠ none →
      r.ss.session.streamId = none → r.manager.OwnOrAbsent (rtspPublisherId peerAddr) req.streamId
  | .packet _ channel =>
    (r.ss.session.publisherId ≠ none ∨ r.ss.session.streamId = none) ∧
      r.ss.targetOf channel = r.ss.session.streamId
  | .disconnect => True

instance (peerAddr : String) (r : RtspRun) : (e : RtspEvent) → Decidable (StaysOwn peerAddr r e)
  | .other _ => inferInstanceAs (Decidable (_ → _))
  | .request _ _ => inferInstanceAs (Decidable (_ → _))
  | .packet _ _ => inferInstanceAs (Decidable (_ ∧ _))
  | .disconnect => .isTrue trivial

/-- What carries the authority: a session with a publisher id has it under its
own name, and a stream that no other party owns, if any. -/
structure Owns (own : String) (m : StreamManager) (session : RtspSession) : Prop where
  publisherId : ∀ p, session.publisherId = some p → p = own
  stream : session.publisherId ≠ none → ∀ s, session.streamId = some s → m.OwnOrAbsent own s

section Request

variable {own : String} {m m' : StreamManager} {session session' : RtspSession} {req : RtspRequest}

theorem Owns.of_publisherId_eq_none (h : session.publisherId = none) : Owns own m session where
  publisherId p hp := by
    rw [h] at hp
    cases hp
  stream hne := absurd h hne

/-- A request leaves the session on a stream that is its own. -/
theorem Owns.of_handled (hI : Owns own m session)
    (hname : req.Is "DESCRIBE" ∨ req.Is "SETUP" → session.publisherId ≠ none →
      session.streamId = none → m.OwnOrAbsent own req.streamId)
    (h : RtspHandled own m session req m' session') : Owns own m' session' := by
  cases h with
  | quiet same slots =>
    constructor
    · rw [same.publisherId]
      exact hI.publisherId
    · rw [same.publisherId, same.streamId]
      intro hne s hs
      rw [OwnOrAbsent, slots]
      exact hI.stream hne s hs
  | names request unset streamId publisherId =>
    constructor
    · rw [publisherId]
      exact hI.publisherId
    · rw [publisherId, streamId]
      intro hne s hs
      obtain rfl := Option.some.inj hs
      exact hname request hne unset
  | rejects _ taken same slots =>
    constructor
    · rw [same.publisherId]
      exact hI.publisherId
    · rw [same.publisherId, same.streamId]
      exact fun hne s hs => (hI.stream hne s hs).create taken slots
  | announces _ free streamId publisherId slots =>
    constructor
    · rw [publisherId]
      exact fun p hp => (Option.some.inj hp).symm
    · rw [streamId]
      intro _ s hs
      obtain rfl := Option.some.inj hs
      refine .inl ?_
      rw [slots, holds_acquire]
      exact .inr ⟨rfl, rfl, free⟩
  | records _ _ free streamId publisherId slots =>
    constructor
    · rw [publisherId]
      exact fun p hp => (Option.some.inj hp).symm
    · rw [streamId]
      intro _ s hs
      rw [hs, Option.getD_some] at free slots
      refine .inl ?_
      rw [slots, holds_acquire]
      exact .inr ⟨rfl, rfl, free⟩
  | ends _ _ publisherId => exact .of_publisherId_eq_none publisherId

end Request

/-- A packet touches the stream of the session. -/
theorem onlyAt_of_packet {data : List UInt8} {channel : UInt8} {m' : StreamManager}
    {ss' : RtspServerSession} (hG : r.ss.targetOf channel = r.ss.session.streamId)
    (h : handleRtpData r.manager r.ss data channel = some (m', ss')) :
    ss'.session = r.ss.session ∧
      (m' = r.manager ∨ ∃ s, r.ss.session.streamId = some s ∧ OnlyAt s r.manager m') := by
  rw [← hG]
  exact handleRtpData_spec h

/-- Every event that meets the condition is by right. -/
theorem authority_of_staysOwn (hI : Owns (rtspPublisherId peerAddr) r.manager r.ss.session)
    (hG : StaysOwn peerAddr r e) : Authority peerAddr r e := by
  cases e with
  | packet data channel =>
    intro r' hr' k hk
    rw [step, Option.ite_none_left_eq_some, Option.map_eq_some_iff] at hr'
    obtain ⟨-, ⟨m', ss'⟩, hp, rfl⟩ := hr'
    obtain ⟨-, hm | ⟨s, hs, honly⟩⟩ := onlyAt_of_packet hG.2 hp
    · exact absurd (by rw [hm]) hk
    · obtain ⟨rfl, hne⟩ := honly.of_media_ne hk
      have hid : r.ss.session.publisherId ≠ none := by
        refine hG.1.resolve_right fun hnone => ?_
        rw [hs] at hnone
        cases hnone
      obtain ⟨p, hp⟩ := Option.ne_none_iff_exists'.mp hid
      obtain rfl := hI.publisherId p hp
      exact ⟨_, hp, (hI.stream hid k hs).resolve_right hne⟩
  | other op => trivial
  | request req newId => trivial
  | disconnect => trivial

/-- Every event that meets the condition leaves the session on a stream that is
its own. -/
theorem owns_step (hI : Owns (rtspPublisherId peerAddr) r.manager r.ss.session)
    (hG : StaysOwn peerAddr r e) (h : step peerAddr r e = some r') :
    Owns (rtspPublisherId peerAddr) r'.manager r'.ss.session := by
  obtain ⟨op, m', rfl, hid, hop, rfl⟩ | ⟨req, newId, rfl, -, -, hreq⟩ |
    ⟨data, channel, rfl, -, -, hp⟩ | ⟨rfl, -, -, -, hnone⟩ := step_cases h
  · exact ⟨hI.publisherId, fun hne s hs => (hI.stream hne s hs).apply hid (hG hne s hs) hop⟩
  · exact hI.of_handled hG hreq
  · obtain ⟨hsession, hm | ⟨s, -, honly⟩⟩ := onlyAt_of_packet hG.2 hp
    · rw [hsession, hm]
      exact hI
    · rw [hsession]
      refine ⟨hI.publisherId, fun hne s hs => ?_⟩
      rw [OwnOrAbsent, honly.slots]
      exact hI.stream hne s hs
  · exact .of_publisherId_eq_none hnone

/-- **Publish authority** of RTSP connections. -/
theorem rtsp_publish_authority (peerAddr : String) (m : StreamManager) (es : List RtspEvent)
    (hG : Always (step peerAddr) (StaysOwn peerAddr) (start m) es) :
    Always (step peerAddr) (Authority peerAddr) (start m) es :=
  always_of_inv (I := fun r => Owns (rtspPublisherId peerAddr) r.manager r.ss.session)
    (fun _ _ => authority_of_staysOwn) (fun _ _ _ => owns_step)
    (.of_publisherId_eq_none rfl) hG

/-! ### Runs -/

/-- A request over TCP, with an SDP that names no tracks. -/
def requestFor (method : String) (streamId : StreamId) : RtspEvent :=
  .request
    { parts := 3, method, streamId, cseq := "1", transportIsTcp := true, clientPort := none,
      tracks := [], sps := none, pps := none } "8001"

/-- An interleaved packet on channel 2 with one AAC access unit of three bytes. -/
def aacPacket : RtspEvent :=
  .packet [0x24, 2, 0, 19, 0x80, 97, 0, 1, 0, 0, 0, 0, 0, 0, 0, 0, 0, 16, 0, 24, 1, 2, 3] 2

/-- A viewer of the stream of another publisher sends a packet of its own. -/
def viewerRun : List RtspEvent :=
  [.other (.createStream "cam" .push .rtmp none), .other (.acquirePublisher "cam" "rtmp:a"),
    requestFor "DESCRIBE" "cam", aacPacket]

/-- The packet is **published** on the stream of the other publisher. -/
theorem not_authority_of_viewer :
    ¬ Always (step "10.0.0.9:4000") (Authority "10.0.0.9:4000") (start .new) viewerRun := by
  intro h
  obtain ⟨p, hp, -⟩ := always_iff.mp h viewerRun.dropLast aacPacket (by decide) _ rfl _ rfl "cam"
    (by decide)
  cases hp

/-- A run that meets the condition: the client announces, records and sends. -/
theorem authority_of_recorder :
    Always (step "10.0.0.9:4000") (Authority "10.0.0.9:4000") (start .new)
      [.other (.createStream "door" .push .rtmp none), .other (.acquirePublisher "door" "rtmp:a"),
        requestFor "ANNOUNCE" "cam", requestFor "SETUP" "cam", requestFor "RECORD" "cam", aacPacket,
        .other (.releasePublisher "door" "rtmp:a"), aacPacket, requestFor "TEARDOWN" "cam",
        aacPacket, .disconnect] :=
  rtsp_publish_authority _ _ _ (by decide)

/-! ## Release -/

/-- After a `TEARDOWN` and after the cleanup the session holds nothing. -/
def Released (peerAddr : String) (r : RtspRun) (e : RtspEvent) : Prop :=
  ∀ r', step peerAddr r e = some r' →
    (r'.closed = true ∨ ∃ req newId, e = .request req newId ∧ req.Is "TEARDOWN") →
      r'.manager.HoldsNothing (rtspPublisherId peerAddr)

/-- The condition for it. An `ANNOUNCE` that is accepted names the stream that the
session has, if that has a publisher id; a session with neither a stream nor a
publisher id does not `RECORD` a stream whose slot is there to take. -/
def StaysPut (peerAddr : String) (r : RtspRun) : RtspEvent → Prop
  | .request req _ =>
    (req.Is "ANNOUNCE" → r.manager.Accepts (rtspPublisherId peerAddr) req.streamId →
      r.ss.session.publisherId ≠ none → r.ss.session.streamId = some req.streamId) ∧
    (req.Is "RECORD" → r.ss.session.publisherId = none → r.ss.session.streamId = none →
      ¬ Available r.manager.slots req.streamId (rtspPublisherId peerAddr))
  | _ => True

instance (peerAddr : String) (r : RtspRun) : (e : RtspEvent) → Decidable (StaysPut peerAddr r e)
  | .request _ _ => inferInstanceAs (Decidable (_ ∧ _))
  | .other _ => .isTrue trivial
  | .packet _ _ => .isTrue trivial
  | .disconnect => .isTrue trivial

/-- What the release relies on: the one slot held is that of the pair of stream
and publisher id that the session has. -/
def Tracks (own : String) (m : StreamManager) (session : RtspSession) : Prop :=
  ∀ s, Holds m.slots s own → session.streamId = some s ∧ session.publisherId = some own

section Request

variable {own : String} {m m' : StreamManager} {session session' : RtspSession} {req : RtspRequest}

/-- The release gives back **all** that is held. -/
theorem Tracks.endRtspPublish (h : Tracks own m session) :
    (endRtspPublish m session).HoldsNothing own := by
  intro s
  rw [VcpMediaServer.endRtspPublish]
  split
  · next s₀ p₀ hs₀ hp₀ =>
    rw [slots_unpublish, holds_release]
    rintro ⟨hold, hne⟩
    obtain ⟨hs, hp⟩ := h s hold
    rw [hs] at hs₀
    rw [hp] at hp₀
    exact hne ⟨Option.some.inj hs₀, Option.some.inj hp₀⟩
  · next hnone =>
    intro hold
    obtain ⟨hs, hp⟩ := h s hold
    exact hnone s own hs hp

/-- A request keeps track of the slot. -/
theorem Tracks.of_handled (h : Tracks own m session)
    (hannounce : req.Is "ANNOUNCE" → m.Accepts own req.streamId → session.publisherId ≠ none →
      session.streamId = some req.streamId)
    (hrecord : req.Is "RECORD" → session.publisherId = none → session.streamId = none →
      ¬ Available m.slots req.streamId own)
    (hh : RtspHandled own m session req m' session') : Tracks own m' session' := by
  cases hh with
  | quiet same slots =>
    intro s hold
    rw [slots] at hold
    rw [same.streamId, same.publisherId]
    exact h s hold
  | names _ unset =>
    -- a session without a stream holds nothing
    intro s hold
    rw [(h s hold).1] at unset
    cases unset
  | rejects _ _ same slots =>
    intro s hold
    rw [slots, holds_create] at hold
    rw [same.streamId, same.publisherId]
    exact h s hold
  | announces request free streamId publisherId slots =>
    intro s hold
    rw [slots, holds_acquire, holds_create] at hold
    refine ⟨?_, publisherId⟩
    rw [streamId]
    rcases hold with hold | ⟨rfl, -, -⟩
    · obtain ⟨hs, hp⟩ := h s hold
      rw [← hannounce request free (by simp [hp]), hs]
    · rfl
  | records request unset free streamId publisherId slots =>
    intro s hold
    rw [slots, holds_acquire] at hold
    refine ⟨?_, publisherId⟩
    rw [streamId]
    rcases hold with hold | ⟨rfl, -, -⟩
    · -- a session without a publisher id holds nothing
      rw [(h s hold).2] at unset
      cases unset
    · rcases hs : session.streamId with _ | s₀
      · rw [hs] at free
        exact absurd free (hrecord request unset hs)
      · rfl
  | ends =>
    intro s hold
    exact absurd hold (h.endRtspPublish s)

end Request

/-- What is held, before and after the cleanup. -/
def SlotInv (own : String) (r : RtspRun) : Prop :=
  if r.closed then r.manager.HoldsNothing own else Tracks own r.manager r.ss.session

theorem slotInv_step (hI : SlotInv (rtspPublisherId peerAddr) r) (hG : StaysPut peerAddr r e)
    (h : step peerAddr r e = some r') : SlotInv (rtspPublisherId peerAddr) r' := by
  obtain ⟨op, m', rfl, hid, hop, rfl⟩ | ⟨req, newId, rfl, hopen, hopen', hreq⟩ |
    ⟨data, channel, rfl, hopen, hopen', hp⟩ | ⟨rfl, hopen, hclosed, hm, -⟩ := step_cases h
  · rcases hc : r.closed with _ | _ <;> simp only [SlotInv, hc] at hI ⊢
    · exact fun s hold => hI s ((respects_of_apply hid hop s _ rfl).1 hold)
    · exact HoldsNothing.apply hI hid hop
  · simp only [SlotInv, hopen, hopen', Bool.false_eq_true, if_false] at hI ⊢
    exact hI.of_handled hG.1 hG.2 hreq
  · simp only [SlotInv, hopen, hopen', Bool.false_eq_true, if_false] at hI ⊢
    obtain ⟨hsession, hm | ⟨s, -, honly⟩⟩ := handleRtpData_spec hp
    · rw [hsession, hm]
      exact hI
    · rw [Tracks, hsession, honly.slots]
      exact hI
  · simp only [SlotInv, hopen, hclosed, Bool.false_eq_true, if_false, if_true] at hI ⊢
    rw [hm]
    exact hI.endRtspPublish

theorem released_of_staysPut (hI : SlotInv (rtspPublisherId peerAddr) r)
    (hG : StaysPut peerAddr r e) : Released peerAddr r e := by
  intro r' hr' hor
  rcases hor with hclosed | ⟨req, newId, rfl, hteardown⟩
  · have hI' := slotInv_step hI hG hr'
    rwa [SlotInv, if_pos hclosed] at hI'
  · rw [step, Option.ite_none_left_eq_some] at hr'
    obtain ⟨hopen, hr'⟩ := hr'
    cases hr'
    rw [SlotInv, if_neg hopen] at hI
    have hend := hI.endRtspPublish
    rwa [← processRtspRequest_teardown hteardown] at hend

theorem slotInv_start {own : String} {m : StreamManager} (hm : m.HoldsNothing own) :
    SlotInv own (start m) :=
  fun s hold => absurd hold (hm s)

/-- **Slot release** of RTSP connections. -/
theorem rtsp_slots_released (peerAddr : String) (m : StreamManager) (es : List RtspEvent)
    (hm : m.HoldsNothing (rtspPublisherId peerAddr))
    (hG : Always (step peerAddr) (StaysPut peerAddr) (start m) es) :
    Always (step peerAddr) (Released peerAddr) (start m) es :=
  always_of_inv (I := SlotInv (rtspPublisherId peerAddr)) (fun _ _ => released_of_staysPut)
    (fun _ _ _ => slotInv_step) (slotInv_start hm) hG

/-- A client that announces two streams and leaves. -/
def twoStreamsRun : List RtspEvent :=
  [requestFor "ANNOUNCE" "a", requestFor "ANNOUNCE" "b", .disconnect]

/-- The first of the two slots is **kept**. -/
theorem not_released_of_two_streams :
    ¬ Always (step "10.0.0.9:4000") (Released "10.0.0.9:4000") (start .new) twoStreamsRun := by
  intro h
  apply always_iff.mp h twoStreamsRun.dropLast .disconnect (by decide) _ rfl _ rfl (.inl rfl) "a"
  decide

/-- A run that meets the condition: a stream is announced twice and torn down, and
another is announced until the client leaves. -/
theorem released_of_one_stream :
    Always (step "10.0.0.9:4000") (Released "10.0.0.9:4000") (start .new)
      [requestFor "ANNOUNCE" "a", requestFor "RECORD" "a", requestFor "ANNOUNCE" "a",
        requestFor "TEARDOWN" "a", requestFor "ANNOUNCE" "b", requestFor "RECORD" "b", aacPacket,
        .disconnect] :=
  rtsp_slots_released _ _ _ (holdsNothing_new _) (by decide)

end RtspRun

end VcpMediaServer
