import VcpMediaServer.Pullers
import VcpMediaServer.RtmpAuthority
import VcpMediaServer.RtspAuthority
import VcpMediaServer.WebrtcAuthority

/-!
# The sources of a server

Everything that can feed a stream, on the one manager: RTMP and RTSP connections with
the UDP receivers that the latter start, WebRTC sessions, and pullers, in any number
and any interleaving. Each is the system of its own module with the **shared** streams
in place of its own, and the calls of other parties are now what the others do.

* `Source.step` — one event of a source.
* `Source.StaysOwn` — the condition of its own module.
* `Source.Acted` — what a source does to the streams, if it meets that condition.
-/

namespace VcpMediaServer

open Ownership StreamManager

/-- Whom a source acts for. Every connection has an address of its own. -/
inductive Party where
  | rtmp (peerAddr : String)
  | rtsp (peerAddr : String)
  | webrtc (number : ℕ)
  | rtmpPuller (localStreamId : StreamId) (remoteUrl : String)
  | rtspPuller (localStreamId : StreamId) (remoteUrl : String)
  deriving DecidableEq, Repr

/-- The publisher that a publisher id belongs to: the address is in the id, and the
number in that of a WebRTC session is drawn at random, so that `draws` knows the one
session that draws it. -/
def publisherOf (draws : String → Option ℕ) (p : String) : Option Party :=
  match p.toList with
  | 'r' :: 't' :: 'm' :: 'p' :: ':' :: rest => some (.rtmp (String.ofList rest))
  | 'r' :: 't' :: 's' :: 'p' :: ':' :: rest => some (.rtsp (String.ofList rest))
  | _ => (draws p).map .webrtc

/-- The publisher ids of a party. -/
def Party.ids (draws : String → Option ℕ) (party : Party) (p : String) : Bool :=
  publisherOf draws p = some party

/-- The party pulls, and has no publisher ids. -/
def Party.IsPuller : Party → Prop
  | .rtmpPuller _ _ => True
  | .rtspPuller _ _ => True
  | _ => False

theorem publisherOf_rtmp (draws : String → Option ℕ) (a : String) :
    publisherOf draws (rtmpPublisherId a) = some (.rtmp a) := by
  have hlist : (rtmpPublisherId a).toList = 'r' :: 't' :: 'm' :: 'p' :: ':' :: a.toList := by
    rw [rtmpPublisherId, String.toList_append]
    rfl
  rw [publisherOf, hlist]
  simp

theorem publisherOf_rtsp (draws : String → Option ℕ) (a : String) :
    publisherOf draws (rtspPublisherId a) = some (.rtsp a) := by
  have hlist : (rtspPublisherId a).toList = 'r' :: 't' :: 's' :: 'p' :: ':' :: a.toList := by
    rw [rtspPublisherId, String.toList_append]
    rfl
  rw [publisherOf, hlist]
  simp

/-- A publisher id is that of **one** party. -/
theorem Party.ids_apart {draws : String → Option ℕ} {a b : Party} (hab : a ≠ b) {p : String}
    (h : a.ids draws p = true) : b.ids draws p = false := by
  simp only [Party.ids, decide_eq_true_eq, decide_eq_false_iff_not] at h ⊢
  rw [h]
  simpa using hab

/-- A puller has no publisher ids. -/
theorem Party.ids_of_isPuller {draws : String → Option ℕ} {a : Party} (ha : a.IsPuller)
    (p : String) : a.ids draws p = false := by
  rw [Party.ids, decide_eq_false_iff_not]
  rintro h
  rw [publisherOf] at h
  split at h
  · obtain rfl := Option.some.inj h
    exact ha
  · obtain rfl := Option.some.inj h
    exact ha
  · obtain ⟨n, -, rfl⟩ := Option.map_eq_some_iff.mp h
    exact ha

/-! ## Connections and sessions -/

/-- The media that changes is that of streams which nobody else holds. -/
theorem StreamManager.AuthorisedChange.of_holds_eq {own p : String} {m m' : StreamManager}
    {makes takes : Option StreamId} {k : StreamId} (h : m.AuthorisedChange own m')
    (ha : Acts (fun q => q = own) makes takes m.slots m'.slots) (hk : m'.media k ≠ m.media k)
    (hp : Holds m.slots k p) : p = own := by
  rcases h k hk with ⟨hold, -⟩ | ⟨-, hold | hold⟩
  · exact hp.unique hold
  · exact hp.unique hold
  · by_contra hne
    -- whoever else holds the slot before still holds it
    rcases ha.keeps k p hne hp with hkept | hgone
    · exact hne (hkept.unique hold)
    · exact hold.ne_none hgone

namespace RtmpRun

/-- The stream whose slot the event asks for. -/
def asks (r : RtmpRun) : RtmpEvent → Option StreamId
  | .message msg _ => r.conn.published msg
  | _ => none

variable {peerAddr : String} {r r' : RtmpRun} {e : RtmpEvent}

theorem acts_releasePublishConnection {own : String} {m : StreamManager} {conn : RtmpConnection}
    (makes takes : Option StreamId) (hI : Owns own m conn) :
    Acts (fun q => q = own) makes takes m.slots
      (RtmpConnection.releasePublishConnection m conn).1.slots := by
  rcases hpub : conn.isPublishing with _ | _
  · rw [RtmpConnection.releasePublishConnection_of_not_publishing hpub]
    exact .refl _ _ _ _
  · rw [RtmpConnection.releasePublishConnection_of_publishing hpub (hI.publisherId hpub),
      slots_unpublish]
    exact acts_release _ _ _ _ rfl

theorem acts_of_handled {own : String} {m m' : StreamManager} {conn conn' : RtmpConnection}
    {msg : RtmpMessage} (hI : Owns own m conn)
    (h : RtmpConnection.Handled own m conn msg m' conn') :
    Acts (fun q => q = own) (conn.published msg) (conn.published msg) m.slots m'.slots := by
  cases h with
  | media _ slots =>
    rw [slots]
    exact .refl _ _ _ _
  | renames => exact .refl _ _ _ _
  | rejects name published _ _ slots =>
    rw [slots, published]
    exact acts_create _ _ _ _
  | accepts name published _ _ slots =>
    rw [slots, published]
    exact acts_acquire_create _ _ rfl
  | ends => exact acts_releasePublishConnection _ _ hI

/-- What an event of a connection does to the slots. -/
theorem acts_step (hI : Owns (rtmpPublisherId peerAddr) r.manager r.conn)
    (hne : ∀ op, e ≠ .other op) (h : step peerAddr r e = some r') :
    Acts (fun q => q = rtmpPublisherId peerAddr) (r.asks e) (r.asks e) r.manager.slots
      r'.manager.slots := by
  obtain ⟨op, m', rfl, -⟩ | ⟨-, hm, -⟩ | ⟨msg, w, o, rfl, -, -, hmsg⟩ | ⟨-, rfl⟩ := step_cases h
  · exact absurd rfl (hne op)
  · rw [hm]
    exact .refl _ _ _ _
  · exact acts_of_handled hI (RtmpConnection.handleRtmpMessage_handled hmsg)
  · exact acts_releasePublishConnection _ _ hI

end RtmpRun

namespace RtspRun

/-- The stream that the event makes, if there is none. -/
def makes : RtspEvent → Option StreamId
  | .request req _ => if req.Is "ANNOUNCE" then some req.streamId else none
  | _ => none

/-- The stream whose slot the event asks for. -/
def asks (r : RtspRun) : RtspEvent → Option StreamId
  | .request req _ =>
    if req.Is "ANNOUNCE" then some req.streamId
    else if req.Is "RECORD" ∧ r.ss.session.publisherId = none then
      some (r.ss.session.streamId.getD req.streamId)
    else none
  | _ => none

variable {peerAddr : String} {r r' : RtspRun} {e : RtspEvent}

theorem acts_endRtspPublish {own : String} {m : StreamManager} {session : RtspSession}
    (makes takes : Option StreamId) (hI : Owns own m session) :
    Acts (fun q => q = own) makes takes m.slots (endRtspPublish m session).slots := by
  rw [endRtspPublish]
  split
  · next s p _ hp =>
    rw [slots_unpublish]
    exact acts_release _ _ _ _ (hI.publisherId p hp)
  · exact .refl _ _ _ _

theorem acts_of_handled {own : String} {m m' : StreamManager} {session session' : RtspSession}
    {req : RtspRequest} {newId : String} {r : RtspRun} (hr : r.ss.session = session)
    (hI : Owns own m session) (h : RtspHandled own m session req m' session') :
    Acts (fun q => q = own) (makes (.request req newId)) (r.asks (.request req newId)) m.slots
      m'.slots := by
  cases h with
  | quiet _ slots =>
    rw [slots]
    exact .refl _ _ _ _
  | names => exact .refl _ _ _ _
  | rejects request _ _ slots =>
    rw [slots, makes, if_pos request]
    exact acts_create _ _ _ _
  | announces request _ _ _ slots =>
    rw [slots, makes, if_pos request, asks, if_pos request]
    exact acts_acquire_create _ _ rfl
  | records request unset _ _ _ slots =>
    have hannounce : ¬ req.Is "ANNOUNCE" := by
      rintro ⟨-, h⟩
      rw [request.2] at h
      simp at h
    rw [slots, asks, if_neg hannounce, hr, if_pos ⟨request, unset⟩]
    exact acts_acquire _ _ _ rfl
  | ends => exact acts_endRtspPublish _ _ hI

/-- What an event of a connection does to the slots. -/
theorem acts_step (hI : Owns (rtspPublisherId peerAddr) r.manager r.ss.session)
    (hne : ∀ op, e ≠ .other op) (h : step peerAddr r e = some r') :
    Acts (fun q => q = rtspPublisherId peerAddr) (makes e) (r.asks e) r.manager.slots
      r'.manager.slots := by
  obtain ⟨op, m', rfl, -⟩ | ⟨req, newId, rfl, -, -, hreq⟩ | ⟨data, channel, rfl, -, -, hp⟩ |
    ⟨rfl, -, -, hm, -⟩ := step_cases h
  · exact absurd rfl (hne op)
  · exact acts_of_handled rfl hI hreq
  · obtain ⟨-, hm | ⟨s, -, honly⟩⟩ := RtspServerSession.handleRtpData_spec hp
    · rw [hm]
      exact .refl _ _ _ _
    · rw [honly.slots]
      exact .refl _ _ _ _
  · rw [hm]
    exact acts_endRtspPublish _ _ hI

theorem media_endRtspPublish_ne {own : String} {m : StreamManager} {session : RtspSession}
    {k : StreamId} (hI : Owns own m session)
    (hk : (endRtspPublish m session).media k ≠ m.media k) : Holds m.slots k own := by
  rw [endRtspPublish] at hk
  split at hk
  · next s p _ hp =>
    obtain ⟨rfl, hold, -⟩ := media_unpublish_ne hk
    rwa [hI.publisherId p hp] at hold
  · exact absurd rfl hk

/-- A request changes the media of streams which nobody else holds. -/
theorem media_of_handled {own p : String} {m m' : StreamManager} {session session' : RtspSession}
    {req : RtspRequest} {k : StreamId} (hI : Owns own m session)
    (h : RtspHandled own m session req m' session') (hk : m'.media k ≠ m.media k)
    (hp : Holds m.slots k p) : p = own := by
  cases h with
  | quiet _ _ media => exact absurd (media k) hk
  | names => exact absurd rfl hk
  | rejects _ _ _ _ media => exact absurd (media k) hk
  | announces _ free _ _ _ media =>
    obtain rfl := media k hk
    exact free.eq_of_holds (holds_create.mpr hp)
  | records _ _ free _ _ _ media =>
    obtain rfl := media k hk
    exact free.eq_of_holds hp
  | ends => exact hp.unique (media_endRtspPublish_ne hI hk)

/-- An event of a connection changes the media of streams which nobody else holds. -/
theorem media_step {p : String} {k : StreamId}
    (hI : Owns (rtspPublisherId peerAddr) r.manager r.ss.session) (hG : StaysOwn peerAddr r e)
    (hne : ∀ op, e ≠ .other op) (h : step peerAddr r e = some r')
    (hk : r'.manager.media k ≠ r.manager.media k) (hp : Holds r.manager.slots k p) :
    p = rtspPublisherId peerAddr := by
  obtain ⟨op, m', rfl, -⟩ | ⟨req, newId, rfl, -, -, hreq⟩ | ⟨data, channel, rfl, -, -, -⟩ |
    ⟨rfl, -, -, hm, -⟩ := step_cases h
  · exact absurd rfl (hne op)
  · exact media_of_handled hI hreq hk hp
  · obtain ⟨q, hq, hold⟩ := authority_of_staysOwn hI hG r' h k hk
    rw [hp.unique hold]
    exact hI.publisherId q hq
  · rw [hm] at hk
    exact hp.unique (media_endRtspPublish_ne hI hk)

end RtspRun

namespace WebrtcRun

/-- The stream whose slot the event asks for. -/
def asks (r : WebrtcRun) : WebrtcEvent → Option StreamId
  | .peerConnection (some _) =>
    match r.pending with
    | some (.connecting s _) => some s
    | _ => none
  | _ => none

variable {own : String → Bool} {r r' : WebrtcRun} {e : WebrtcEvent}

/-- The publisher id in the state is the session's own. -/
theorem Inv.publisherId (h : Inv own r) (p : String) (hp : r.state.publisherId = some p) :
    own p = true := by
  cases h with
  | reading reg _ records registers _ =>
    obtain ⟨⟨s, q⟩, rfl, rfl⟩ := Option.map_eq_some_iff.mp (records.publisherId.symm.trans hp)
    exact registers.mine s q rfl
  | connecting _ _ _ _ records => exact absurd (records.publisherId.symm.trans hp) (by simp)
  | negotiating _ _ _ records => exact absurd (records.publisherId.symm.trans hp) (by simp)

/-- The publisher id of a `Publish` signal is the session's own. -/
theorem Inv.pending_mine (h : Inv own r) {s : StreamId} {p : String}
    (hp : r.pending = some (.connecting s p) ∨ r.pending = some (.negotiating s p)) :
    own p = true := by
  cases h with
  | reading _ pending => simp [pending] at hp
  | connecting s' p' pending mine =>
    obtain ⟨rfl, rfl⟩ : s' = s ∧ p' = p := by simpa [pending] using hp
    exact mine
  | negotiating s' p' pending _ registers =>
    obtain ⟨rfl, rfl⟩ : s' = s ∧ p' = p := by simpa [pending] using hp
    exact registers.mine s' p' rfl

/-- What an event of a session does to the slots. -/
theorem acts_step (hI : Inv own r) (hne : ∀ op, e ≠ .other op) (h : step own r e = some r') :
    Acts (fun q => own q = true) (r.asks e) (r.asks e) r.manager.slots r'.manager.slots := by
  cases e with
  | other op => exact absurd rfl (hne op)
  | publish s number =>
    rw [step, Option.ite_none_right_eq_some] at h
    obtain ⟨-, h⟩ := h
    cases h
    exact Webrtc.acts_publish s hI.publisherId
  | peerConnection offer =>
    rcases hp : r.pending with _ | ⟨s, p⟩ | ⟨s, p⟩
    · simp [step, hp] at h
    · rcases offer with _ | offer
      · obtain rfl : { r with pending := none } = r' := by simpa [step, hp] using h
        exact .refl _ _ _ _
      · obtain rfl : r.connect s p offer = r' := by simpa [step, hp] using h
        have hopen := Webrtc.acts_openPublish (m := r.manager) (s := s)
          (hI.pending_mine (.inl hp)) offer
        have hm : (r.connect s p offer).manager = (Webrtc.openPublish r.manager s p offer).1 := by
          rw [connect]
          rcases Webrtc.openPublish r.manager s p offer with ⟨m₁, _ | ⟨⟨⟩⟩⟩ <;> rfl
        rw [hm, asks, hp]
        exact hopen
    · simp [step, hp] at h
  | answer ok =>
    rcases hp : r.pending with _ | ⟨s, p⟩ | ⟨s, p⟩
    · simp [step, hp] at h
    · simp [step, hp] at h
    · simp only [step, hp] at h
      cases h
      exact Webrtc.acts_closePublish ok (hI.pending_mine (.inr hp))
  | stopPublish s =>
    rw [step, Option.ite_none_right_eq_some] at h
    obtain ⟨-, h⟩ := h
    cases h
    exact Webrtc.acts_stopPublish s hI.publisherId
  | play s ok =>
    rw [step, Option.ite_none_right_eq_some] at h
    obtain ⟨-, h⟩ := h
    cases h
    exact .refl _ _ _ _
  | stopPlay =>
    rw [step, Option.ite_none_right_eq_some] at h
    obtain ⟨-, h⟩ := h
    cases h
    exact .refl _ _ _ _
  | trackStart i clockRate =>
    obtain ⟨s, -, rfl⟩ := Option.map_eq_some_iff.mp h
    exact .refl _ _ _ _
  | trackPacket i pkt =>
    obtain ⟨task, -, h⟩ := Option.bind_eq_some_iff.mp h
    obtain ⟨⟨m', task'⟩, hread, rfl⟩ := Option.map_eq_some_iff.mp h
    rw [(Webrtc.TrackTask.onlyAt_readPacket hread).1.slots]
    exact .refl _ _ _ _
  | trackEnd i =>
    obtain ⟨task, -, h⟩ := Option.bind_eq_some_iff.mp h
    obtain ⟨m', hend, rfl⟩ := Option.map_eq_some_iff.mp h
    rw [(Webrtc.TrackTask.onlyAt_finish hend).slots]
    exact .refl _ _ _ _
  | peerClosed i =>
    obtain ⟨s, -, rfl⟩ := Option.map_eq_some_iff.mp h
    exact .refl _ _ _ _
  | relayFrame i frame =>
    obtain ⟨s, -, rfl⟩ := Option.map_eq_some_iff.mp h
    rw [(Webrtc.onlyAt_relayFrame r.manager s frame).slots]
    exact .refl _ _ _ _
  | relayEnd i =>
    obtain ⟨s, -, rfl⟩ := Option.map_eq_some_iff.mp h
    exact .refl _ _ _ _
  | disconnect =>
    rw [step, Option.ite_none_right_eq_some] at h
    obtain ⟨-, h⟩ := h
    cases h
    exact Webrtc.acts_cleanupSession hI.publisherId

/-- An event of a session changes the media of streams which nobody else holds. -/
theorem media_step {p : String} {k : StreamId} (hI : Inv own r) (hG : StaysOwn own r e)
    (hne : ∀ op, e ≠ .other op) (h : step own r e = some r')
    (hk : r'.manager.media k ≠ r.manager.media k) (hp : Holds r.manager.slots k p) :
    own p = true := by
  by_contra hother
  refine hk (media_congr ((step_keeps hI hG h).1 hne k ?_))
  exact ⟨p, hp, by simpa using hother⟩

end WebrtcRun

/-! ## Sources -/

/-- A source and where it is. The streams are shared: what a run keeps of them is not
looked at. -/
inductive Source where
  /-- An RTMP connection. -/
  | rtmp (peerAddr : String) (run : RtmpRun)
  /-- An RTSP connection and its UDP receivers, which outlive it. -/
  | rtsp (peerAddr : String) (run : RtspRun) (receivers : List UdpReceiver)
  /-- A WebRTC session. -/
  | webrtc (number : ℕ) (run : WebrtcRun)
  /-- An RTMP puller. -/
  | rtmpPuller (pull : RtmpPull)
  /-- An RTSP puller. -/
  | rtspPuller (pull : RtspPull)

/-- What happens to a source. -/
inductive SourceEvent where
  | rtmp (e : RtmpEvent)
  | rtsp (e : RtspEvent)
  /-- A UDP receiver is started for a track of an RTSP session. -/
  | udpStart (trackId : TrackId)
  /-- A UDP receiver of an RTSP session takes a packet. -/
  | udpPacket (i : ℕ) (rtp : List UInt8)
  | webrtc (e : WebrtcEvent)
  | rtmpPuller (e : RtmpPullEvent)
  | rtspPuller (e : RtspPullEvent)
  deriving DecidableEq, Repr

/-- The event is the call of another party. -/
def SourceEvent.isOther : SourceEvent → Bool
  | .rtmp (.other _) => true
  | .rtsp (.other _) => true
  | .webrtc (.other _) => true
  | _ => false

namespace Source

/-- A source before it does anything. -/
def new : Party → Source
  | .rtmp a => .rtmp a (.start .new)
  | .rtsp a => .rtsp a (.start .new) []
  | .webrtc n => .webrtc n (.start .new)
  | .rtmpPuller s url => .rtmpPuller (.new s url)
  | .rtspPuller s url => .rtspPuller (.new s url)

/-- Whom the source acts for. -/
def party : Source → Party
  | .rtmp a _ => .rtmp a
  | .rtsp a _ _ => .rtsp a
  | .webrtc n _ => .webrtc n
  | .rtmpPuller pull => .rtmpPuller pull.localStreamId pull.remoteUrl
  | .rtspPuller pull => .rtspPuller pull.localStreamId pull.remoteUrl

/-- One event; `none` if it cannot happen, or the push of a frame never returns. -/
def step (draws : String → Option ℕ) (m : StreamManager) (src : Source) (e : SourceEvent) :
    Option (StreamManager × Source) :=
  if e.isOther then none
  else
    match src, e with
    | .rtmp a run, .rtmp e =>
      (RtmpRun.step a { run with manager := m } e).map fun run => (run.manager, .rtmp a run)
    | .rtsp a run receivers, .rtsp e =>
      (RtspRun.step a { run with manager := m } e).map fun run =>
        (run.manager, .rtsp a run receivers)
    | .rtsp a run receivers, .udpStart trackId =>
      run.ss.session.streamId.map fun s =>
        (m, .rtsp a run (receivers ++ [.new s trackId run.ss.session.tracks true]))
    | .rtsp a run receivers, .udpPacket i rtp =>
      receivers[i]?.bind fun rx => (rx.receive m rtp).map fun (m, rx) =>
        (m, .rtsp a run (receivers.set i rx))
    | .webrtc n run, .webrtc e =>
      (WebrtcRun.step ((Party.webrtc n).ids draws) { run with manager := m } e).map fun run =>
        (run.manager, .webrtc n run)
    | .rtmpPuller pull, .rtmpPuller e => (pull.step m e).map fun (m, pull) => (m, .rtmpPuller pull)
    | .rtspPuller pull, .rtspPuller e => (pull.step m e).map fun (m, pull) => (m, .rtspPuller pull)
    | _, _ => none

/-- The stream that a publisher publishes. -/
def published : Source → Option StreamId
  | .rtmp _ run => if run.conn.isPublishing then some run.conn.streamId else none
  | .rtsp _ run _ => if run.ss.session.publisherId ≠ none then run.ss.session.streamId else none
  | .webrtc _ run => run.published
  | .rtmpPuller _ => none
  | .rtspPuller _ => none

/-- The stream that a puller pulls to. -/
def pulled : Source → Option StreamId
  | .rtmpPuller pull => if pull.IsActive then some pull.localStreamId else none
  | .rtspPuller pull => if pull.isActive then some pull.localStreamId else none
  | _ => none

/-- The stream whose slot the event asks for. -/
def takes (src : Source) (e : SourceEvent) : Option StreamId :=
  match src, e with
  | .rtmp _ run, .rtmp e => run.asks e
  | .rtsp _ run _, .rtsp e => run.asks e
  | .webrtc _ run, .webrtc e => run.asks e
  | _, _ => none

/-- The stream that a puller starts to pull to. -/
def starts (src : Source) (e : SourceEvent) : Option StreamId :=
  match src, e with
  | .rtmpPuller pull, .rtmpPuller .created => some pull.localStreamId
  | .rtspPuller pull, .rtspPuller (.described _ _ _) => some pull.localStreamId
  | _, _ => none

/-- The stream that the event makes, if there is none. -/
def makes (src : Source) (e : SourceEvent) : Option StreamId :=
  match src, e with
  | .rtmp _ run, .rtmp e => run.asks e
  | .rtsp _ _ _, .rtsp e => RtspRun.makes e
  | .webrtc _ run, .webrtc e => run.asks e
  | _, _ => src.starts e

/-- The condition of the source's own module. A packet of a UDP receiver comes only
for the stream that the session publishes or one that nobody else holds, and a
puller starts only on a stream whose slot is **free**. -/
def StaysOwn (draws : String → Option ℕ) (m : StreamManager) (src : Source) (e : SourceEvent) :
    Prop :=
  match src, e with
  | .rtmp a run, .rtmp e => RtmpRun.StaysOwn a { run with manager := m } e
  | .rtsp a run _, .rtsp e => RtspRun.StaysOwn a { run with manager := m } e
  | .rtsp _ _ receivers, .udpPacket i _ => ∀ rx ∈ receivers[i]?,
      src.published ≠ some rx.streamId → ¬ m.HeldByOther (src.party.ids draws) rx.streamId
  | .webrtc n run, .webrtc e =>
    WebrtcRun.StaysOwn ((Party.webrtc n).ids draws) { run with manager := m } e
  | _, _ => ∀ s ∈ src.starts e, m.currentPublisher s = none

instance (draws : String → Option ℕ) (m : StreamManager) (src : Source) (e : SourceEvent) :
    Decidable (src.StaysOwn draws m e) := by
  unfold StaysOwn
  split <;> infer_instance

/-- What carries the authority of a source. A puller needs the slot of its stream to
stay **free**. -/
def Inv (draws : String → Option ℕ) (m : StreamManager) : Source → Prop
  | .rtmp a run => RtmpRun.Owns (rtmpPublisherId a) m run.conn
  | .rtsp a run _ => RtspRun.Owns (rtspPublisherId a) m run.ss.session
  | .webrtc n run => WebrtcRun.Inv ((Party.webrtc n).ids draws) { run with manager := m }
  | .rtmpPuller pull => pull.IsActive → m.currentPublisher pull.localStreamId = none
  | .rtspPuller pull =>
    pull.Consistent ∧ (pull.isActive = true → m.currentPublisher pull.localStreamId = none)

/-- What a source does to the streams and to itself. -/
structure Acted (draws : String → Option ℕ) (m : StreamManager) (src : Source) (e : SourceEvent)
    (m' : StreamManager) (src' : Source) : Prop where
  /-- It acts under its own ids. -/
  acts : Acts (fun p => src.party.ids draws p = true) (src.makes e) (src.takes e) m.slots m'.slots
  /-- It changes the media of streams which nobody else holds. -/
  media : ∀ k, m'.media k ≠ m.media k → ∀ p, Holds m.slots k p → src.party.ids draws p = true
  /-- A puller changes the media of the stream that it pulls to. -/
  mediaPulled : src.party.IsPuller → ∀ k, m'.media k ≠ m.media k →
    src.pulled = some k ∨ src.starts e = some k
  /-- It stays who it is. -/
  party : src'.party = src.party
  /-- It pulls where it pulled or started to. -/
  pulled : ∀ s, src'.pulled = some s → src.pulled = some s ∨ src.starts e = some s
  /-- It keeps its authority. -/
  inv : src'.Inv draws m'

variable {draws : String → Option ℕ} {m m' : StreamManager} {src src' : Source} {e : SourceEvent}

theorem ids_rtmp (draws : String → Option ℕ) (a : String) :
    (Party.rtmp a).ids draws (rtmpPublisherId a) = true := by
  rw [Party.ids, publisherOf_rtmp, decide_eq_true rfl]

theorem ids_rtsp (draws : String → Option ℕ) (a : String) :
    (Party.rtsp a).ids draws (rtspPublisherId a) = true := by
  rw [Party.ids, publisherOf_rtsp, decide_eq_true rfl]

theorem rtmp_acted {a : String} {run run' : RtmpRun} {e : RtmpEvent} (hne : ∀ op, e ≠ .other op)
    (hI : (rtmp a run).Inv draws m) (hG : (rtmp a run).StaysOwn draws m (.rtmp e))
    (h : RtmpRun.step a { run with manager := m } e = some run') :
    Acted draws m (rtmp a run) (.rtmp e) run'.manager (rtmp a run') := by
  have hI : RtmpRun.Owns (rtmpPublisherId a) m run.conn := hI
  have hG : RtmpRun.StaysOwn a { run with manager := m } e := hG
  have hacts := RtmpRun.acts_step (r := { run with manager := m }) hI hne h
  have hchange := RtmpRun.authority_of_staysOwn hI hG hne run' h
  refine ⟨?_, fun k hk p hp => ?_, nofun, rfl, nofun, RtmpRun.owns_step hI hG h⟩
  · apply hacts.mono
    rintro p rfl
    exact ids_rtmp draws a
  · obtain rfl := hchange.of_holds_eq hacts hk hp
    exact ids_rtmp draws a

/-- A packet of a UDP receiver touches its stream. -/
theorem udp_acted {a : String} {run : RtspRun} {receivers : List UdpReceiver} {i : ℕ}
    {rtp : List UInt8} {rx rx' : UdpReceiver} (hrx : receivers[i]? = some rx)
    (hI : (rtsp a run receivers).Inv draws m)
    (hG : (rtsp a run receivers).StaysOwn draws m (.udpPacket i rtp))
    (h : rx.receive m rtp = some (m', rx')) :
    Acted draws m (rtsp a run receivers) (.udpPacket i rtp) m'
      (rtsp a run (receivers.set i rx')) := by
  have hI : RtspRun.Owns (rtspPublisherId a) m run.ss.session := hI
  obtain ⟨honly, -⟩ := UdpReceiver.onlyAt_receive h
  refine ⟨?_, fun k hk p hp => ?_, nofun, rfl, nofun, hI.publisherId, fun hne s hs => ?_⟩
  · rw [honly.slots]
    exact .refl _ _ _ _
  · obtain ⟨rfl, -⟩ := honly.of_media_ne hk
    have hfree : ¬ m.HeldByOther ((Party.rtsp a).ids draws) rx.streamId := by
      by_cases hpub : (rtsp a run receivers).published = some rx.streamId
      · -- the receiver works for the stream that the session publishes
        have hid : run.ss.session.publisherId ≠ none := by
          intro hnone
          simp [published, hnone] at hpub
        refine not_heldByOther_of_ownOrAbsent (ids_rtsp draws a) (hI.stream hid _ ?_)
        simpa [published, hid] using hpub
      · exact hG rx hrx hpub
    by_contra hother
    exact hfree ⟨p, hp, Bool.eq_false_iff.mpr hother⟩
  · rw [OwnOrAbsent, honly.slots]
    exact hI.stream hne s hs

theorem rtsp_acted {a : String} {run run' : RtspRun} {receivers : List UdpReceiver} {e : RtspEvent}
    (hne : ∀ op, e ≠ .other op) (hI : (rtsp a run receivers).Inv draws m)
    (hG : (rtsp a run receivers).StaysOwn draws m (.rtsp e))
    (h : RtspRun.step a { run with manager := m } e = some run') :
    Acted draws m (rtsp a run receivers) (.rtsp e) run'.manager (rtsp a run' receivers) := by
  have hI : RtspRun.Owns (rtspPublisherId a) m run.ss.session := hI
  have hG : RtspRun.StaysOwn a { run with manager := m } e := hG
  have hacts := RtspRun.acts_step (r := { run with manager := m }) hI hne h
  refine ⟨?_, fun k hk p hp => ?_, nofun, rfl, nofun, RtspRun.owns_step hI hG h⟩
  · apply hacts.mono
    rintro p rfl
    exact ids_rtsp draws a
  · obtain rfl := RtspRun.media_step (r := { run with manager := m }) hI hG hne h hk hp
    exact ids_rtsp draws a

theorem webrtc_acted {n : ℕ} {run run' : WebrtcRun} {e : WebrtcEvent} (hne : ∀ op, e ≠ .other op)
    (hI : (webrtc n run).Inv draws m) (hG : (webrtc n run).StaysOwn draws m (.webrtc e))
    (h : WebrtcRun.step ((Party.webrtc n).ids draws) { run with manager := m } e = some run') :
    Acted draws m (webrtc n run) (.webrtc e) run'.manager (webrtc n run') := by
  have hI : WebrtcRun.Inv ((Party.webrtc n).ids draws) { run with manager := m } := hI
  have hG : WebrtcRun.StaysOwn ((Party.webrtc n).ids draws) { run with manager := m } e := hG
  exact ⟨WebrtcRun.acts_step hI hne h, fun k hk p => WebrtcRun.media_step hI hG hne h hk, nofun,
    rfl, nofun, (WebrtcRun.step_keeps hI hG h).2⟩

/-- What a puller does to a stream whose slot is free. -/
theorem acted_of_pulls {s : StreamId} {active starts : Prop} (h : Pulls s active starts m m')
    (hstarts : starts → src.starts e = some s) (hpulled : active → src.pulled = some s)
    (hmakes : src.makes e = src.starts e)
    (hfree : active ∨ starts → m.currentPublisher s = none) (hparty : src'.party = src.party)
    (hpulled' : ∀ t, src'.pulled = some t → src.pulled = some t ∨ src.starts e = some t)
    (hinv : src'.Inv draws m') : Acted draws m src e m' src' where
  acts := h.acts _ _ fun hs => hmakes.trans (hstarts hs)
  media k hk p hp := by
    obtain ⟨rfl, hor⟩ := h.media k hk
    exact absurd hp (currentPublisher_eq_none_iff.mp (hfree hor) p)
  mediaPulled _ k hk := by
    obtain ⟨rfl, hor⟩ := h.media k hk
    exact hor.imp hpulled hstarts
  party := hparty
  pulled := hpulled'
  inv := hinv

theorem rtmpPuller_acted {pull pull' : RtmpPull} {e : RtmpPullEvent}
    (hI : (rtmpPuller pull).Inv draws m) (hG : (rtmpPuller pull).StaysOwn draws m (.rtmpPuller e))
    (h : pull.step m e = some (m', pull')) :
    Acted draws m (rtmpPuller pull) (.rtmpPuller e) m' (rtmpPuller pull') := by
  have hI : pull.IsActive → m.currentPublisher pull.localStreamId = none := hI
  have hpulls := RtmpPull.step_pulls h
  obtain ⟨hsame, hactive⟩ := RtmpPull.step_isActive h
  have hid : pull'.localStreamId = pull.localStreamId := by rw [hsame]
  have hurl : pull'.remoteUrl = pull.remoteUrl := by rw [hsame]
  have hstarts : e = .created →
      (rtmpPuller pull).starts (.rtmpPuller e) = some pull.localStreamId := by
    rintro rfl
    rfl
  have hfree : pull.IsActive ∨ e = .created → m.currentPublisher pull.localStreamId = none := by
    rintro (hact | he)
    · exact hI hact
    · exact hG _ (hstarts he)
  refine acted_of_pulls hpulls hstarts (fun hact => if_pos hact) rfl hfree ?_ ?_ ?_
  · simp only [party, hid, hurl]
  · intro t ht
    obtain ⟨hact', ht⟩ := Option.ite_none_right_eq_some.mp ht
    rw [← ht, hid]
    exact (hactive hact').imp (fun hact => if_pos hact) hstarts
  · intro hact'
    rw [hid]
    exact hpulls.free (hfree (hactive hact'))

theorem rtspPuller_acted {pull pull' : RtspPull} {e : RtspPullEvent}
    (hI : (rtspPuller pull).Inv draws m) (hG : (rtspPuller pull).StaysOwn draws m (.rtspPuller e))
    (h : pull.step m e = some (m', pull')) :
    Acted draws m (rtspPuller pull) (.rtspPuller e) m' (rtspPuller pull') := by
  obtain ⟨hconsistent, hI⟩ := hI
  have hpulls := RtspPull.step_pulls hconsistent h
  obtain ⟨hsame, hconsistent', hactive⟩ := RtspPull.step_consistent hconsistent h
  have hid : pull'.localStreamId = pull.localStreamId := by rw [hsame]
  have hurl : pull'.remoteUrl = pull.remoteUrl := by rw [hsame]
  have hstarts : RtspPull.starts e = true →
      (rtspPuller pull).starts (.rtspPuller e) = some pull.localStreamId := by
    cases e with
    | described tracks sps pps => exact fun _ => rfl
    | _ => nofun
  have hfree : pull.isActive = true ∨ RtspPull.starts e = true →
      m.currentPublisher pull.localStreamId = none := by
    rintro (hact | he)
    · exact hI hact
    · exact hG _ (hstarts he)
  refine acted_of_pulls hpulls hstarts (fun hact => if_pos hact) rfl hfree ?_ ?_ ?_
  · simp only [party, hid, hurl]
  · intro t ht
    obtain ⟨hact', ht⟩ := Option.ite_none_right_eq_some.mp ht
    rw [← ht, hid]
    exact (hactive hact').imp (fun hact => if_pos hact) hstarts
  · refine ⟨hconsistent', fun hact' => ?_⟩
    rw [hid]
    exact hpulls.free (hfree (hactive hact'))

/-- **One step** of a source that meets its condition. -/
theorem step_acted (hI : src.Inv draws m) (hG : src.StaysOwn draws m e)
    (h : src.step draws m e = some (m', src')) : Acted draws m src e m' src' := by
  unfold step at h
  rw [Option.ite_none_left_eq_some] at h
  obtain ⟨hother, h⟩ := h
  split at h
  · obtain ⟨run', hrun, heq⟩ := Option.map_eq_some_iff.mp h
    cases heq
    refine rtmp_acted ?_ hI hG hrun
    rintro op rfl
    exact hother rfl
  · obtain ⟨run', hrun, heq⟩ := Option.map_eq_some_iff.mp h
    cases heq
    refine rtsp_acted ?_ hI hG hrun
    rintro op rfl
    exact hother rfl
  · obtain ⟨s, -, heq⟩ := Option.map_eq_some_iff.mp h
    cases heq
    exact ⟨.refl _ _ _ _, fun k hk => absurd rfl hk, nofun, rfl, nofun, hI⟩
  · obtain ⟨rx, hrx, h⟩ := Option.bind_eq_some_iff.mp h
    obtain ⟨⟨m₁, rx'⟩, h₁, heq⟩ := Option.map_eq_some_iff.mp h
    cases heq
    exact udp_acted hrx hI hG h₁
  · obtain ⟨run', hrun, heq⟩ := Option.map_eq_some_iff.mp h
    cases heq
    refine webrtc_acted ?_ hI hG hrun
    rintro op rfl
    exact hother rfl
  · obtain ⟨⟨m₁, pull'⟩, hpull, heq⟩ := Option.map_eq_some_iff.mp h
    cases heq
    exact rtmpPuller_acted hI hG hpull
  · obtain ⟨⟨m₁, pull'⟩, hpull, heq⟩ := Option.map_eq_some_iff.mp h
    cases heq
    exact rtspPuller_acted hI hG hpull
  · cases h

/-- What another source does keeps the authority of this one, unless it makes the
stream that this one publishes, or takes the slot of the one that this one pulls to. -/
theorem Inv.of_acts {own : String → Prop} {makes takes : Option StreamId} (hI : src.Inv draws m)
    (h : Acts own makes takes m.slots m'.slots)
    (hapart : ∀ p, src.party.ids draws p = true → ¬ own p)
    (hmakes : ∀ s ∈ makes, m.slots s = none → src.published ≠ some s)
    (htakes : ∀ s ∈ takes, src.pulled ≠ some s) : src.Inv draws m' := by
  have hstream : ∀ s p, src.party.ids draws p = true → src.published = some s →
      m.OwnOrAbsent p s → m'.OwnOrAbsent p s := by
    rintro s p hp hpub (hold | hnone)
    · exact h.keeps s p (hapart p hp) hold
    · exact .inr (h.absent s hnone fun hs => hmakes s hs hnone hpub)
  have hfree : ∀ s, src.pulled = some s → m.currentPublisher s = none →
      m'.currentPublisher s = none := by
    intro s hs hnone
    rw [currentPublisher_eq_none_iff] at hnone ⊢
    intro p hp
    rcases h.gains s p hp with hold | ⟨-, ht⟩
    · exact hnone p hold
    · exact htakes s ht hs
  cases src with
  | rtmp a run =>
    refine ⟨hI.publisherId, fun hp => hstream _ _ (ids_rtmp draws a) (if_pos hp) (hI.stream hp)⟩
  | rtsp a run receivers =>
    refine ⟨hI.publisherId, fun hne s hs => ?_⟩
    exact hstream s _ (ids_rtsp draws a) ((if_pos hne).trans hs) (hI.stream hne s hs)
  | webrtc n run =>
    refine WebrtcRun.Inv.of_registers (r := { run with manager := m }) hI rfl rfl rfl
      fun reg hreg registers => registers.of_respects (h.respects hapart) fun s p hs hnone => ?_
    refine h.absent s hnone fun hs' => hmakes s hs' hnone ?_
    rw [hs] at hreg
    exact hreg
  | rtmpPuller pull => exact fun hact => hfree _ (if_pos hact) (hI hact)
  | rtspPuller pull => exact ⟨hI.1, fun hact => hfree _ (if_pos hact) (hI.2 hact)⟩

/-- A source before it does anything has its authority. -/
theorem inv_new (draws : String → Option ℕ) (party : Party) :
    (new party).Inv draws .new := by
  cases party with
  | rtmp a => exact .of_not_publishing rfl
  | rtsp a => exact .of_publisherId_eq_none rfl
  | webrtc n => exact WebrtcRun.inv_start fun _ _ => holdsNothing_new _
  | rtmpPuller s url => exact fun h => by simp [RtmpPull.IsActive, RtmpPull.new] at h
  | rtspPuller s url => exact ⟨trivial, fun h => by cases h⟩

@[simp] theorem party_new (party : Party) : (new party).party = party := by
  cases party <;> rfl

@[simp] theorem pulled_new (party : Party) : (new party).pulled = none := by
  cases party <;> rfl

end Source

end VcpMediaServer
