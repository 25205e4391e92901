import VcpMediaServer.WebrtcTrack

/-!
# WebRTC sessions

`webrtc/mod.rs` and what it calls: one WebSocket that publishes on one peer
connection, plays on another, and names streams in its signals. Three fields of
the state say what it publishes. They are written **together**, but a `StopPublish`
cleans up the stream that **the signal names**.

* `cleanupPublishSession` — the end of a publication: the slot is given back under
  the session's publisher id, the media is reset **in any case**.
* `publish`, `openPublish`, `closePublish` — a `Publish` signal, in the three parts
  that the waits for the peer connection cut it into.
* `stopPublish`, `play` — the other signals.
* `storeLiveNaluConfig` — a play relay **writes** parameter sets to the stream that
  it reads.
-/

namespace VcpMediaServer

open Ownership StreamManager

namespace Webrtc

/-- `SessionState`, without the peer connections themselves and the candidates
that wait for them. -/
structure SessionState where
  /-- There is a publishing peer connection. -/
  publishPc : Bool
  /-- There is a playing peer connection. -/
  playPc : Bool
  /-- The stream that was named first. -/
  streamId : Option StreamId
  /-- The stream that is published. -/
  publishStreamId : Option StreamId
  /-- The publisher id it is published under. -/
  publisherId : Option String
  deriving DecidableEq, Repr

/-- What the server reads in the SDP of a publish offer. -/
structure PublishOffer where
  /-- `parse_offer_tracks`. -/
  tracks : List Track
  /-- The SPS that `parse_sprop_parameter_sets` finds. -/
  sps : Option (List UInt8)
  /-- The PPS that it finds. -/
  pps : Option (List UInt8)
  deriving DecidableEq, Repr

/-- The publisher id of a publication, from a number that is drawn for it. -/
def webrtcPublisherId (s : StreamId) (number : UInt64) : String :=
  "webrtc:" ++ s ++ ":" ++ toString number

/-- `cleanup_publish_session`. -/
def cleanupPublishSession (m : StreamManager) (s : StreamId) (publisherId : Option String) :
    StreamManager :=
  match publisherId with
  | some p => endPublishMedia (m.unpublish s p) s
  | none => endPublishMedia (m.setUnpublished s).1 s

namespace SessionState

/-- The state at the start of a session. -/
def new : SessionState :=
  { publishPc := false, playPc := false, streamId := none, publishStreamId := none,
    publisherId := none }

/-- `has_publish`. -/
def hasPublish (st : SessionState) : Bool := st.publishPc

/-- Nothing is published. -/
def clearPublish (st : SessionState) : SessionState :=
  { st with publishPc := false, publishStreamId := none, publisherId := none }

/-- `stop_play_session`. The relay is told to stop, and may take a while. -/
def stopPlaySession (st : SessionState) : SessionState := { st with playPc := false }

end SessionState

open Webrtc.SessionState

/-- A `Publish` signal, up to `start_publish`: what was published before is cleaned
up. -/
def publish (m : StreamManager) (st : SessionState) (s : StreamId) : StreamManager × SessionState :=
  if st.hasPublish then
    (cleanupPublishSession m (st.publishStreamId.getD s) st.publisherId,
      { st.clearPublish with streamId := some s })
  else (m, { st with streamId := some s })

/-- What `start_publish` takes from the offer: the tracks, and the parameter sets
if both are there. -/
def primeFromOffer (m : StreamManager) (s : StreamId) (offer : PublishOffer) : StreamManager :=
  let m := ((m.setStreamTracks s offer.tracks).setUnpublished s).1
  match offer.sps, offer.pps with
  | some sps, some pps => m.setStreamSpsPps s sps pps
  | _, _ => m

/-- `start_publish`, from the peer connection to its description. -/
def openPublish (m : StreamManager) (s : StreamId) (p : String) (offer : PublishOffer) :
    StreamManager × Except String Unit :=
  match (m.createStream s .push .webrtc none).1.acquirePublisher s p with
  | (m, .error e) => (m, .error e)
  | (m, .ok ()) => (primeFromOffer m s offer, .ok ())

/-- The rest of a `Publish` signal. It ends well when both descriptions are set;
otherwise the slot is given back. -/
def closePublish (m : StreamManager) (st : SessionState) (s : StreamId) (p : String) (ok : Bool) :
    StreamManager × SessionState :=
  if ok then
    ((m.setPublishing s).1,
      { st with publishPc := true, publishStreamId := some s, publisherId := some p })
  else ((m.releasePublisher s p).1, st)

/-- A `StopPublish` signal. -/
def stopPublish (m : StreamManager) (st : SessionState) (s : StreamId) :
    StreamManager × SessionState :=
  let m := cleanupPublishSession m s st.publisherId
  let st := st.clearPublish
  let st := if st.playPc ∧ st.streamId = some s then st.stopPlaySession else st
  (m, if st.playPc then st else { st with streamId := none })

/-- `validate_playable_stream`. -/
def validatePlayableStream (m : StreamManager) (s : StreamId) : Except String Unit :=
  match m.getStream s with
  | none => .error ("Stream '" ++ s ++ "' not found")
  | some stream =>
    if stream.status.isPublishing then .ok ()
    else .error ("Stream '" ++ s ++ "' is not publishing (status=" ++ stream.status.asStr ++ ")")

/-- A `Play` signal, and whether there is a relay for it: the stream has to be
published, and `ok` says how the peer connection turns out. -/
def play (m : StreamManager) (st : SessionState) (s : StreamId) (ok : Bool) : SessionState × Bool :=
  let st := st.stopPlaySession
  let st := { st with streamId := st.streamId <|> some s }
  match validatePlayableStream m s with
  | .ok () => if ok then ({ st with playPc := true }, true) else (st, false)
  | .error _ => (st, false)

/-- `cleanup_session`. -/
def cleanupSession (m : StreamManager) (st : SessionState) : StreamManager × SessionState :=
  let st := st.stopPlaySession
  if st.hasPublish then
    (cleanupPublishSession m (st.publishStreamId.getD "unknown") st.publisherId, st.clearPublish)
  else (m, st)

/-! ## Tracks and relays -/

/-- A task that reads a track of a publishing browser. -/
inductive TrackTask where
  /-- `read_h264_track`, for video of any codec. -/
  | video (reader : H264TrackReader)
  /-- `read_audio_track`, with the clock of the track. -/
  | audio (streamId : StreamId) (clockRate : UInt32)
  deriving DecidableEq, Repr

namespace TrackTask

/-- The stream that the task works for. -/
def streamId : TrackTask → StreamId
  | .video reader => reader.streamId
  | .audio s _ => s

/-- The task reads video. -/
def isVideo : TrackTask → Bool
  | .video _ => true
  | .audio _ _ => false

/-- `read_track_to_stream`, up to the first packet: a clock comes with audio. -/
def new (s : StreamId) (clockRate : Option UInt32) : TrackTask :=
  match clockRate with
  | some c => .audio s c
  | none => .video (.new s)

/-- One turn of the loop of `read_audio_track`. -/
def readAudio (m : StreamManager) (s : StreamId) (clockRate : UInt32) (pkt : RtpPacket) :
    Option StreamManager :=
  if pkt.payload = [] then some m
  else
    m.publishFrame
      ((MediaFrame.new s 1 pkt.timestamp.toUInt64 pkt.payload false .opus).withClockRate
      clockRate)

/-- A packet of the track. -/
def readPacket (m : StreamManager) (task : TrackTask) (pkt : RtpPacket) :
    Option (StreamManager × TrackTask) :=
  match task with
  | .video reader => (H264TrackReader.readPacket m reader pkt).map fun (m, reader) =>
    (m, .video reader)
  | .audio s clockRate => (readAudio m s clockRate pkt).map fun m => (m, .audio s clockRate)

/-- The end of the track. -/
def finish (m : StreamManager) : TrackTask → Option StreamManager
  | .video reader => H264TrackReader.finish m reader
  | .audio _ _ => some m

end TrackTask

/-- `stream_has_config`. -/
def streamHasConfig (m : StreamManager) (s : StreamId) : Bool :=
  (m.getStream s).any fun stream => stream.sps.isSome && stream.pps.isSome

/-- `store_live_nalu_config` of the player. -/
def storeLiveNaluConfig (m : StreamManager) (s : StreamId) (data : List UInt8) : StreamManager :=
  match extractSpsPps data with
  | (some sps, some pps) => m.setStreamSpsPps s sps pps
  | _ =>
    if streamHasConfig m s then m
    else (iterAnnexBNalRanges data).foldl (fun m nal => m.mergeStreamNaluConfig s nal) m

/-- What a turn of the loop of `relay_stream_to_track` does to the stream: the
frame has just been read from it. -/
def relayFrame (m : StreamManager) (s : StreamId) (frame : MediaFrame) : StreamManager :=
  if frame.codec.isVideo then
    let data := ensureAnnexB frame.data
    if data = [] then m else storeLiveNaluConfig m s data
  else m

/-! ## The registration -/

/-- What the session publishes: the stream and the publisher id. -/
abbrev Registration := Option (StreamId × String)

/-- The fields of the state say **together** what is published. -/
structure SessionState.Records (st : SessionState) (reg : Registration) : Prop where
  publishPc : st.publishPc = reg.isSome
  publishStreamId : st.publishStreamId = reg.map Prod.fst
  publisherId : st.publisherId = reg.map Prod.snd

/-- Of the publisher ids in `own`, the one that is registered holds the slot of
its stream, if that is there, and **no other** slot is held. -/
structure Registers (own : String → Bool) (m : StreamManager) (reg : Registration) : Prop where
  mine : ∀ s p, reg = some (s, p) → own p = true
  stream : ∀ s p, reg = some (s, p) → m.OwnOrAbsent p s
  held : ∀ s p, own p = true → Holds m.slots s p → reg = some (s, p)

/-- The session is left with the registration `reg`, and others with what they
hold. -/
structure Leaves (own : String → Bool) (m m' : StreamManager) (st' : SessionState)
    (reg : Registration) : Prop where
  spares : Spares own m m'
  records : st'.Records reg
  registers : Registers own m' reg

variable {own : String → Bool} {m m' : StreamManager} {st : SessionState} {reg : Registration}
  {s k : StreamId} {p : String}

theorem SessionState.records_new : SessionState.new.Records none := ⟨rfl, rfl, rfl⟩

theorem SessionState.records_clearPublish (st : SessionState) : st.clearPublish.Records none :=
  ⟨rfl, rfl, rfl⟩

/-- Without a registration no slot is held. -/
theorem Registers.holdsNothing (h : Registers own m none) (hp : own p = true) : m.HoldsNothing p :=
  fun s hold => nomatch h.held s p hp hold

theorem registers_none (h : ∀ p, own p = true → m.HoldsNothing p) : Registers own m none where
  mine _ _ hreg := nomatch hreg
  stream _ _ hreg := nomatch hreg
  held s p hp hold := absurd hold (h p hp s)

/-- The registered stream is nobody else's. -/
theorem Registers.not_heldByOther (h : Registers own m (some (s, p))) : ¬ m.HeldByOther own s :=
  not_heldByOther_of_ownOrAbsent (h.mine s p rfl) (h.stream s p rfl)

/-- Others leave the registration as it is, unless they **make** its stream. -/
theorem Registers.of_respects (h : Registers own m reg)
    (hr : Respects (fun p => own p = true) m.slots m'.slots)
    (hnone : ∀ s p, reg = some (s, p) → m.slots s = none → m'.slots s = none) :
    Registers own m' reg where
  mine := h.mine
  stream s p hreg := by
    rcases h.stream s p hreg with hold | habs
    · exact (hr s p (h.mine s p hreg)).2 hold
    · exact .inr (hnone s p hreg habs)
  held s p hp hold := h.held s p hp ((hr s p hp).1 hold)

/-- Calls that leave the slots alone leave the registration alone. -/
theorem Registers.of_slots (h : Registers own m reg) (hs : m'.slots = m.slots) :
    Registers own m' reg := by
  refine h.of_respects ?_ fun s _ _ habs => by rw [hs, habs]
  rw [hs]
  exact .refl _

/-- A slot that is made is not held. -/
theorem Registers.create (h : Registers own m none) (hs : m'.slots = create m.slots s) :
    Registers own m' none := by
  refine registers_none fun p hp k hold => ?_
  rw [hs, holds_create] at hold
  exact h.holdsNothing hp k hold

/-- Once the slot is given back there is no registration. -/
theorem Registers.release (h : Registers own m (some (s, p)))
    (hs : m'.slots = release m.slots s p) : Registers own m' none := by
  refine registers_none fun q hq k hold => ?_
  rw [hs, holds_release] at hold
  obtain ⟨hold, hne⟩ := hold
  obtain ⟨rfl, rfl⟩ := Prod.mk.inj (Option.some.inj (h.held k q hq hold))
  exact hne ⟨rfl, rfl⟩

/-- A slot that is taken is the registration. -/
theorem Registers.acquire (h : Registers own m none) (hp : own p = true)
    (hav : Available m.slots s p) (hs : m'.slots = acquire m.slots s p) :
    Registers own m' (some (s, p)) where
  mine _ _ hreg := by
    obtain ⟨-, rfl⟩ := Prod.mk.inj (Option.some.inj hreg)
    exact hp
  stream _ _ hreg := by
    obtain ⟨rfl, rfl⟩ := Prod.mk.inj (Option.some.inj hreg)
    refine .inl ?_
    rw [hs, holds_acquire]
    exact .inr ⟨rfl, rfl, hav⟩
  held k q hq hold := by
    rw [hs, holds_acquire] at hold
    rcases hold with hold | ⟨rfl, rfl, -⟩
    · exact absurd hold (h.holdsNothing hq k)
    · rfl

/-! ## What the signals do -/

theorem getHub_cleanupPublishSession_of_ne {id : Option String} (h : k ≠ s) :
    (cleanupPublishSession m s id).getHub k = m.getHub k := by
  rcases id with _ | p
  · rw [cleanupPublishSession, endPublishMedia, getHub_resetStreamMedia_of_ne h, setUnpublished,
      getHub_setStatus_of_ne h]
  · rw [cleanupPublishSession, endPublishMedia, getHub_resetStreamMedia_of_ne h,
      getHub_unpublish_of_ne h]

/-- The end of the publication that is **registered**. -/
theorem Registers.cleanup (h : Registers own m (some (s, p))) (st : SessionState) :
    Leaves own m (cleanupPublishSession m s (some p)) st.clearPublish none where
  spares := .of_ne h.not_heldByOther fun _ => getHub_cleanupPublishSession_of_ne
  records := st.records_clearPublish
  registers := h.release <| by
    simp [cleanupPublishSession]

/-- Without a publisher id, a stream is reset that nobody else holds. -/
theorem Registers.cleanup_none (h : Registers own m none) (hs : ¬ m.HeldByOther own s)
    (st : SessionState) : Leaves own m (cleanupPublishSession m s none) st.clearPublish none where
  spares := .of_ne hs fun _ => getHub_cleanupPublishSession_of_ne
  records := st.records_clearPublish
  registers := h.of_slots <| by
    simp [cleanupPublishSession, setUnpublished]

/-- Nothing happens. -/
theorem Leaves.refl (hst : st.Records reg) (h : Registers own m reg) : Leaves own m m st reg :=
  ⟨.refl own m, hst, h⟩

/-- The other fields of the state do not matter. -/
theorem Leaves.of_fields {st' : SessionState} (h : Leaves own m m' st reg)
    (h₁ : st'.publishPc = st.publishPc) (h₂ : st'.publishStreamId = st.publishStreamId)
    (h₃ : st'.publisherId = st.publisherId) : Leaves own m m' st' reg where
  spares := h.spares
  records := ⟨h₁.trans h.records.publishPc, h₂.trans h.records.publishStreamId,
    h₃.trans h.records.publisherId⟩
  registers := h.registers

/-- Before a new publication, the one before **is ended**. -/
theorem publish_leaves (hst : st.Records reg) (h : Registers own m reg) (s : StreamId) :
    Leaves own m (publish m st s).1 (publish m st s).2 none := by
  rcases reg with _ | ⟨t, p⟩
  · have heq : publish m st s = (m, { st with streamId := some s }) := by
      simp [publish, hasPublish, hst.publishPc]
    rw [heq]
    exact (Leaves.refl hst h).of_fields rfl rfl rfl
  · have heq : publish m st s =
        (cleanupPublishSession m t (some p), { st.clearPublish with streamId := some s }) := by
      simp [publish, hasPublish, hst.publishPc, hst.publishStreamId, hst.publisherId]
    rw [heq]
    exact (h.cleanup st).of_fields rfl rfl rfl

theorem onlyAt_primeFromOffer (m : StreamManager) (s : StreamId) (offer : PublishOffer) :
    OnlyAt s m (primeFromOffer m s offer) := by
  have hstatus :=
    (onlyAt_setStreamTracks m s offer.tracks).trans (onlyAt_setStatus _ s .unpublished)
  rw [primeFromOffer]
  split
  · exact hstatus.trans (onlyAt_setStreamSpsPps _ s _ _)
  · exact hstatus

/-- The peer connection takes the slot of its stream, or **nothing**. -/
theorem openPublish_leaves (h : Registers own m none) (hp : own p = true) {offer : PublishOffer}
    {r : Except String Unit} (ho : openPublish m s p offer = (m', r)) :
    Spares own m m' ∧ Registers own m' (if r = .ok () then some (s, p) else none) := by
  have hcreate := spares_createStream own m s .push .webrtc none
  have hcreated := h.create (slots_createStream m s .push .webrtc none)
  rw [openPublish] at ho
  generalize (m.createStream s .push .webrtc none).1 = m₁ at *
  by_cases hav : Available m₁.slots s p
  · have hslots := slots_acquirePublisher m₁ s p
    have hne := fun k => getHub_acquirePublisher_of_ne (k := k) (m := m₁) (s := s) (p := p)
    have hok := acquirePublisher_ok_iff.mpr hav
    generalize m₁.acquirePublisher s p = acquired at *
    obtain ⟨m₂, r₂⟩ := acquired
    obtain rfl : r₂ = .ok () := hok
    cases ho
    have honly := onlyAt_primeFromOffer m₂ s offer
    refine ⟨hcreate.trans ?_, ?_⟩
    · refine .of_ne (not_heldByOther_of_available hp hav) fun k hk => ?_
      rw [honly.getHub k hk, hne k hk]
    · rw [if_pos rfl]
      exact hcreated.acquire hp hav (honly.slots.trans hslots)
  · obtain ⟨e, he⟩ := acquirePublisher_of_not_available hav
    rw [he] at ho
    cases ho
    exact ⟨hcreate, by simpa using hcreated⟩

/-- The publication is registered in the state, or its slot **given back**. -/
theorem closePublish_leaves (hst : st.Records none) (h : Registers own m (some (s, p)))
    (ok : Bool) :
    Leaves own m (closePublish m st s p ok).1 (closePublish m st s p ok).2
      (if ok then some (s, p) else none) := by
  rcases ok with _ | _
  · refine ⟨.of_ne h.not_heldByOther fun _ => getHub_releasePublisher_of_ne, hst, ?_⟩
    exact h.release (slots_releasePublisher m s p)
  · refine ⟨.of_ne h.not_heldByOther fun _ => getHub_setStatus_of_ne, ⟨rfl, rfl, rfl⟩, ?_⟩
    exact h.of_slots (slots_setStatus m s .publishing)

/-- A `StopPublish` ends the publication, if it **names its stream**; without one,
it must name a stream that nobody else holds. -/
theorem stopPublish_leaves (hst : st.Records reg) (h : Registers own m reg)
    (hnamed : ∀ t, st.publishStreamId = some t → t = s)
    (hfree : st.publishStreamId = none → ¬ m.HeldByOther own s) :
    Leaves own m (stopPublish m st s).1 (stopPublish m st s).2 none := by
  have hend : Leaves own m (cleanupPublishSession m s st.publisherId) st.clearPublish none := by
    rcases reg with _ | ⟨t, p⟩
    · rw [show st.publisherId = none from hst.publisherId]
      exact h.cleanup_none (hfree hst.publishStreamId) st
    · obtain rfl := hnamed t hst.publishStreamId
      rw [show st.publisherId = some p from hst.publisherId]
      exact h.cleanup st
  refine hend.of_fields ?_ ?_ ?_ <;> simp only [stopPublish] <;> split <;> split <;> rfl

/-- The cleanup of the session ends the publication. -/
theorem cleanupSession_leaves (hst : st.Records reg) (h : Registers own m reg) :
    Leaves own m (cleanupSession m st).1 (cleanupSession m st).2 none := by
  rcases reg with _ | ⟨t, p⟩
  · have heq : cleanupSession m st = (m, st.stopPlaySession) := by
      simp [cleanupSession, hasPublish, stopPlaySession, hst.publishPc]
    rw [heq]
    exact (Leaves.refl hst h).of_fields rfl rfl rfl
  · have heq : cleanupSession m st =
        (cleanupPublishSession m t (some p), st.stopPlaySession.clearPublish) := by
      simp [cleanupSession, hasPublish, stopPlaySession, hst.publishPc, hst.publishStreamId,
        hst.publisherId]
    rw [heq]
    exact h.cleanup _

/-- A `Play` leaves the publication as it is. -/
theorem play_leaves (hst : st.Records reg) (h : Registers own m reg) (s : StreamId) (ok : Bool) :
    Leaves own m m (play m st s ok).1 reg := by
  refine (Leaves.refl hst h).of_fields ?_ ?_ ?_ <;> simp only [play] <;> split <;>
    first | rfl | (split <;> rfl)

/-- The end of a publication gives back what is held under its id. -/
theorem acts_cleanupPublishSession {id : Option String} (hid : ∀ p, id = some p → own p = true) :
    Acts (fun q => own q = true) none none m.slots (cleanupPublishSession m s id).slots := by
  rcases id with _ | p
  · simp only [cleanupPublishSession, slots_endPublishMedia, setUnpublished, slots_setStatus]
    exact .refl _ _ _ _
  · simp only [cleanupPublishSession, slots_endPublishMedia, slots_unpublish]
    exact acts_release _ _ _ _ (hid p rfl)

theorem acts_publish (s : StreamId) (hid : ∀ p, st.publisherId = some p → own p = true) :
    Acts (fun q => own q = true) none none m.slots (publish m st s).1.slots := by
  rw [publish]
  split
  · exact acts_cleanupPublishSession hid
  · exact .refl _ _ _ _

/-- A peer connection asks for the slot of its stream, under its id. -/
theorem acts_openPublish (hp : own p = true) (offer : PublishOffer) :
    Acts (fun q => own q = true) (some s) (some s) m.slots (openPublish m s p offer).1.slots := by
  have hslots : (openPublish m s p offer).1.slots = acquire (create m.slots s) s p := by
    have hacquire := slots_acquirePublisher (m.createStream s .push .webrtc none).1 s p
    rw [slots_createStream] at hacquire
    rw [openPublish]
    generalize (m.createStream s .push .webrtc none).1.acquirePublisher s p = r at hacquire
    rcases r with ⟨m₁, _ | ⟨⟨⟩⟩⟩
    · exact hacquire
    · exact (onlyAt_primeFromOffer m₁ s offer).slots.trans hacquire
  rw [hslots]
  exact acts_acquire_create _ _ hp

theorem acts_closePublish (ok : Bool) (hp : own p = true) :
    Acts (fun q => own q = true) none none m.slots (closePublish m st s p ok).1.slots := by
  rw [closePublish]
  split
  · rw [setPublishing, slots_setStatus]
    exact .refl _ _ _ _
  · rw [slots_releasePublisher]
    exact acts_release _ _ _ _ hp

theorem acts_stopPublish (s : StreamId) (hid : ∀ p, st.publisherId = some p → own p = true) :
    Acts (fun q => own q = true) none none m.slots (stopPublish m st s).1.slots :=
  acts_cleanupPublishSession hid

theorem acts_cleanupSession (hid : ∀ p, st.publisherId = some p → own p = true) :
    Acts (fun q => own q = true) none none m.slots (cleanupSession m st).1.slots := by
  simp only [cleanupSession]
  split
  · exact acts_cleanupPublishSession hid
  · exact .refl _ _ _ _

/-! ## What tracks and relays touch -/

namespace TrackTask

variable {task task' : TrackTask} {pkt : RtpPacket}

/-- A packet touches the stream of the track. -/
theorem onlyAt_readPacket (h : readPacket m task pkt = some (m', task')) :
    OnlyAt task.streamId m m' ∧ task'.streamId = task.streamId := by
  cases task with
  | video reader =>
    obtain ⟨⟨m₁, reader'⟩, h₁, heq⟩ := Option.map_eq_some_iff.mp h
    cases heq
    exact H264TrackReader.onlyAt_readPacket h₁
  | audio s clockRate =>
    obtain ⟨m₁, h₁, heq⟩ := Option.map_eq_some_iff.mp h
    cases heq
    refine ⟨?_, rfl⟩
    rw [readAudio] at h₁
    split at h₁
    · cases h₁
      exact .refl s m
    · exact onlyAt_publishFrame h₁

/-- The end of a track touches its stream. -/
theorem onlyAt_finish (h : finish m task = some m') : OnlyAt task.streamId m m' := by
  cases task with
  | video reader => exact H264TrackReader.onlyAt_finish h
  | audio s clockRate =>
    cases h
    exact .refl s m

/-- The end of an audio track does nothing. -/
theorem finish_of_not_isVideo (h : task.isVideo = false) : finish m task = some m := by
  cases task with
  | video reader => cases h
  | audio s clockRate => rfl

end TrackTask

theorem onlyAt_mergeNals (m : StreamManager) (s : StreamId) (nals : List (List UInt8)) :
    OnlyAt s m (nals.foldl (fun m nal => m.mergeStreamNaluConfig s nal) m) := by
  induction nals generalizing m with
  | nil => exact .refl s m
  | cons nal nals ih => exact (onlyAt_mergeStreamNaluConfig m s nal).trans (ih _)

/-- A relay touches the stream it reads. -/
theorem onlyAt_relayFrame (m : StreamManager) (s : StreamId) (frame : MediaFrame) :
    OnlyAt s m (relayFrame m s frame) := by
  simp only [relayFrame]
  split
  · split
    · exact .refl s m
    · rw [storeLiveNaluConfig]
      split
      · exact onlyAt_setStreamSpsPps m s _ _
      · split
        · exact .refl s m
        · exact onlyAt_mergeNals m s _
  · exact .refl s m

/-- NAL units that are no parameter sets are not merged. -/
theorem foldl_mergeStreamNaluConfig_eq (m : StreamManager) (s : StreamId) {nals : List (List UInt8)}
    (h : ∀ nal ∈ nals, naluType nal 0 ≠ some 7 ∧ naluType nal 0 ≠ some 8) :
    nals.foldl (fun m nal => m.mergeStreamNaluConfig s nal) m = m := by
  induction nals with
  | nil => rfl
  | cons nal nals ih =>
    have hnal : m.mergeStreamNaluConfig s nal = m := by
      obtain ⟨h7, h8⟩ := h nal List.mem_cons_self
      rcases nal with _ | ⟨b, rest⟩
      · rfl
      · rw [mergeStreamNaluConfig, if_pos]
        simp only [naluType, List.getElem?_cons_zero, Option.map_some, ne_eq,
          Option.some.injEq] at h7 h8
        exact ⟨h7, h8⟩
    rw [List.foldl_cons, hnal]
    exact ih fun nal hmem => h nal (List.mem_cons_of_mem _ hmem)

/-- A frame without parameter sets is relayed **without a trace**. -/
theorem relayFrame_eq_self {frame : MediaFrame}
    (h : containsSpsOrPpsNalu (ensureAnnexB frame.data) = false) : relayFrame m s frame = m := by
  have hnals : ∀ nal ∈ iterAnnexBNalRanges (ensureAnnexB frame.data),
      naluType nal 0 ≠ some 7 ∧ naluType nal 0 ≠ some 8 := by
    intro nal hmem
    simp only [containsSpsOrPpsNalu, containsNaluType, Bool.or_eq_false_iff, List.any_eq_false,
      beq_iff_eq] at h
    exact ⟨h.1 nal hmem, h.2 nal hmem⟩
  simp only [relayFrame]
  split
  · split
    · rfl
    · have hnone : extractSpsPps (ensureAnnexB frame.data) = (none, none) := by
        simp only [extractSpsPps, Prod.mk.injEq, List.find?_eq_none, List.mem_reverse, beq_iff_eq]
        exact ⟨fun nal hmem => (hnals nal hmem).1, fun nal hmem => (hnals nal hmem).2⟩
      rw [storeLiveNaluConfig, hnone]
      dsimp only
      split
      · rfl
      · exact foldl_mergeStreamNaluConfig_eq m s hnals
  · rfl

end Webrtc

end VcpMediaServer
