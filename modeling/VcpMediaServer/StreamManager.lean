import VcpMediaServer.Ownership
import VcpMediaServer.StreamHub
import Mathlib.Data.List.AList

/-!
# The stream manager

`StreamManager`: the hubs by stream name. Every protocol server works on the one
manager, and nothing in it ties a frame to the publisher it comes from: neither
`publish_frame` nor `set_stream_sps_pps` **looks at the slot**.

* `StreamManager.slots` — the publisher slots as a table of exclusive slots; the
  manager's functions act on it as the operations of such a table do
  (`slots_acquirePublisher` and its siblings).
* `StreamManager.media` — the media of a stream: its ring
  and its parameter sets. Each function comes with what it does to it.
* `ManagerOp` — the calls that the other parties make, as data.
-/

namespace VcpMediaServer

open Ownership

/-- `StreamManager`. -/
structure StreamManager where
  /-- The hubs by stream name. -/
  hubs : AList fun _ : StreamId => StreamHub

namespace StreamManager

/-- `StreamManager::new`. -/
def new : StreamManager := ⟨∅⟩

/-- `StreamManager::get_hub`. -/
def getHub (m : StreamManager) (s : StreamId) : Option StreamHub := m.hubs.lookup s

/-- Change the hub of a stream, if there is one: the source reaches it through
the `Arc` that `get_hub` hands out. -/
def updateHub (m : StreamManager) (s : StreamId) (g : StreamHub → StreamHub) : StreamManager :=
  match m.getHub s with
  | none => m
  | some h => ⟨m.hubs.insert s (g h)⟩

/-- `StreamManager::create_stream`: an existing stream is returned **as it is**,
whoever publishes on it. -/
def createStream (m : StreamManager) (s : StreamId) (source : StreamSourceMode)
    (protocol : StreamProtocol) (pullUrl : Option String) : StreamManager × Stream :=
  match m.getHub s with
  | some existing => (m, existing.stream)
  | none =>
    let stream : Stream :=
      { id := s, tracks := [], status := .created, playbackStatus := .idle, source, protocol,
        pullUrl, sps := none, pps := none }
    (⟨m.hubs.insert s (StreamHub.withStream stream)⟩, stream)

/-- `StreamManager::set_stream_tracks`. -/
def setStreamTracks (m : StreamManager) (s : StreamId) (tracks : List Track) : StreamManager :=
  m.updateHub s fun h => h.setTracks tracks

/-- `StreamManager::set_stream_sps_pps`. -/
def setStreamSpsPps (m : StreamManager) (s : StreamId) (sps pps : List UInt8) : StreamManager :=
  m.updateHub s fun h =>
    h.updateStream fun stream => { stream with sps := some sps, pps := some pps }

/-- The NAL unit type of the first byte of a NAL unit. -/
def nalType (b : UInt8) : UInt8 := b &&& 0x1F

/-- `StreamManager::merge_stream_nalu_config`. -/
def mergeStreamNaluConfig (m : StreamManager) (s : StreamId) (nalu : List UInt8) :
    StreamManager :=
  match nalu with
  | [] => m
  | b :: _ =>
    if nalType b ≠ 7 ∧ nalType b ≠ 8 then m
    else m.updateHub s fun h => h.updateStream fun stream =>
      if nalType b = 7 ∧ stream.sps = none then { stream with sps := some nalu }
      else if nalType b = 8 ∧ stream.pps = none then { stream with pps := some nalu }
      else stream

/-- `StreamManager::remove_stream`. -/
def removeStream (m : StreamManager) (s : StreamId) : StreamManager × Option Stream :=
  (⟨m.hubs.erase s⟩, (m.getHub s).map StreamHub.stream)

/-- `StreamManager::get_stream`. -/
def getStream (m : StreamManager) (s : StreamId) : Option Stream :=
  (m.getHub s).map StreamHub.stream

/-- `StreamManager::set_status`. -/
def setStatus (m : StreamManager) (s : StreamId) (status : StreamStatus) :
    StreamManager × Except String Unit :=
  match m.getHub s with
  | some _ => (m.updateHub s fun h => h.updateStream fun stream => { stream with status }, .ok ())
  | none => (m, .error ("Stream " ++ s ++ " not found"))

/-- `StreamManager::set_unpublished`. -/
def setUnpublished (m : StreamManager) (s : StreamId) : StreamManager × Except String Unit :=
  m.setStatus s .unpublished

/-- `StreamManager::set_publishing`. -/
def setPublishing (m : StreamManager) (s : StreamId) : StreamManager × Except String Unit :=
  m.setStatus s .publishing

/-- `StreamManager::set_stopped`. -/
def setStopped (m : StreamManager) (s : StreamId) : StreamManager × Except String Unit :=
  m.setStatus s .stopped

/-- `StreamManager::reset_stream_media`: two steps, a new ring and then no
parameter sets. -/
def resetStreamMedia (m : StreamManager) (s : StreamId) : StreamManager :=
  (m.updateHub s StreamHub.reset).updateHub s fun h =>
    h.updateStream fun stream => { stream with sps := none, pps := none }

/-- `StreamManager::acquire_publisher`. -/
def acquirePublisher (m : StreamManager) (s : StreamId) (p : String) :
    StreamManager × Except String Unit :=
  match m.getHub s with
  | none => (m, .error ("Stream " ++ s ++ " not found"))
  | some h =>
    match h.acquirePublisher p with
    | (h', .ok ()) => ((m.updateHub s fun _ => h').resetStreamMedia s, .ok ())
    | (_, .error _) => (m, .error ("Stream " ++ s ++ " already has an active publisher"))

/-- `StreamManager::release_publisher`. -/
def releasePublisher (m : StreamManager) (s : StreamId) (p : String) : StreamManager × Bool :=
  match m.getHub s with
  | none => (m, false)
  | some h =>
    match h.releasePublisher p with
    | (h', true) => ((m.updateHub s fun _ => h').resetStreamMedia s, true)
    | (_, false) => (m, false)

/-- `StreamManager::current_publisher`. -/
def currentPublisher (m : StreamManager) (s : StreamId) : Option String :=
  (m.getHub s).bind StreamHub.publisher

/-- The status of a stream that a frame has arrived on. -/
def statusAfterFrame : StreamStatus → StreamStatus
  | .created => .publishing
  | .unpublished => .publishing
  | status => status

/-- `StreamManager::publish_frame`: `none` if the push never returns. A frame
for a stream without a hub is dropped. -/
def publishFrame (m : StreamManager) (frame : MediaFrame) : Option StreamManager :=
  match m.getHub frame.streamId with
  | none => some m
  | some h => (h.publish frame).map fun h' =>
      m.updateHub frame.streamId fun _ =>
        h'.updateStream fun stream => { stream with status := statusAfterFrame stream.status }

variable {m m' : StreamManager} {s k : StreamId} {p q : String}

/-! ## Views -/

/-- The publisher slots of the manager. -/
def slots (m : StreamManager) : Table StreamId String :=
  fun s => (m.getHub s).map StreamHub.publisher

/-- The media of a stream: its ring and its parameter sets. A stream without a
hub has an empty ring and none. -/
def media (m : StreamManager) (s : StreamId) :
    FrameRing × Option (List UInt8) × Option (List UInt8) :=
  match m.getHub s with
  | none => (FrameRing.new, none, none)
  | some h => (h.ring, h.stream.sps, h.stream.pps)

/-- The publish status of a stream. -/
def status (m : StreamManager) (s : StreamId) : Option StreamStatus :=
  (m.getHub s).map fun h => h.stream.status

theorem media_congr (h : m'.getHub k = m.getHub k) : m'.media k = m.media k := by
  rw [media, h, media]

theorem status_congr (h : m'.getHub k = m.getHub k) : m'.status k = m.status k := by
  rw [status, h, status]

/-! ## Changing one hub -/

theorem getHub_updateHub (m : StreamManager) (s k : StreamId) (g : StreamHub → StreamHub) :
    (m.updateHub s g).getHub k = if k = s then (m.getHub k).map g else m.getHub k := by
  rw [updateHub]
  rcases h : m.getHub s with _ | hub
  · by_cases hk : k = s
    · obtain rfl := hk
      simp [h]
    · simp [hk]
  · by_cases hk : k = s
    · obtain rfl := hk
      rw [if_pos rfl, h]
      exact AList.lookup_insert _
    · rw [if_neg hk]
      exact AList.lookup_insert_ne hk

@[simp] theorem getHub_updateHub_self (m : StreamManager) (s : StreamId)
    (g : StreamHub → StreamHub) : (m.updateHub s g).getHub s = (m.getHub s).map g := by
  rw [getHub_updateHub, if_pos rfl]

theorem getHub_updateHub_of_ne (g : StreamHub → StreamHub) (h : k ≠ s) :
    (m.updateHub s g).getHub k = m.getHub k := by
  rw [getHub_updateHub, if_neg h]

/-- A change of a hub that leaves its publisher alone leaves the slots alone. -/
theorem slots_updateHub {g : StreamHub → StreamHub} (hg : ∀ h, (g h).publisher = h.publisher) :
    (m.updateHub s g).slots = m.slots := by
  funext k
  rw [slots, getHub_updateHub, slots]
  split
  · rcases m.getHub k with _ | h
    · rfl
    · simp [hg]
  · rfl

/-- A change of a hub that leaves its ring and parameter sets alone leaves the
media alone. -/
theorem media_updateHub {g : StreamHub → StreamHub} (hring : ∀ h, (g h).ring = h.ring)
    (hsps : ∀ h, (g h).stream.sps = h.stream.sps) (hpps : ∀ h, (g h).stream.pps = h.stream.pps) :
    (m.updateHub s g).media k = m.media k := by
  by_cases hk : k = s
  · rw [media, getHub_updateHub, if_pos hk, media]
    rcases m.getHub k with _ | h
    · rfl
    · simp [hring, hsps, hpps]
  · exact media_congr (getHub_updateHub_of_ne g hk)

/-! ## Making and removing streams -/

theorem getHub_createStream_of_ne {source : StreamSourceMode} {protocol : StreamProtocol}
    {url : Option String} (h : k ≠ s) :
    (m.createStream s source protocol url).1.getHub k = m.getHub k := by
  rw [createStream]
  split
  · rfl
  · exact AList.lookup_insert_ne h

@[simp] theorem slots_createStream (m : StreamManager) (s : StreamId) (source : StreamSourceMode)
    (protocol : StreamProtocol) (url : Option String) :
    (m.createStream s source protocol url).1.slots = create m.slots s := by
  funext k
  by_cases hk : k = s
  · obtain rfl := hk
    rw [create_self, slots, createStream]
    rcases h : m.getHub k with _ | hub
    · change (AList.lookup k (AList.insert k _ m.hubs)).map _ = _
      rw [AList.lookup_insert, slots, h]
      rfl
    · rw [slots]
      simp [h]
  · rw [create_of_ne hk, slots, getHub_createStream_of_ne hk, slots]

/-- Making a stream **does not touch** any media: an existing stream keeps what
it has, and a new one has nothing. -/
@[simp] theorem media_createStream (m : StreamManager) (s k : StreamId)
    (source : StreamSourceMode) (protocol : StreamProtocol) (url : Option String) :
    (m.createStream s source protocol url).1.media k = m.media k := by
  by_cases hk : k = s
  · obtain rfl := hk
    rw [createStream]
    rcases h : m.getHub k with _ | hub
    · change (match AList.lookup k (AList.insert k _ m.hubs) with | none => _ | some h => _) = _
      rw [AList.lookup_insert, media, h]
      rfl
    · rfl
  · exact media_congr (getHub_createStream_of_ne hk)

theorem getHub_removeStream (m : StreamManager) (s k : StreamId) :
    (m.removeStream s).1.getHub k = if k = s then none else m.getHub k := by
  by_cases hk : k = s
  · obtain rfl := hk
    rw [if_pos rfl]
    exact AList.lookup_erase _ _
  · rw [if_neg hk]
    exact AList.lookup_erase_ne hk

@[simp] theorem slots_removeStream (m : StreamManager) (s : StreamId) :
    (m.removeStream s).1.slots = remove m.slots s := by
  funext k
  rw [slots, getHub_removeStream]
  by_cases hk : k = s
  · obtain rfl := hk
    rw [if_pos rfl, remove_self]
    rfl
  · rw [if_neg hk, remove_of_ne hk, slots]

/-! ## Metadata -/

@[simp] theorem slots_setStreamTracks (m : StreamManager) (s : StreamId) (tracks : List Track) :
    (m.setStreamTracks s tracks).slots = m.slots :=
  slots_updateHub fun _ => rfl

@[simp] theorem media_setStreamTracks (m : StreamManager) (s k : StreamId)
    (tracks : List Track) : (m.setStreamTracks s tracks).media k = m.media k :=
  media_updateHub (fun _ => rfl) (fun _ => rfl) fun _ => rfl

@[simp] theorem slots_setStreamSpsPps (m : StreamManager) (s : StreamId)
    (sps pps : List UInt8) : (m.setStreamSpsPps s sps pps).slots = m.slots :=
  slots_updateHub fun _ => rfl

theorem getHub_setStreamSpsPps_of_ne {sps pps : List UInt8} (h : k ≠ s) :
    (m.setStreamSpsPps s sps pps).getHub k = m.getHub k :=
  getHub_updateHub_of_ne _ h

theorem getHub_mergeStreamNaluConfig_of_ne {nalu : List UInt8} (h : k ≠ s) :
    (m.mergeStreamNaluConfig s nalu).getHub k = m.getHub k := by
  rcases nalu with _ | ⟨b, rest⟩
  · rfl
  · rw [mergeStreamNaluConfig]
    split
    · rfl
    · exact getHub_updateHub_of_ne _ h

@[simp] theorem slots_mergeStreamNaluConfig (m : StreamManager) (s : StreamId)
    (nalu : List UInt8) : (m.mergeStreamNaluConfig s nalu).slots = m.slots := by
  rcases nalu with _ | ⟨b, rest⟩
  · rfl
  · rw [mergeStreamNaluConfig]
    split
    · rfl
    · exact slots_updateHub fun _ => rfl

theorem getHub_setStatus_of_ne {st : StreamStatus} (h : k ≠ s) :
    (m.setStatus s st).1.getHub k = m.getHub k := by
  rw [setStatus]
  split
  · exact getHub_updateHub_of_ne _ h
  · rfl

@[simp] theorem slots_setStatus (m : StreamManager) (s : StreamId) (st : StreamStatus) :
    (m.setStatus s st).1.slots = m.slots := by
  rw [setStatus]
  split
  · exact slots_updateHub fun _ => rfl
  · rfl

@[simp] theorem media_setStatus (m : StreamManager) (s k : StreamId) (st : StreamStatus) :
    (m.setStatus s st).1.media k = m.media k := by
  rw [setStatus]
  split
  · exact media_updateHub (fun _ => rfl) (fun _ => rfl) fun _ => rfl
  · rfl

/-! ## The publisher slot -/

theorem getHub_resetStreamMedia (m : StreamManager) (s k : StreamId) :
    (m.resetStreamMedia s).getHub k =
      if k = s then (m.getHub k).map fun h =>
        h.reset.updateStream fun stream => { stream with sps := none, pps := none }
      else m.getHub k := by
  rw [resetStreamMedia, getHub_updateHub, getHub_updateHub]
  split
  · rw [Option.map_map]
    rfl
  · rfl

theorem getHub_resetStreamMedia_of_ne (h : k ≠ s) :
    (m.resetStreamMedia s).getHub k = m.getHub k := by
  rw [getHub_resetStreamMedia, if_neg h]

@[simp] theorem slots_resetStreamMedia (m : StreamManager) (s : StreamId) :
    (m.resetStreamMedia s).slots = m.slots := by
  rw [resetStreamMedia, slots_updateHub, slots_updateHub] <;> exact fun _ => rfl

/-- A reset leaves **no media**. -/
@[simp] theorem media_resetStreamMedia_self (m : StreamManager) (s : StreamId) :
    (m.resetStreamMedia s).media s = (FrameRing.new, none, none) := by
  rw [media, getHub_resetStreamMedia, if_pos rfl]
  rcases m.getHub s with _ | h <;> rfl

/-- Whether a slot is available, read off the hub. -/
theorem available_iff_getHub :
    Available m.slots s p ↔
      ∃ h, m.getHub s = some h ∧ (h.publisher = none ∨ h.publisher = some p) := by
  rw [Available, Holds, slots]
  rcases m.getHub s with _ | h <;> simp

theorem holds_iff_getHub : Holds m.slots s p ↔ ∃ h, m.getHub s = some h ∧ h.publisher = some p := by
  rw [Holds, slots, Option.map_eq_some_iff]

/-- The current publisher is the one that holds the slot. -/
theorem currentPublisher_eq_some_iff : m.currentPublisher s = some p ↔ Holds m.slots s p := by
  rw [holds_iff_getHub, currentPublisher, Option.bind_eq_some_iff]

/-- Without a current publisher nobody holds the slot. -/
theorem currentPublisher_eq_none_iff : m.currentPublisher s = none ↔ ∀ p, ¬ Holds m.slots s p := by
  simp only [Option.eq_none_iff_forall_ne_some, ne_eq, currentPublisher_eq_some_iff]

/-- The slot is taken and the media reset, if the slot is available. -/
theorem acquirePublisher_of_available (h : Available m.slots s p) :
    m.acquirePublisher s p =
      ((m.updateHub s fun hub => { hub with publisher := some p }).resetStreamMedia s,
        .ok ()) := by
  obtain ⟨hub, hhub, hp⟩ := available_iff_getHub.mp h
  have hconst : (m.updateHub s fun _ => { hub with publisher := some p })
      = m.updateHub s fun hub => { hub with publisher := some p } := by
    simp [updateHub, hhub]
  simp only [acquirePublisher, hhub, StreamHub.acquirePublisher_of_available hp, hconst]

/-- Nothing happens, if it is not. -/
theorem acquirePublisher_of_not_available (h : ¬ Available m.slots s p) :
    ∃ e, m.acquirePublisher s p = (m, .error e) := by
  rw [acquirePublisher]
  rcases hhub : m.getHub s with _ | hub
  · exact ⟨_, rfl⟩
  · rcases hq : hub.publisher with _ | q
    · exact absurd (available_iff_getHub.mpr ⟨hub, hhub, .inl hq⟩) h
    · by_cases hne : q = p
      · obtain rfl := hne
        exact absurd (available_iff_getHub.mpr ⟨hub, hhub, .inr hq⟩) h
      · refine ⟨"Stream " ++ s ++ " already has an active publisher", ?_⟩
        simp only [StreamHub.acquirePublisher_of_held hq hne]

/-- The call succeeds exactly if the slot is available. -/
theorem acquirePublisher_ok_iff : (m.acquirePublisher s p).2 = .ok () ↔ Available m.slots s p := by
  by_cases h : Available m.slots s p
  · rw [acquirePublisher_of_available h]
    exact iff_of_true rfl h
  · obtain ⟨e, he⟩ := acquirePublisher_of_not_available h
    rw [he]
    exact iff_of_false (by simp) h

@[simp] theorem slots_acquirePublisher (m : StreamManager) (s : StreamId) (p : String) :
    (m.acquirePublisher s p).1.slots = acquire m.slots s p := by
  by_cases h : Available m.slots s p
  · rw [acquirePublisher_of_available h, slots_resetStreamMedia]
    funext k
    rw [slots, getHub_updateHub]
    by_cases hk : k = s
    · obtain rfl := hk
      obtain ⟨hub, hhub, -⟩ := available_iff_getHub.mp h
      rw [if_pos rfl, acquire_self h, hhub]
      rfl
    · rw [if_neg hk, acquire_of_ne hk, slots]
  · obtain ⟨e, he⟩ := acquirePublisher_of_not_available h
    rw [he, acquire_of_not_available h]

theorem getHub_acquirePublisher_of_ne (h : k ≠ s) :
    (m.acquirePublisher s p).1.getHub k = m.getHub k := by
  by_cases hav : Available m.slots s p
  · rw [acquirePublisher_of_available hav, getHub_resetStreamMedia_of_ne h,
      getHub_updateHub_of_ne _ h]
  · obtain ⟨e, he⟩ := acquirePublisher_of_not_available hav
    rw [he]

/-- The slot is given back and the media reset, if the publisher holds it. -/
theorem releasePublisher_of_holds (h : Holds m.slots s p) :
    m.releasePublisher s p =
      ((m.updateHub s fun hub => { hub with publisher := none }).resetStreamMedia s, true) := by
  obtain ⟨hub, hhub, hp⟩ := holds_iff_getHub.mp h
  have hconst : (m.updateHub s fun _ => { hub with publisher := none })
      = m.updateHub s fun hub => { hub with publisher := none } := by
    simp [updateHub, hhub]
  simp only [releasePublisher, hhub, StreamHub.releasePublisher_of_held hp, hconst]

/-- Nothing happens, if it does not. -/
theorem releasePublisher_of_not_holds (h : ¬ Holds m.slots s p) :
    m.releasePublisher s p = (m, false) := by
  rw [releasePublisher]
  rcases hhub : m.getHub s with _ | hub
  · rfl
  · have hp : hub.publisher ≠ some p := fun hp => h (holds_iff_getHub.mpr ⟨hub, hhub, hp⟩)
    simp only [StreamHub.releasePublisher_of_not_held hp]

@[simp] theorem slots_releasePublisher (m : StreamManager) (s : StreamId) (p : String) :
    (m.releasePublisher s p).1.slots = release m.slots s p := by
  by_cases h : Holds m.slots s p
  · rw [releasePublisher_of_holds h, slots_resetStreamMedia]
    funext k
    rw [slots, getHub_updateHub]
    by_cases hk : k = s
    · obtain rfl := hk
      obtain ⟨hub, hhub, -⟩ := holds_iff_getHub.mp h
      rw [if_pos rfl, release_self h, hhub]
      rfl
    · rw [if_neg hk, release_of_ne hk, slots]
  · rw [releasePublisher_of_not_holds h, release_of_not_holds h]

theorem getHub_releasePublisher_of_ne (h : k ≠ s) :
    (m.releasePublisher s p).1.getHub k = m.getHub k := by
  by_cases hh : Holds m.slots s p
  · rw [releasePublisher_of_holds hh, getHub_resetStreamMedia_of_ne h,
      getHub_updateHub_of_ne _ h]
  · rw [releasePublisher_of_not_holds hh]

/-! ## Frames -/

/-- A published frame goes to the ring of the stream it names, if that has one. -/
theorem publishFrame_eq_some {f : MediaFrame} :
    m.publishFrame f = some m' ↔
      (m.getHub f.streamId = none ∧ m' = m) ∨
        ∃ h h', m.getHub f.streamId = some h ∧ h.publish f = some h' ∧
          m' = m.updateHub f.streamId fun _ => h'.updateStream fun stream =>
            { stream with status := statusAfterFrame stream.status } := by
  rw [publishFrame]
  rcases m.getHub f.streamId with _ | h
  · simp [eq_comm]
  · simp [eq_comm]

theorem getHub_publishFrame_of_ne {f : MediaFrame} (hp : m.publishFrame f = some m')
    (h : k ≠ f.streamId) : m'.getHub k = m.getHub k := by
  rcases publishFrame_eq_some.mp hp with ⟨-, rfl⟩ | ⟨_, _, -, -, rfl⟩
  · rfl
  · exact getHub_updateHub_of_ne _ h

theorem slots_publishFrame {f : MediaFrame} (hp : m.publishFrame f = some m') :
    m'.slots = m.slots := by
  rcases publishFrame_eq_some.mp hp with ⟨-, rfl⟩ | ⟨h, h', hhub, hpub, rfl⟩
  · rfl
  · obtain ⟨ring, -, rfl⟩ := StreamHub.publish_eq_some.mp hpub
    funext k
    rw [slots, getHub_updateHub, slots]
    split
    · next hk =>
      rw [hk, hhub]
      rfl
    · rfl

end StreamManager

/-! ## The other parties -/

/-- A call of the manager by another party. -/
inductive ManagerOp where
  | createStream (s : StreamId) (source : StreamSourceMode) (protocol : StreamProtocol)
      (pullUrl : Option String)
  | removeStream (s : StreamId)
  | setStreamTracks (s : StreamId) (tracks : List Track)
  | setStreamSpsPps (s : StreamId) (sps pps : List UInt8)
  | mergeStreamNaluConfig (s : StreamId) (nalu : List UInt8)
  | setStatus (s : StreamId) (status : StreamStatus)
  | acquirePublisher (s : StreamId) (p : String)
  | releasePublisher (s : StreamId) (p : String)
  | resetStreamMedia (s : StreamId)
  | publishFrame (frame : MediaFrame)
  deriving DecidableEq, Repr

namespace ManagerOp

open StreamManager

/-- Make the call; `none` if it never returns. -/
def apply (m : StreamManager) : ManagerOp → Option StreamManager
  | .createStream s source protocol url => some (m.createStream s source protocol url).1
  | .removeStream s => some (m.removeStream s).1
  | .setStreamTracks s tracks => some (m.setStreamTracks s tracks)
  | .setStreamSpsPps s sps pps => some (m.setStreamSpsPps s sps pps)
  | .mergeStreamNaluConfig s nalu => some (m.mergeStreamNaluConfig s nalu)
  | .setStatus s status => some (m.setStatus s status).1
  | .acquirePublisher s p => some (m.acquirePublisher s p).1
  | .releasePublisher s p => some (m.releasePublisher s p).1
  | .resetStreamMedia s => some (m.resetStreamMedia s)
  | .publishFrame f => m.publishFrame f

/-- The publisher id that the call is made with, if it takes one. -/
def publisherId : ManagerOp → Option String
  | .acquirePublisher _ p => some p
  | .releasePublisher _ p => some p
  | _ => none

/-- The stream that the call makes, if it makes one. -/
def created : ManagerOp → Option StreamId
  | .createStream s _ _ _ => some s
  | _ => none

variable {own : String → Prop} {m m' : StreamManager} {op : ManagerOp}

/-- The calls of other parties **respect** the slots of the publisher ids that
they do not use. -/
theorem respects_apply (ho : ∀ p, op.publisherId = some p → ¬ own p)
    (h : op.apply m = some m') : Respects own m.slots m'.slots := by
  cases op with
  | createStream s source protocol url =>
    obtain rfl := Option.some.inj h
    rw [slots_createStream]
    exact respects_create _ _
  | removeStream s =>
    obtain rfl := Option.some.inj h
    rw [slots_removeStream]
    exact respects_remove _ _
  | setStreamTracks s tracks =>
    obtain rfl := Option.some.inj h
    rw [slots_setStreamTracks]
    exact Respects.refl _
  | setStreamSpsPps s sps pps =>
    obtain rfl := Option.some.inj h
    rw [slots_setStreamSpsPps]
    exact Respects.refl _
  | mergeStreamNaluConfig s nalu =>
    obtain rfl := Option.some.inj h
    rw [slots_mergeStreamNaluConfig]
    exact Respects.refl _
  | setStatus s st =>
    obtain rfl := Option.some.inj h
    rw [slots_setStatus]
    exact Respects.refl _
  | acquirePublisher s p =>
    obtain rfl := Option.some.inj h
    rw [slots_acquirePublisher]
    exact respects_acquire (ho p rfl)
  | releasePublisher s p =>
    obtain rfl := Option.some.inj h
    rw [slots_releasePublisher]
    exact respects_release (ho p rfl)
  | resetStreamMedia s =>
    obtain rfl := Option.some.inj h
    rw [slots_resetStreamMedia]
    exact Respects.refl _
  | publishFrame f =>
    rw [slots_publishFrame h]
    exact Respects.refl _

/-- A stream without a hub stays without one under every call but the one that
makes it. -/
theorem slots_apply_eq_none {s : StreamId} (hc : op.created ≠ some s) (hs : m.slots s = none)
    (h : op.apply m = some m') : m'.slots s = none := by
  cases op with
  | createStream s' source protocol url =>
    obtain rfl := Option.some.inj h
    rw [slots_createStream, create_of_ne, hs]
    rintro rfl
    exact hc rfl
  | removeStream s' =>
    obtain rfl := Option.some.inj h
    rw [slots_removeStream]
    by_cases hne : s = s'
    · obtain rfl := hne
      exact remove_self
    · rw [remove_of_ne hne, hs]
  | setStreamTracks s' tracks =>
    obtain rfl := Option.some.inj h
    rw [slots_setStreamTracks, hs]
  | setStreamSpsPps s' sps pps =>
    obtain rfl := Option.some.inj h
    rw [slots_setStreamSpsPps, hs]
  | mergeStreamNaluConfig s' nalu =>
    obtain rfl := Option.some.inj h
    rw [slots_mergeStreamNaluConfig, hs]
  | setStatus s' st =>
    obtain rfl := Option.some.inj h
    rw [slots_setStatus, hs]
  | acquirePublisher s' p =>
    obtain rfl := Option.some.inj h
    rw [slots_acquirePublisher, acquire]
    split
    · next hav =>
      by_cases hne : s = s'
      · obtain rfl := hne
        rcases hav with hav | hav
        · rw [hs] at hav
          cases hav
        · rw [Holds, hs] at hav
          cases hav
      · rw [Function.update_of_ne hne, hs]
    · exact hs
  | releasePublisher s' p =>
    obtain rfl := Option.some.inj h
    rw [slots_releasePublisher, release]
    split
    · next hh =>
      by_cases hne : s = s'
      · obtain rfl := hne
        rw [Holds, hs] at hh
        cases hh
      · rw [Function.update_of_ne hne, hs]
    · exact hs
  | resetStreamMedia s' =>
    obtain rfl := Option.some.inj h
    rw [slots_resetStreamMedia, hs]
  | publishFrame f => rw [slots_publishFrame h, hs]

end ManagerOp

end VcpMediaServer
