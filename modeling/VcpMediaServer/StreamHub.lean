import VcpMediaServer.Eviction

/-!
# The stream hub

`StreamHub`: the metadata of one stream, the slot of its publisher and its frame
ring. Each of the three has a lock of its own in the source, so that a function
of the hub is one step while a function of the manager can be several.

* `StreamHub.acquirePublisher`, `StreamHub.releasePublisher` — the slot.
* `StreamHub.publish` — push and notify; partial, as the push is.
* `StreamHub.reset` — a **new** ring in place of the old one, which numbers its
  frames from zero again.
-/

namespace VcpMediaServer

/-- `StreamHub`, without the playback receivers. -/
structure StreamHub where
  /-- The name of the stream. -/
  streamId : StreamId
  /-- The metadata of the stream. -/
  stream : Stream
  /-- The publisher slot. -/
  publisher : Option String
  /-- The stored frames. -/
  ring : FrameRing
  /-- The version of the watch channel: how often it was sent to. A receiver
  that has seen an earlier version finds it changed. -/
  seqTx : ℕ
  deriving DecidableEq, Repr

namespace StreamHub

/-- `StreamHub::with_stream`. -/
def withStream (stream : Stream) : StreamHub :=
  { streamId := stream.id, stream, publisher := none, ring := FrameRing.new, seqTx := 0 }

/-- `StreamHub::new`. -/
def new (streamId : StreamId) : StreamHub :=
  withStream
    { id := streamId, tracks := [], status := .created, playbackStatus := .idle, source := .push,
      protocol := .unknown, pullUrl := none, sps := none, pps := none }

/-- `StreamHub::update_stream`. -/
def updateStream (h : StreamHub) (g : Stream → Stream) : StreamHub :=
  { h with stream := g h.stream }

/-- `StreamHub::set_tracks`. -/
def setTracks (h : StreamHub) (tracks : List Track) : StreamHub :=
  h.updateStream fun stream => { stream with tracks }

/-- `StreamHub::acquire_publisher`: the hub and, where another publisher holds
the slot, its id. -/
def acquirePublisher (h : StreamHub) (publisherId : String) : StreamHub × Except String Unit :=
  match h.publisher with
  | some current =>
    if current != publisherId then (h, .error current)
    else ({ h with publisher := some publisherId }, .ok ())
  | none => ({ h with publisher := some publisherId }, .ok ())

/-- `StreamHub::release_publisher`: the hub and whether the slot was given back. -/
def releasePublisher (h : StreamHub) (publisherId : String) : StreamHub × Bool :=
  if h.publisher = some publisherId then ({ h with publisher := none }, true) else (h, false)

/-- `StreamHub::publish`: the hub afterwards, or `none` if the push never
returns. -/
def publish (h : StreamHub) (frame : MediaFrame) : Option StreamHub :=
  (h.ring.push frame).map fun ring => { h with ring, seqTx := h.seqTx + 1 }

/-- `StreamHub::reset`. -/
def reset (h : StreamHub) : StreamHub := { h with ring := FrameRing.new, seqTx := h.seqTx + 1 }

/-- `StreamHub::latest_seq`. -/
def latestSeq (h : StreamHub) : ℕ := h.ring.latestSeq

/-- `StreamHub::is_empty`. -/
def isEmpty (h : StreamHub) : Bool := h.ring.isEmpty

/-- `StreamHub::snap`. -/
def snap (h : StreamHub) (mode : SnapMode) : ℕ := h.ring.snap mode

/-- `StreamHub::latest_idr_seq`. -/
def latestIdrSeq (h : StreamHub) : Option ℕ := h.ring.latestIdrSeq

/-- `StreamHub::frames_from`. -/
def framesFrom (h : StreamHub) (fromSeq toSeq : ℕ) : List StoredFrame :=
  h.ring.framesFrom fromSeq toSeq

/-- `StreamHub::oldest_seq`. -/
def oldestSeq (h : StreamHub) : Option ℕ := h.ring.oldestSeq

/-! ## The slot -/

/-- An acquisition **succeeds** if the slot is free or the publisher's own. -/
theorem acquirePublisher_of_available {h : StreamHub} {p : String}
    (hp : h.publisher = none ∨ h.publisher = some p) :
    h.acquirePublisher p = ({ h with publisher := some p }, .ok ()) := by
  rw [acquirePublisher]
  rcases hp with hp | hp
  · rw [hp]
  · rw [hp]
    exact if_neg (by simp)

/-- An acquisition **fails** if another publisher holds the slot, and changes
nothing then. -/
theorem acquirePublisher_of_held {h : StreamHub} {p q : String} (hq : h.publisher = some q)
    (hne : q ≠ p) : h.acquirePublisher p = (h, .error q) := by
  rw [acquirePublisher, hq]
  exact if_pos (bne_iff_ne.mpr hne)

/-- A release gives back the slot if the publisher holds it. -/
theorem releasePublisher_of_held {h : StreamHub} {p : String} (hp : h.publisher = some p) :
    h.releasePublisher p = ({ h with publisher := none }, true) := by
  rw [releasePublisher, if_pos hp]

/-- A release of a slot that the publisher does not hold changes nothing. -/
theorem releasePublisher_of_not_held {h : StreamHub} {p : String} (hp : h.publisher ≠ some p) :
    h.releasePublisher p = (h, false) := by
  rw [releasePublisher, if_neg hp]

/-- A publish pushes and notifies, and leaves the rest alone. -/
theorem publish_eq_some {h h' : StreamHub} {f : MediaFrame} :
    h.publish f = some h' ↔
      ∃ ring, h.ring.push f = some ring ∧ h' = { h with ring, seqTx := h.seqTx + 1 } := by
  rw [publish, Option.map_eq_some_iff]
  simp only [eq_comm]

end StreamHub

end VcpMediaServer
