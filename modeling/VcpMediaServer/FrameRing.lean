import VcpMediaServer.FuelLoop
import VcpMediaServer.Lts
import VcpMediaServer.Media

/-!
# The frame ring

`FrameRing`, the bounded buffer of a hub: the stored frames with their sequence
numbers, and two deques of the sequence numbers at which a group of pictures
(GOP) begins.

* `FrameRing.push` — append a frame, then evict while the ring is over a limit.
  The eviction loop is a `while` whose body need not shrink anything, so it runs
  on fuel and a push is **partial**: `none` is a call that never returns.
* `FrameRing.framesFrom` — read a range. Slots that eviction has taken out are
  **passed over in silence**.
* `isVideoKeyframe` — a key frame by its flag, or by an IDR NAL unit in its
  payload. Eviction looks at the **flag alone**.
-/

namespace VcpMediaServer

/-- `DEFAULT_CAPACITY_FRAMES`. -/
def DEFAULT_CAPACITY_FRAMES : ℕ := 512

/-- `DEFAULT_CAPACITY_BYTES`. -/
def DEFAULT_CAPACITY_BYTES : ℕ := 32 * 1024 * 1024

/-- `MIN_GOPS_RETAINED`. -/
def MIN_GOPS_RETAINED : ℕ := 1

/-- `SnapMode`: where a reader is put. -/
inductive SnapMode where
  | liveEdge
  | latestIdr
  deriving DecidableEq, Repr

/-- `StoredFrame`: a frame under its sequence number. -/
structure StoredFrame where
  /-- The sequence number the ring gave the frame. -/
  seq : ℕ
  /-- The stream the frame was published on. -/
  streamId : StreamId
  /-- The track within the stream. -/
  trackId : TrackId
  /-- The timestamp of the frame. -/
  timestamp : UInt64
  /-- The clock the timestamp counts. -/
  clockRate : Option UInt32
  /-- The codec of the payload. -/
  codec : CodecType
  /-- The publisher's key-frame flag. -/
  isKeyframe : Bool
  /-- The payload. -/
  data : List UInt8
  deriving DecidableEq, Repr

/-- What `FrameRing::push` stores: everything but the RTP packet. -/
def StoredFrame.ofMediaFrame (seq : ℕ) (f : MediaFrame) : StoredFrame :=
  { seq, streamId := f.streamId, trackId := f.trackId, timestamp := f.timestamp,
    clockRate := f.clockRate, codec := f.codec, isKeyframe := f.isKeyframe, data := f.data }

/-- `StoredFrame::to_media_frame`. -/
def StoredFrame.toMediaFrame (f : StoredFrame) : MediaFrame :=
  (MediaFrame.new f.streamId f.trackId f.timestamp f.data f.isKeyframe
    f.codec).withOptionalClockRate
    f.clockRate

@[simp] theorem StoredFrame.ofMediaFrame_seq (n : ℕ) (f : MediaFrame) :
    (StoredFrame.ofMediaFrame n f).seq = n := rfl

/-- Storing a frame and reading it back **loses only** the RTP packet. -/
theorem StoredFrame.toMediaFrame_ofMediaFrame (n : ℕ) (f : MediaFrame) :
    (StoredFrame.ofMediaFrame n f).toMediaFrame = { f with rtpData := none } := rfl

/-! ## Key frames -/

/-- The scan of `annex_b_contains_idr`: `skip` bytes are still to be passed
over, the length of the start code just read. -/
def annexBScan : ℕ → List UInt8 → Bool
  | _, [] => false
  | skip + 1, _ :: rest => annexBScan skip rest
  | 0, b :: rest =>
    -- `while i + 4 < data.len()`
    if rest.length < 4 then false
    else if (b :: rest).take 4 = [0, 0, 0, 1] then
      if (rest.getD 3 0) &&& 0x1F = 5 then true else annexBScan 3 rest
    else if (b :: rest).take 3 = [0, 0, 1] then
      if (rest.getD 2 0) &&& 0x1F = 5 then true else annexBScan 2 rest
    else annexBScan 0 rest

/-- `annex_b_contains_idr`: some NAL unit behind a start code has type 5. -/
def annexBContainsIdr (data : List UInt8) : Bool := annexBScan 0 data

/-- `is_video_keyframe`. -/
def isVideoKeyframe (f : MediaFrame) : Bool :=
  if !f.codec.isVideo then false
  else if f.isKeyframe then true
  else annexBContainsIdr f.data

/-- `is_playable_video`. -/
def isPlayableVideo (f : MediaFrame) : Bool :=
  f.codec.isVideo && !f.data.isEmpty

/-- The test of the front-eviction loop: a video frame whose key-frame **flag**
is set. -/
def MediaFrame.isFlaggedKeyframe (f : MediaFrame) : Bool := f.isKeyframe && f.codec.isVideo

/-- The same test on a stored frame. -/
def StoredFrame.isFlaggedKeyframe (f : StoredFrame) : Bool := f.isKeyframe && f.codec.isVideo

@[simp] theorem StoredFrame.ofMediaFrame_isFlaggedKeyframe (n : ℕ) (f : MediaFrame) :
    (StoredFrame.ofMediaFrame n f).isFlaggedKeyframe = f.isFlaggedKeyframe := rfl

/-- A flagged video frame is a key frame. -/
theorem isVideoKeyframe_of_flagged {f : MediaFrame} (h : f.isFlaggedKeyframe = true) :
    isVideoKeyframe f = true := by
  obtain ⟨hk, hv⟩ := Bool.and_eq_true_iff.mp h
  simp [isVideoKeyframe, hk, hv]

/-! ## The ring -/

/-- `FrameRing`. -/
structure FrameRing where
  /-- The limit on the number of frames. -/
  capacityFrames : ℕ
  /-- The limit on the bytes of their payloads. -/
  capacityBytes : ℕ
  /-- The stored frames, oldest first. -/
  slots : List StoredFrame
  /-- The sequence numbers of the key frames, oldest first. -/
  idrSeqs : List ℕ
  /-- The sequence numbers at which a retained GOP begins, oldest first. -/
  gopStarts : List ℕ
  /-- The sequence number the next frame will get. -/
  writeSeq : ℕ
  /-- The bytes of the stored payloads. -/
  bytesUsed : ℕ
  deriving DecidableEq, Repr

namespace FrameRing

/-- `FrameRing::with_capacity`. -/
def withCapacity (capacityFrames capacityBytes : ℕ) : FrameRing :=
  { capacityFrames, capacityBytes, slots := [], idrSeqs := [], gopStarts := [], writeSeq := 0,
    bytesUsed := 0 }

/-- `FrameRing::new`. -/
def new : FrameRing := withCapacity DEFAULT_CAPACITY_FRAMES DEFAULT_CAPACITY_BYTES

/-- `FrameRing::get`. -/
def get (r : FrameRing) (seq : ℕ) : Option StoredFrame := r.slots.find? fun f => f.seq == seq

/-- `FrameRing::latest_seq`. An empty ring that never stored a frame answers
`0`, like one that stored a single frame. -/
def latestSeq (r : FrameRing) : ℕ := r.writeSeq - 1

/-- `FrameRing::oldest_seq`. -/
def oldestSeq (r : FrameRing) : Option ℕ := r.slots.head?.map StoredFrame.seq

/-- `FrameRing::is_empty`. -/
def isEmpty (r : FrameRing) : Bool := r.slots.isEmpty

/-- `FrameRing::latest_idr_seq`. -/
def latestIdrSeq (r : FrameRing) : Option ℕ := r.idrSeqs.getLast?

/-- `FrameRing::snap`. -/
def snap (r : FrameRing) : SnapMode → ℕ
  | .liveEdge => r.latestSeq
  | .latestIdr => r.latestIdrSeq.getD r.latestSeq

/-- `FrameRing::frames_from`, with the stored frames in place of the media
frames made of them, so that a delivered frame still shows its number. -/
def framesFrom (r : FrameRing) (fromSeq toSeq : ℕ) : List StoredFrame :=
  r.slots.filter fun f => decide (fromSeq ≤ f.seq) && decide (f.seq ≤ toSeq)

/-! ## Eviction -/

/-- `FrameRing::needs_evict`. -/
def needsEvict (r : FrameRing) : Bool :=
  decide (r.capacityFrames < r.slots.length) || decide (r.capacityBytes < r.bytesUsed)

/-- The bytes that `bytesUsed` is lowered by for each dropped frame, one after
the other, each time stopping at zero. -/
def subtractBytes (bytes : ℕ) (dropped : List StoredFrame) : ℕ :=
  dropped.foldl (fun n f => n - f.data.length) bytes

/-- `FrameRing::remove_seq_range`. -/
def removeSeqRange (r : FrameRing) (start stop : ℕ) : FrameRing :=
  let drop : StoredFrame → Bool := fun f => decide (start ≤ f.seq) && decide (f.seq < stop)
  { r with
    slots := r.slots.filter fun f => !drop f
    bytesUsed := subtractBytes r.bytesUsed (r.slots.filter drop) }

/-- `FrameRing::evict_oldest_gop`. -/
def evictOldestGop (r : FrameRing) : FrameRing :=
  match r.gopStarts with
  | [] => r
  | start :: gopStarts =>
    let stop := gopStarts.head?.getD r.writeSeq
    let r' := removeSeqRange { r with gopStarts := gopStarts } start stop
    { r' with idrSeqs := r'.idrSeqs.filter fun s => s != start }

/-- `FrameRing::evict_front_until_keyframe_or_empty`: the loop ends at the first
flagged key frame, and drops everything where there is none. -/
def evictFrontUntilKeyframeOrEmpty (r : FrameRing) : FrameRing :=
  let keep := r.slots.dropWhile fun f => !f.isFlaggedKeyframe
  let dropped := r.slots.takeWhile fun f => !f.isFlaggedKeyframe
  { r with slots := keep, bytesUsed := subtractBytes r.bytesUsed dropped }

/-- One turn of the loop of `FrameRing::evict_if_needed`; `none` leaves it. -/
def evictStep (r : FrameRing) : Option FrameRing :=
  if r.needsEvict then
    if MIN_GOPS_RETAINED < r.gopStarts.length then some r.evictOldestGop
    else if 1 < r.slots.length then some r.evictFrontUntilKeyframeOrEmpty
    else none
  else none

/-- The fuel of the eviction loop: a loop that has not ended by then never
will (`evictIfNeeded_isSome_iff`). -/
def evictFuel (r : FrameRing) : ℕ := r.slots.length + r.gopStarts.length + 1

/-- `FrameRing::evict_if_needed`; `none` if its loop never ends. -/
def evictIfNeeded (r : FrameRing) : Option FrameRing := FuelLoop.run evictStep r.evictFuel r

/-- `FrameRing::push` up to its call of `evict_if_needed`. -/
def append (r : FrameRing) (f : MediaFrame) : FrameRing :=
  let seq := r.writeSeq
  { r with
    gopStarts := if isVideoKeyframe f then r.gopStarts ++ [seq] else r.gopStarts
    idrSeqs := if isVideoKeyframe f then r.idrSeqs ++ [seq] else r.idrSeqs
    slots := r.slots ++ [StoredFrame.ofMediaFrame seq f]
    bytesUsed := r.bytesUsed + f.data.length
    writeSeq := r.writeSeq + 1 }

/-- `FrameRing::push`: the ring afterwards, or `none` if the call never
returns. The number it returns is `writeSeq` before the call. -/
def push (r : FrameRing) (f : MediaFrame) : Option FrameRing := (r.append f).evictIfNeeded

end FrameRing

end VcpMediaServer
