import VcpMediaServer.H264Util
import VcpMediaServer.StreamHub
import VcpMediaServer.Timestamp

/-!
# Dispatch readers

`DispatchReader`: a reader's cursor into the ring of one hub, and what it
delivers under each policy. A function that awaits is split at the await: what
it does **between** two awaits is one definition, on the hub as it then is.

* `DispatchReader.ensureReady` — whether `ensure_data` returns without waiting.
* `DispatchReader.recvBatch` — `recv_batch` once `ensure_data` has returned. It
  reads a range of sequence numbers; only where **all** of the range is missing
  does it look for a gap (`jumpToIdr`).
* `DispatchReader.primeCheck` — one look of `prime_from_idr` for a key frame to
  start from.

Log lines and the requests to a publisher for a key frame are left out: they
change neither the hub nor the reader.
-/

namespace VcpMediaServer

/-- `MAX_SEQUENTIAL_BATCH`. -/
def MAX_SEQUENTIAL_BATCH : ℕ := 96

/-- `WEBRTC_LAG_SNAP_THRESHOLD`. -/
def WEBRTC_LAG_SNAP_THRESHOLD : ℕ := 45

/-- `PRIME_EXISTING_IDR_MAX_LAG`. -/
def PRIME_EXISTING_IDR_MAX_LAG : ℕ := 30

/-- `PRIME_EXISTING_IDR_MAX_MEDIA_LAG_MS`. -/
def PRIME_EXISTING_IDR_MAX_MEDIA_LAG_MS : ℕ := 1000

/-- `DispatchPolicy`. -/
inductive DispatchPolicy where
  /-- RTMP and HTTP-FLV: from the live edge, bursts of video coalesced. -/
  | liveCoalesce
  /-- HLS and RTSP: from a key frame, in sequence. -/
  | sequentialFromIdr
  /-- WebRTC: from a key frame, then coalesced. -/
  | webRtcPlay
  /-- From the live edge, in sequence. -/
  | liveSequential
  deriving DecidableEq, Repr

/-- The policies that deliver every frame in sequence. -/
def DispatchPolicy.isSequential : DispatchPolicy → Bool
  | .sequentialFromIdr => true
  | .liveSequential => true
  | _ => false

/-- `DispatchReader`, without its handle on the hub. -/
structure DispatchReader where
  /-- How the reader delivers. -/
  policy : DispatchPolicy
  /-- The number of the next frame to deliver. -/
  cursor : ℕ
  /-- The version of the watch channel seen last. -/
  wake : ℕ
  /-- Whether the reader has started from a key frame. -/
  primed : Bool
  /-- Whether frames were passed over since `take_muxer_resync`. -/
  pendingMuxerResync : Bool
  /-- Whether the reader was put to the live edge since `take_live_snap`. -/
  pendingLiveSnap : Bool
  /-- The last frame of a catch-up after a key frame, where one is running. -/
  videoCatchupUntil : Option ℕ
  deriving DecidableEq, Repr

/-! ## Coalescing -/

/-- The shape of `coalesce_flv_batch`, for any notion of video and key frame:
everything but video in order, then the only video frame, or the last key frame
of several. -/
def coalesceBy {α : Type*} (video idr : α → Bool) (frames : List α) : List α :=
  frames.filter (fun f => !video f) ++
    match frames.filter video with
    | [] => []
    | [f] => [f]
    | videos => (videos.reverse.find? idr).toList

section CoalesceBy

variable {α : Type*} {video idr : α → Bool} {frames : List α}

/-- At most one frame of video is passed on, behind everything else. -/
theorem coalesceBy_of_few (h : (frames.filter video).length ≤ 1) :
    coalesceBy video idr frames = frames.filter (fun f => !video f) ++ frames.filter video := by
  rw [coalesceBy]
  rcases hv : frames.filter video with _ | ⟨f, _ | ⟨g, l⟩⟩
  · rfl
  · rfl
  · rw [hv] at h
    simp at h

/-- Of several frames of video the last key frame is. -/
theorem coalesceBy_of_many (h : 1 < (frames.filter video).length) :
    coalesceBy video idr frames =
      frames.filter (fun f => !video f) ++ ((frames.filter video).reverse.find? idr).toList := by
  rw [coalesceBy]
  rcases hv : frames.filter video with _ | ⟨f, _ | ⟨g, l⟩⟩
  · rw [hv] at h
    simp at h
  · rw [hv] at h
    simp at h
  · rfl

end CoalesceBy

/-- `is_playable_idr`. -/
def isPlayableIdr (f : MediaFrame) : Bool :=
  isPlayableVideo f && (f.isKeyframe || isKeyframeAnnexB f.data)

/-- `coalesce_flv_batch`. -/
def coalesceFlvBatch (frames : List MediaFrame) : List MediaFrame :=
  coalesceBy isPlayableVideo isPlayableIdr frames

/-- `is_playable_video`, of a stored frame. -/
def StoredFrame.isPlayableVideo (f : StoredFrame) : Bool :=
  VcpMediaServer.isPlayableVideo f.toMediaFrame

/-- `is_playable_idr`, of a stored frame. -/
def StoredFrame.isPlayableIdr (f : StoredFrame) : Bool :=
  VcpMediaServer.isPlayableIdr f.toMediaFrame

/-- `coalesce_flv_batch`, of stored frames. -/
def coalesceStored (frames : List StoredFrame) : List StoredFrame :=
  coalesceBy StoredFrame.isPlayableVideo StoredFrame.isPlayableIdr frames

/-- `last_playable_idr_seq`. -/
def lastPlayableIdrSeq (h : StreamHub) (fromSeq toSeq : ℕ) : Option ℕ :=
  (List.range' fromSeq (toSeq + 1 - fromSeq)).reverse.find? fun seq =>
    (h.ring.get seq).any StoredFrame.isPlayableIdr

namespace DispatchReader

/-! ## The cursor -/

/-- `DispatchReader::new`. -/
def new (h : StreamHub) (policy : DispatchPolicy) : DispatchReader where
  policy := policy
  cursor :=
    match policy with
    | .liveCoalesce => h.snap .liveEdge + 1
    | .webRtcPlay => h.snap .liveEdge + 1
    | .liveSequential => h.snap .liveEdge + 1
    | .sequentialFromIdr => h.snap .latestIdr
  wake := h.seqTx
  primed := false
  pendingMuxerResync := false
  pendingLiveSnap := false
  videoCatchupUntil := none

/-- `DispatchReader::begin_video_catchup_after_idr`. -/
def beginVideoCatchupAfterIdr (r : DispatchReader) (idrSeq batchEnd : ℕ) : DispatchReader :=
  { r with videoCatchupUntil := some batchEnd, cursor := idrSeq + 1 }

/-- `DispatchReader::clear_video_catchup`. -/
def clearVideoCatchup (r : DispatchReader) : DispatchReader :=
  { r with videoCatchupUntil := none }

/-- `wake.changed()` completes: the version of the watch channel is seen. -/
def seen (r : DispatchReader) (version : ℕ) : DispatchReader := { r with wake := version }

/-- `DispatchReader::set_cursor`. -/
def setCursor (r : DispatchReader) (cursor : ℕ) : DispatchReader := { r with cursor }

/-- `DispatchReader::advance_cursor`. -/
def advanceCursor (r : DispatchReader) : DispatchReader := { r with cursor := r.cursor + 1 }

/-- `DispatchReader::snap_to_live_edge`. -/
def snapToLiveEdge (r : DispatchReader) (h : StreamHub) : DispatchReader :=
  { r with videoCatchupUntil := none, cursor := h.snap .liveEdge + 1 }

/-- `DispatchReader::snap_to_latest_idr`. -/
def snapToLatestIdr (r : DispatchReader) (h : StreamHub) : DispatchReader :=
  { r with cursor := h.snap .latestIdr }

/-- `DispatchReader::finish_prime`. -/
def finishPrime (r : DispatchReader) (h : StreamHub) : DispatchReader :=
  match r.policy with
  | .sequentialFromIdr => r.snapToLatestIdr h
  | _ => r.snapToLiveEdge h

/-- `DispatchReader::recover_lag`. -/
def recoverLag (r : DispatchReader) (h : StreamHub) : DispatchReader := r.snapToLiveEdge h

/-- `DispatchReader::take_muxer_resync`: the flag, and the reader without it. -/
def takeMuxerResync (r : DispatchReader) : Bool × DispatchReader :=
  (r.pendingMuxerResync, { r with pendingMuxerResync := false })

/-- `DispatchReader::take_live_snap`. -/
def takeLiveSnap (r : DispatchReader) : Bool × DispatchReader :=
  (r.pendingLiveSnap, { r with pendingLiveSnap := false })

/-! ## Priming -/

/-- `DispatchReader::media_lag_from_seq_ms`. -/
def mediaLagFromSeqMs (h : StreamHub) (fromSeq : ℕ) : Option ℕ :=
  let latest := h.latestSeq
  if latest < fromSeq then some 0
  else
    (h.ring.get fromSeq).bind fun fromFrame =>
      ((h.framesFrom fromSeq latest).reverse.find? StoredFrame.isPlayableVideo).map fun video =>
        mediaFrameTimestampDeltaMs fromFrame.toMediaFrame video.toMediaFrame

/-- `DispatchReader::idr_is_close_to_live`, without the two lags it also logs. -/
def idrIsCloseToLive (h : StreamHub) (idrSeq : ℕ) : Bool :=
  decide (h.latestSeq - idrSeq ≤ PRIME_EXISTING_IDR_MAX_LAG) &&
    ((mediaLagFromSeqMs h idrSeq).map fun lag =>
      decide (lag ≤ PRIME_EXISTING_IDR_MAX_MEDIA_LAG_MS)).getD true

/-- One look of `prime_from_idr`: the latest key frame, if it is newer than
`baselineLatest`, the live edge at the start of the call, or close to the live
edge now, and playable. -/
def primeCheck (r : DispatchReader) (h : StreamHub) (baselineLatest : ℕ) :
    Option StoredFrame × DispatchReader :=
  match h.latestIdrSeq with
  | none => (none, r)
  | some idrSeq =>
    if decide (baselineLatest < idrSeq) || idrIsCloseToLive h idrSeq then
      match (h.ring.get idrSeq).filter StoredFrame.isPlayableIdr with
      | some idr => (some idr, { r with cursor := idrSeq, primed := true })
      | none => (none, r)
    else (none, r)

/-! ## Receiving -/

/-- The test of `ensure_data`: there is something to read, and no need to wait. -/
def ensureReady (r : DispatchReader) (h : StreamHub) : Bool :=
  !h.isEmpty && decide (r.cursor ≤ h.latestSeq)

/-- The catch-up branch of `recv_batch`. -/
def recvCatchup (r : DispatchReader) (h : StreamHub) (until' : ℕ) :
    List StoredFrame × DispatchReader :=
  let latest := h.latestSeq
  if latest < r.cursor then ([], r)
  else
    let stop := min latest until'
    let frames := h.framesFrom r.cursor stop
    if frames = [] then ([], r)
    else
      (frames,
        { r with
          cursor := stop + 1
          videoCatchupUntil := if until' < stop + 1 then none else some until' })

/-- The last number that a batch takes in. -/
def batchEnd (r : DispatchReader) (h : StreamHub) : ℕ :=
  match r.policy with
  | .sequentialFromIdr => min h.latestSeq (r.cursor + (MAX_SEQUENTIAL_BATCH - 1))
  | .liveSequential => min h.latestSeq (r.cursor + (MAX_SEQUENTIAL_BATCH - 1))
  | .liveCoalesce => h.latestSeq
  | .webRtcPlay => r.cursor

/-- The gap branch of `recv_batch`, taken where nothing of the range is stored:
if the ring begins after the cursor, jump to the latest key frame. -/
def jumpToIdr (r : DispatchReader) (h : StreamHub) : List StoredFrame × DispatchReader :=
  match h.oldestSeq with
  | none => ([], r)
  | some oldest =>
    if r.cursor < oldest then
      let cursor := max (h.snap .latestIdr) oldest
      let r := { r with pendingMuxerResync := true, cursor }
      if cursor ≤ h.latestSeq then
        let stop := min h.latestSeq (cursor + (MAX_SEQUENTIAL_BATCH - 1))
        let retry := h.framesFrom cursor stop
        if retry = [] then ([], r) else (retry, { r with cursor := stop + 1 })
      else ([], r)
    else ([], r)

/-- The end of `recv_batch`, with the frames of the range. -/
def deliver (r : DispatchReader) (h : StreamHub) (frames : List StoredFrame) (stop : ℕ) :
    List StoredFrame × DispatchReader :=
  match r.policy with
  | .liveCoalesce =>
    if 1 < (frames.filter StoredFrame.isPlayableVideo).length then
      match lastPlayableIdrSeq h r.cursor stop with
      | some idrSeq => (coalesceStored frames, r.beginVideoCatchupAfterIdr idrSeq stop)
      | none => (coalesceStored frames, { r with cursor := stop + 1 })
    else (coalesceStored frames, { r with cursor := stop + 1 })
  | .webRtcPlay => (coalesceStored frames, { r with cursor := stop + 1 })
  | .liveSequential => (frames, { r with cursor := stop + 1 })
  | .sequentialFromIdr => (frames, { r with cursor := stop + 1 })

/-- The lag branch of `recv_batch`. -/
def snapOnLag (r : DispatchReader) (h : StreamHub) : DispatchReader :=
  if r.policy = .webRtcPlay ∧ WEBRTC_LAG_SNAP_THRESHOLD < h.latestSeq - r.cursor then
    { r with pendingLiveSnap := true }.snapToLiveEdge h
  else r

/-- `recv_batch` outside a catch-up. -/
def recvRange (r : DispatchReader) (h : StreamHub) : List StoredFrame × DispatchReader :=
  let r := r.snapOnLag h
  if h.latestSeq < r.cursor then ([], r)
  else
    let frames := h.framesFrom r.cursor (r.batchEnd h)
    if frames = [] then r.jumpToIdr h else r.deliver h frames (r.batchEnd h)

/-- `DispatchReader::recv_batch`, once `ensure_data` has returned. -/
def recvBatch (r : DispatchReader) (h : StreamHub) : List StoredFrame × DispatchReader :=
  match r.policy, r.videoCatchupUntil with
  | .liveCoalesce, some until' => r.recvCatchup h until'
  | _, _ => r.recvRange h

end DispatchReader

end VcpMediaServer
