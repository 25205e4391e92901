import VcpMediaServer.H264Collect
import VcpMediaServer.RtpPacketize

/-!
# The RTSP pusher

`rtsp/pusher.rs`: the loop that sends the frames of a stream to another server. It has a
packetizer of its own: a frame is **one packet**, with the length of the frame in four bytes in
front of it, and a key frame has its parameter sets sent before it.

* `RtspCommon.extractSpsPps` — the parameter sets of a frame, with the accesses that may be out
  of bounds.
* `RtspPusher.sendLoop` — the loop, over the batches that its reader gives.
* `collect_once` — what such packets make an ingest publish: the length in front makes a NAL unit
  of type 0 of a frame, which gives **nothing**.
* `pushesUnits_iff` — the frames arrive exactly if there are none.
-/

namespace VcpMediaServer

open Mealy

/-! ## Parameter sets -/

namespace RtspCommon

/-- The inner loop of `extract_sps_pps`: the next start code from `n` on, or the last four bytes. -/
def nextStart (payload : List UInt8) : ℕ → ℕ → ℕ
  | 0, n => n
  | fuel + 1, n =>
    if n < payload.length - 4 then
      if payload.getD n 0 = 0 ∧ payload.getD (n + 1) 0 = 0 then
        if payload.getD (n + 2) 0 = 1 then n
        else if payload.getD (n + 2) 0 = 0 ∧ payload.getD (n + 3) 0 = 1 then n + 1
        else nextStart payload fuel (n + 1)
      else nextStart payload fuel (n + 1)
    else n

/-- The outer loop, with what is found so far; `none` is an index out of bounds, which panics. Every
turn moves by three bytes at least, so the length of the payload is fuel enough. -/
def spsPpsLoop (payload : List UInt8) :
    ℕ → ℕ → Option (List UInt8) → Option (List UInt8) →
      Option (Option (List UInt8) × Option (List UInt8))
  | 0, _, sps, pps => some (sps, pps)
  | fuel + 1, i, sps, pps =>
    if i < payload.length then
      let next := nextStart payload payload.length i
      let nal := if next < payload.length - 4 then slice payload i (next - i) else payload.drop i
      let t := firstNalType nal
      let sps := if nal ≠ [] ∧ t = 7 ∧ sps = none then some nal else sps
      let pps := if nal ≠ [] ∧ t = 8 ∧ pps = none then some nal else pps
      if payload.length ≤ next + 2 then none
      else spsPpsLoop payload fuel (next + if payload.getD (next + 2) 0 = 1 then 3 else 4) sps pps
    else some (sps, pps)

/-- `RtspCommon::extract_sps_pps`; `none` if it panics. -/
def extractSpsPps (payload : List UInt8) : Option (Option (List UInt8) × Option (List UInt8)) :=
  if 4 ≤ payload.length ∧ payload.getD 0 0 = 0 ∧ payload.getD 1 0 = 0 then
    spsPpsLoop payload payload.length (if payload.getD 2 0 = 1 then 3 else 4) none none
  else if payload ≠ [] then
    let t := firstNalType payload
    some (if t = 7 then some payload else none, if t = 8 then some payload else none)
  else some (none, none)

/-- A last NAL unit of two bytes is **out of bounds**. -/
example : extractSpsPps [0, 0, 0, 1, 9, 0xF0] = none := by decide

end RtspCommon

/-! ## The send loop -/

/-- How the packets travel: on a connection that is up, or as datagrams to the sockets of the
tracks, where the system refuses what it cannot send. -/
inductive PushTransport where
  | tcp
  | udp (hasSocket : TrackId → Bool) (sends : List UInt8 → Bool)

/-- A datagram has a length of **16 bits**. -/
def PushTransport.FitsDatagrams : PushTransport → Prop
  | .tcp => True
  | .udp _ sends => ∀ packet, sends packet = true → packet.length < 65536

/-- A packet that is sent. -/
structure SentPacket where
  /-- The channel, of an interleaved frame. -/
  channel : UInt8
  /-- The packet. -/
  packet : List UInt8
  deriving DecidableEq, Repr

/-- `send_rtp_packet`: what is sent, and whether there was no error. -/
def PushTransport.send (transport : PushTransport) (trackId : TrackId) (packet : List UInt8) :
    List SentPacket × Bool :=
  match transport with
  | .tcp => ([⟨trackId * 2, packet⟩], true)
  | .udp hasSocket sends =>
    if hasSocket trackId then (if sends packet then [⟨trackId * 2, packet⟩] else [], sends packet)
    else ([], true)

/-- `RtspPusher`, with what its loop keeps. -/
structure RtspPusher where
  /-- The tracks. -/
  tracks : List Track
  /-- The SPS seen last. -/
  spsCache : Option (List UInt8)
  /-- The PPS seen last. -/
  ppsCache : Option (List UInt8)
  /-- The number of the next packet, by track. -/
  sequences : List UInt16
  deriving DecidableEq, Repr

/-- A part of the loop that is done. -/
structure Pushed where
  /-- The pusher afterwards. -/
  pusher : RtspPusher
  /-- What was sent. -/
  sent : List SentPacket
  /-- There was no error. -/
  ok : Bool
  deriving DecidableEq, Repr

/-- The next part, unless there was an error. -/
def Pushed.andThen (r : Pushed) (next : RtspPusher → Option Pushed) : Option Pushed :=
  if r.ok then (next r.pusher).map fun r' => { r' with sent := r.sent ++ r'.sent } else some r

namespace RtspPusher

/-- The SSRC of every packet. -/
def SSRC : UInt32 := 0x12345678

/-- One packet, with the next number of its track; `none` if the track has no number. -/
def sendPacket (transport : PushTransport) (p : RtspPusher) (trackId : TrackId)
    (payloadType : UInt8) (ts : UInt32) (marker : Bool) (payload : List UInt8) : Option Pushed :=
  p.sequences[trackId.toNat]?.map fun seq =>
    let (sent, ok) := transport.send trackId (buildRtpPacket payloadType seq ts SSRC marker payload)
    let sequences := if ok then p.sequences.set trackId.toNat (seq + 1) else p.sequences
    { pusher := { p with sequences }, sent, ok }

/-- The parameter sets of a key frame, and the packets of those that are known. -/
def sendParameterSets (transport : PushTransport) (p : RtspPusher) (trackId : TrackId)
    (frame : MediaFrame) : Option Pushed :=
  if frame.codec = .h264 ∧ frame.isKeyframe then
    (RtspCommon.extractSpsPps frame.data).bind fun (sps, pps) =>
      let p := { p with spsCache := sps <|> p.spsCache, ppsCache := pps <|> p.ppsCache }
      match p.spsCache, p.ppsCache with
      | some sps, some pps =>
        (p.sendPacket transport trackId 96 frame.timestamp.toUInt32 false sps).bind fun r =>
          r.andThen fun p => p.sendPacket transport trackId 96 frame.timestamp.toUInt32 false pps
      | _, _ => some ⟨p, [], true⟩
  else some ⟨p, [], true⟩

/-- The payload of a frame: an H264 frame has its length in front. -/
def framePayload (frame : MediaFrame) : List UInt8 :=
  if frame.codec = .h264 then toBe 4 frame.data.length ++ frame.data else frame.data

/-- The turn of the loop for one frame; `none` if it panics. -/
def sendFrame (transport : PushTransport) (p : RtspPusher) (paused : Bool) (frame : MediaFrame) :
    Option Pushed :=
  if paused then some ⟨p, [], true⟩
  else
    match p.tracks.find? fun track => track.id = frame.trackId with
    | none => some ⟨p, [], true⟩
    | some track =>
      (p.sendParameterSets transport track.id frame).bind fun r => r.andThen fun p =>
        p.sendPacket transport track.id track.payloadType frame.timestamp.toUInt32 frame.isKeyframe
          (framePayload frame)

/-- A batch of the reader, each frame with whether the pusher is paused when it comes. An error
**ends the batch**. -/
def sendBatch (transport : PushTransport) : RtspPusher → List (Bool × MediaFrame) → Option Pushed
  | p, [] => some ⟨p, [], true⟩
  | p, (paused, frame) :: frames =>
    (p.sendFrame transport paused frame).bind fun r => r.andThen fun p =>
      sendBatch transport p frames

/-- `rtp_send_loop`: the pusher after the batches, and all that was sent. -/
def sendLoop (transport : PushTransport) :
    RtspPusher → List (List (Bool × MediaFrame)) → Option (RtspPusher × List SentPacket)
  | p, [] => some (p, [])
  | p, batch :: batches =>
    (sendBatch transport p batch).bind fun r =>
      (sendLoop transport r.pusher batches).map fun (p, sent) => (p, r.sent ++ sent)

end RtspPusher

/-! ## What the packets publish -/

namespace H264RtpIngest

variable {ing : H264RtpIngest} {ts : UInt32}

/-- There is no access unit begun with another timestamp. -/
def IsAt (ts : UInt32) (ing : H264RtpIngest) : Prop :=
  ing.batch.parts = [] ∨ ing.batch.timestamp = ts

theorem isAt_addPart (h : IsAt ts ing) (frame : MediaFrame) : IsAt ts (ing.addPart frame ts) := by
  right
  rw [addPart]
  dsimp only
  split
  · rfl
  · next hne => exact h.resolve_left hne

/-- Giving the access unit away leaves none begun. -/
theorem takeUnit_once (ing : H264RtpIngest) (ts : UInt32) :
    IsAt ts ing.takeUnit.1 ∧ ing.takeUnit.2.length ≤ 1 := by
  rw [takeUnit]
  split
  · next hnil => exact ⟨.inl hnil, Nat.zero_le 1⟩
  · split
    · exact ⟨.inl rfl, Nat.le_refl 1⟩
    · exact ⟨.inl rfl, Nat.zero_le 1⟩

/-- A frame without the marker gives the access unit **before it** at most. -/
theorem collectFrame_once (ing : H264RtpIngest) (frame : MediaFrame) (ts : UInt32) :
    (IsAt ts ing → (ing.collectFrame frame ts false).2 = [] ∧
      IsAt ts (ing.collectFrame frame ts false).1) ∧
    ((ing.collectFrame frame ts false).2 = [] ∨
      (ing.collectFrame frame ts false).2.length = 1 ∧
          IsAt ts (ing.collectFrame frame ts false).1) := by
  rw [collectFrame]
  split
  · exact ⟨fun h => ⟨rfl, h⟩, .inl rfl⟩
  · by_cases hends : ing.batch.parts ≠ [] ∧ ing.batch.timestamp ≠ ts
    · have hnot : ¬ IsAt ts ing := not_or.mpr hends
      obtain ⟨hat, hlen⟩ := takeUnit_once ing ts
      rw [decide_eq_true hends]
      change (IsAt ts ing → ing.takeUnit.2 ++ [] = [] ∧ IsAt ts (ing.takeUnit.1.addPart frame ts)) ∧
        (ing.takeUnit.2 ++ [] = [] ∨
          (ing.takeUnit.2 ++ []).length = 1 ∧ IsAt ts (ing.takeUnit.1.addPart frame ts))
      rw [List.append_nil]
      refine ⟨fun h => absurd h hnot, ?_⟩
      rcases Nat.le_one_iff_eq_zero_or_eq_one.mp hlen with hzero | hone
      · exact .inl (List.length_eq_zero_iff.mp hzero)
      · exact .inr ⟨hone, isAt_addPart hat frame⟩
    · rw [decide_eq_false hends]
      exact ⟨fun h => ⟨rfl, isAt_addPart h frame⟩, .inl rfl⟩

/-- A payload that gives the access unit before it at most: one without the marker, or one that
nothing comes of. -/
theorem collectPayload_once {payload : List UInt8} {marker : Bool}
    (h : marker = false ∨ ∀ d s, payloadFrame d s payload ts = (d, none)) (ing : H264RtpIngest) :
    (IsAt ts ing → (ing.collectPayload payload ts marker).2 = [] ∧
      IsAt ts (ing.collectPayload payload ts marker).1) ∧
    ((ing.collectPayload payload ts marker).2 = [] ∨
      (ing.collectPayload payload ts marker).2.length = 1 ∧
        IsAt ts (ing.collectPayload payload ts marker).1) := by
  rw [collectPayload]
  split
  · exact ⟨fun h => ⟨rfl, h⟩, .inl rfl⟩
  · rcases h with rfl | h
    · rcases payloadFrame ing.depacketizer ing.streamId payload ts with ⟨d, _ | frame⟩
      · exact ⟨fun h => ⟨rfl, h⟩, .inl rfl⟩
      · exact collectFrame_once { ing with depacketizer := d } frame ts
    · rw [h]
      exact ⟨fun h => ⟨rfl, h⟩, .inl rfl⟩

theorem isAt_acceptSequence (h : IsAt ts ing) (seq : UInt16) (payload : List UInt8) :
    IsAt ts (ing.acceptSequence seq payload).1 := by
  simp only [acceptSequence]
  split
  · exact h
  · split
    · exact h
    · exact .inl rfl

/-- Such a payload in a packet, with **any number**. -/
theorem collect_once {payloadType : UInt8} {seq : UInt16} {ssrc : UInt32} {marker : Bool}
    {payload : List UInt8}
    (h : ((if marker then 0x80 else 0) ||| payloadType) &&& 0x80 = 0 ∨
      ∀ d s, payloadFrame d s payload ts = (d, none)) :
    Once collect (IsAt ts) (buildRtpPacket payloadType seq ts ssrc marker payload) := by
  have hmarker : (((if marker then 0x80 else 0) ||| payloadType) &&& 0x80 != 0) = false ∨
      ∀ d s, payloadFrame d s payload ts = (d, none) := h.imp_left fun h => by rw [h]; rfl
  by_cases hnil : payload = []
  · have hnone : ∀ ing : H264RtpIngest,
        ing.collect (buildRtpPacket payloadType seq ts ssrc marker payload) = (ing, []) := by
      intro ing
      rw [collect, rtpH264PacketInfo_build_any, if_pos hnil]
    exact ⟨fun ing hing => by rw [hnone]; exact ⟨rfl, hing⟩,
      fun ing => by rw [hnone]; exact .inl rfl⟩
  · have hcollect : ∀ ing : H264RtpIngest,
        (IsAt ts ing → (ing.collect (buildRtpPacket payloadType seq ts ssrc marker payload)).2 =
          [] ∧
          IsAt ts (ing.collect (buildRtpPacket payloadType seq ts ssrc marker payload)).1) ∧
        ((ing.collect (buildRtpPacket payloadType seq ts ssrc marker payload)).2 = [] ∨
          (ing.collect (buildRtpPacket payloadType seq ts ssrc marker payload)).2.length = 1 ∧
            IsAt ts (ing.collect (buildRtpPacket payloadType seq ts ssrc marker payload)).1) := by
      intro ing
      have haccept : IsAt ts ing → IsAt ts (ing.acceptSequence seq payload).1 := fun h =>
        isAt_acceptSequence h seq payload
      rw [collect, rtpH264PacketInfo_build_any, if_neg hnil]
      dsimp only
      generalize ing.acceptSequence seq payload = r at haccept
      obtain ⟨ing', _ | _⟩ := r
      · exact ⟨fun h => ⟨rfl, haccept h⟩, .inl rfl⟩
      · obtain ⟨hquiet, honce⟩ := collectPayload_once hmarker ing'
        exact ⟨fun h => hquiet (haccept h), honce⟩
    exact ⟨fun ing => (hcollect ing).1, fun ing => (hcollect ing).2⟩

/-- The length of a frame below 16 MiB begins with a zero byte, and **nothing** comes of a NAL unit
of type 0. -/
theorem payloadFrame_withLength {data : List UInt8} (h : data.length < 2 ^ 24)
    (d : H264RtpDepacketizer) (s : StreamId) (ts : UInt32) :
    payloadFrame d s (toBe 4 data.length ++ data) ts = (d, none) := by
  obtain ⟨rest, hrest⟩ : ∃ rest, toBe 4 data.length ++ data = 0 :: rest := by
    refine ⟨toBe 3 data.length ++ data, ?_⟩
    rw [toBe_add 1 3, show data.length / 256 ^ 3 = 0 by omega]
    rfl
  have hne : (0 :: rest : List UInt8) ≠ [] := List.cons_ne_nil _ _
  have htype : firstNalType (0 :: rest) = 0 := show (0 : UInt8) &&& 0x1F = 0 by decide
  have hrange : ¬ ((1 : UInt8) ≤ 0 ∧ (0 : UInt8) ≤ 23) := by decide
  have hstap : (0 : UInt8) ≠ STAP_A := by decide
  have hfu : (0 : UInt8) ≠ FU_A := by decide
  have hparse : parseRtpH264 (0 :: rest) = [] := by
    rw [parseRtpH264, if_neg hne, htype]
    exact (if_neg hrange).trans (if_neg hstap)
  have hpush : d.push (0 :: rest) = (d, .error (.unsupportedNaluType 0)) := by
    rw [H264RtpDepacketizer.push, if_neg hne, htype]
    exact (if_neg hrange).trans ((if_neg hstap).trans (if_neg hfu))
  rw [hrest, payloadFrame, hpush, annexBFromRtpPayload, hparse]
  rfl

end H264RtpIngest

/-! ## What the loop sends -/

variable {transport : PushTransport}

/-- A packet of a frame with the timestamp `ts` that gives the access unit before it at most; over
TCP, if its length fits in front of it. -/
def SentPacket.IsOnce (transport : PushTransport) (ts : UInt32) (x : SentPacket) : Prop :=
  (transport = .tcp → x.packet.length < 65536) →
    Once H264RtpIngest.collect (H264RtpIngest.IsAt ts) x.packet

/-- The packets of at most `n` frames. -/
def SentFrames (transport : PushTransport) (n : ℕ) (sent : List SentPacket) : Prop :=
  ∃ runs : List (List SentPacket), sent = runs.flatten ∧ runs.length ≤ n ∧
    ∀ run ∈ runs, ∃ ts, ∀ x ∈ run, SentPacket.IsOnce transport ts x

theorem SentFrames.nil (transport : PushTransport) (n : ℕ) : SentFrames transport n [] :=
  ⟨[], rfl, Nat.zero_le n, by simp⟩

theorem SentFrames.single {ts : UInt32} {sent : List SentPacket}
    (h : ∀ x ∈ sent, SentPacket.IsOnce transport ts x) : SentFrames transport 1 sent :=
  ⟨[sent], (List.flatten_singleton).symm, Nat.le_refl 1, List.forall_mem_singleton.mpr ⟨ts, h⟩⟩

theorem SentFrames.append {n n' : ℕ} {sent sent' : List SentPacket}
    (h : SentFrames transport n sent) (h' : SentFrames transport n' sent') :
    SentFrames transport (n + n') (sent ++ sent') := by
  obtain ⟨runs, rfl, hlen, hruns⟩ := h
  obtain ⟨runs', rfl, hlen', hruns'⟩ := h'
  refine ⟨runs ++ runs', List.flatten_append.symm, ?_, List.forall_mem_append.mpr ⟨hruns, hruns'⟩⟩
  rw [List.length_append]
  exact Nat.add_le_add hlen hlen'

theorem SentFrames.mono {n n' : ℕ} {sent : List SentPacket} (h : SentFrames transport n sent)
    (hn : n ≤ n') : SentFrames transport n' sent := by
  obtain ⟨runs, hsent, hlen, hruns⟩ := h
  exact ⟨runs, hsent, hlen.trans hn, hruns⟩

namespace RtspPusher

variable {p : RtspPusher} {r r' : Pushed} {trackId : TrackId} {frame : MediaFrame}

/-- Only the packet is sent, and as a datagram only if it fits. -/
theorem mem_send (hfits : transport.FitsDatagrams) {packet : List UInt8} {x : SentPacket}
    (hx : x ∈ (transport.send trackId packet).1) :
    x.packet = packet ∧ (transport = .tcp ∨ packet.length < 65536) := by
  cases transport with
  | tcp =>
    obtain rfl := List.mem_singleton.mp hx
    exact ⟨rfl, .inl rfl⟩
  | udp hasSocket sends =>
    rw [PushTransport.send] at hx
    split at hx
    · dsimp only at hx
      split at hx
      · next hsends =>
        obtain rfl := List.mem_singleton.mp hx
        exact ⟨rfl, .inr (hfits _ hsends)⟩
      · cases hx
    · cases hx

theorem sendPacket_once (hfits : transport.FitsDatagrams) {payloadType : UInt8} {ts : UInt32}
    {marker : Bool} {payload : List UInt8}
    (hpayload : 12 + payload.length < 65536 →
      ((if marker then 0x80 else 0) ||| payloadType) &&& 0x80 = 0 ∨
        ∀ d s, H264RtpIngest.payloadFrame d s payload ts = (d, none))
    (h : p.sendPacket transport trackId payloadType ts marker payload = some r) :
    ∀ x ∈ r.sent, x.IsOnce transport ts := by
  obtain ⟨seq, -, rfl⟩ := Option.map_eq_some_iff.mp h
  intro x hx htcp
  obtain ⟨hpacket, hlen⟩ := mem_send hfits hx
  have hshort : x.packet.length < 65536 := hlen.elim htcp fun h => hpacket ▸ h
  rw [hpacket, length_buildRtpPacket] at hshort
  rw [hpacket]
  exact H264RtpIngest.collect_once (hpayload hshort)

theorem andThen_once {next : RtspPusher → Option Pushed} {ts : UInt32}
    (hr : ∀ x ∈ r.sent, x.IsOnce transport ts)
    (hnext : ∀ p r, next p = some r → ∀ x ∈ r.sent, x.IsOnce transport ts)
    (h : r.andThen next = some r') : ∀ x ∈ r'.sent, x.IsOnce transport ts := by
  rw [Pushed.andThen] at h
  split at h
  · obtain ⟨r'', hr'', rfl⟩ := Option.map_eq_some_iff.mp h
    exact List.forall_mem_append.mpr ⟨hr, hnext _ _ hr''⟩
  · obtain rfl := Option.some.inj h
    exact hr

theorem sendParameterSets_once (hfits : transport.FitsDatagrams)
    (h : p.sendParameterSets transport trackId frame = some r) :
    ∀ x ∈ r.sent, x.IsOnce transport frame.timestamp.toUInt32 := by
  have hmarker : ((if false = true then 0x80 else 0) ||| (96 : UInt8)) &&& 0x80 = 0 := by decide
  rw [sendParameterSets] at h
  split at h
  · obtain ⟨⟨sps, pps⟩, -, h⟩ := Option.bind_eq_some_iff.mp h
    dsimp only at h
    split at h
    · obtain ⟨r₁, hsps, h⟩ := Option.bind_eq_some_iff.mp h
      exact andThen_once (sendPacket_once hfits (fun _ => .inl hmarker) hsps)
        (fun _ _ hpps => sendPacket_once hfits (fun _ => .inl hmarker) hpps) h
    · obtain rfl := Option.some.inj h
      simp
  · obtain rfl := Option.some.inj h
    simp

/-- The packets of one frame. -/
theorem sendFrame_once (hfits : transport.FitsDatagrams) (hcodec : frame.codec = .h264)
    (h : p.sendFrame transport false frame = some r) :
    ∀ x ∈ r.sent, x.IsOnce transport frame.timestamp.toUInt32 := by
  rw [sendFrame, if_neg Bool.false_ne_true] at h
  split at h
  · obtain rfl := Option.some.inj h
    simp
  · obtain ⟨r₁, hsets, h⟩ := Option.bind_eq_some_iff.mp h
    refine andThen_once (sendParameterSets_once hfits hsets) (fun _ _ hmedia => ?_) h
    refine sendPacket_once hfits (fun hlen => .inr fun d s => ?_) hmedia
    rw [framePayload, if_pos hcodec, List.length_append, length_toBe] at hlen
    rw [framePayload, if_pos hcodec]
    exact H264RtpIngest.payloadFrame_withLength (by omega) d s _

/-- The frames of batches that come while the pusher is not paused. -/
def unpaused (frames : List (Bool × MediaFrame)) : List MediaFrame :=
  (frames.filter fun x => !x.1).map Prod.snd

@[simp] theorem unpaused_paused (frame : MediaFrame) (frames : List (Bool × MediaFrame)) :
    unpaused ((true, frame) :: frames) = unpaused frames := rfl

@[simp] theorem unpaused_cons (frame : MediaFrame) (frames : List (Bool × MediaFrame)) :
    unpaused ((false, frame) :: frames) = frame :: unpaused frames := rfl

theorem unpaused_append (frames frames' : List (Bool × MediaFrame)) :
    unpaused (frames ++ frames') = unpaused frames ++ unpaused frames' := by
  rw [unpaused, List.filter_append, List.map_append]
  rfl

theorem sendBatch_frames (hfits : transport.FitsDatagrams) {frames : List (Bool × MediaFrame)}
    (hcodec : ∀ frame ∈ unpaused frames, frame.codec = .h264)
    (h : sendBatch transport p frames = some r) :
    SentFrames transport (unpaused frames).length r.sent := by
  induction frames generalizing p r with
  | nil =>
    obtain rfl := Option.some.inj h
    exact .nil transport 0
  | cons x frames ih =>
    obtain ⟨paused, frame⟩ := x
    obtain ⟨r₁, hframe, h⟩ := Option.bind_eq_some_iff.mp h
    have hfirst :
      SentFrames transport ((unpaused ((paused, frame) :: frames)).length -
      (unpaused frames).length)
        r₁.sent := by
      cases paused with
      | true =>
        obtain rfl := Option.some.inj hframe
        exact .nil transport _
      | false =>
        rw [unpaused_cons, List.length_cons, Nat.add_sub_cancel_left]
        exact .single (sendFrame_once hfits (hcodec frame List.mem_cons_self) hframe)
    have hle : (unpaused frames).length ≤ (unpaused ((paused, frame) :: frames)).length := by
      cases paused <;> simp
    have hcodec' : ∀ frame ∈ unpaused frames, frame.codec = .h264 := by
      cases paused with
      | true => exact hcodec
      | false => exact fun frame hframe => hcodec frame (List.mem_cons_of_mem _ hframe)
    rw [Pushed.andThen] at h
    split at h
    · obtain ⟨r₂, hrest, rfl⟩ := Option.map_eq_some_iff.mp h
      exact (hfirst.append (ih hcodec' hrest)).mono (by omega)
    · obtain rfl := Option.some.inj h
      exact hfirst.mono (Nat.sub_le _ _)

/-- The packets of a loop are those of **at most** its frames. -/
theorem sendLoop_frames (hfits : transport.FitsDatagrams)
    {batches : List (List (Bool × MediaFrame))}
    (hcodec : ∀ frame ∈ unpaused batches.flatten, frame.codec = .h264) {p' : RtspPusher}
    {sent : List SentPacket} (h : sendLoop transport p batches = some (p', sent)) :
    SentFrames transport (unpaused batches.flatten).length sent := by
  induction batches generalizing p p' sent with
  | nil =>
    obtain ⟨-, rfl⟩ := Prod.mk.inj (Option.some.inj h)
    exact .nil transport 0
  | cons batch batches ih =>
    rw [List.flatten_cons, unpaused_append] at hcodec ⊢
    obtain ⟨hbatch, hbatches⟩ := List.forall_mem_append.mp hcodec
    obtain ⟨r, hr, h⟩ := Option.bind_eq_some_iff.mp h
    obtain ⟨⟨p₁, sent₁⟩, hrest, heq⟩ := Option.map_eq_some_iff.mp h
    obtain ⟨-, rfl⟩ := Prod.mk.inj heq
    rw [List.length_append]
    exact (sendBatch_frames hfits hbatch hr).append (ih hbatches hrest)

/-- Without such frames nothing is done. -/
theorem sendBatch_of_paused (p : RtspPusher) {frames : List (Bool × MediaFrame)}
    (h : unpaused frames = []) : sendBatch transport p frames = some ⟨p, [], true⟩ := by
  induction frames with
  | nil => rfl
  | cons x frames ih =>
    obtain ⟨_ | _, frame⟩ := x
    · cases h
    · rw [sendBatch, sendFrame, if_pos rfl, Option.bind_some, Pushed.andThen, if_pos rfl, ih h]
      rfl

theorem sendLoop_of_paused (p : RtspPusher) {batches : List (List (Bool × MediaFrame))}
    (h : unpaused batches.flatten = []) : sendLoop transport p batches = some (p, []) := by
  induction batches with
  | nil => rfl
  | cons batch batches ih =>
    rw [List.flatten_cons, unpaused_append, List.append_eq_nil_iff] at h
    rw [sendLoop, sendBatch_of_paused p h.1, Option.bind_some, ih h.2]
    rfl

end RtspPusher

/-! ## What arrives -/

/-- The packets of some frames publish **fewer** frames, in an ingest just made. -/
theorem SentFrames.length_published_lt {n : ℕ} {sent : List SentPacket}
    (h : SentFrames transport n sent) (hn : 0 < n)
    (htcp : transport = .tcp → ∀ x ∈ sent, x.packet.length < 65536) (s : StreamId) :
    (trace H264RtpIngest.collect (.new s) (sent.map SentPacket.packet)).flatten.length < n := by
  obtain ⟨runs, rfl, hlen, hruns⟩ := h
  have honce : ∀ run ∈ runs, ∃ ts, ∀ packet ∈ run.map SentPacket.packet,
      Once H264RtpIngest.collect (H264RtpIngest.IsAt ts) packet := by
    intro run hrun
    obtain ⟨ts, hrun'⟩ := hruns run hrun
    refine ⟨ts, List.forall_mem_map.mpr fun x hx => hrun' x hx fun h => ?_⟩
    exact htcp h x (List.mem_flatten.mpr ⟨run, hrun, hx⟩)
  cases runs with
  | nil => exact hn
  | cons run runs =>
    obtain ⟨⟨ts, hfirst⟩, hrest⟩ := List.forall_mem_cons.mp honce
    -- an ingest just made is at any timestamp, so the first frame gives nothing
    have hnew : H264RtpIngest.IsAt ts (.new s) := .inl rfl
    have hruns' : ∀ ls ∈ runs.map (List.map SentPacket.packet), ∃ A, ∀ l ∈ ls,
        Once H264RtpIngest.collect A l := by
      refine List.forall_mem_map.mpr fun run hrun => ?_
      obtain ⟨ts, h⟩ := hrest run hrun
      exact ⟨_, h⟩
    have hcount := length_trace_flatten_le hruns'
      (final H264RtpIngest.collect (.new s) (run.map SentPacket.packet))
    rw [List.length_map, ← List.map_flatten] at hcount
    rw [List.length_cons] at hlen
    rw [List.flatten_cons, List.map_append, trace_append, List.flatten_append,
      flatten_trace_of_once hfirst hnew, List.nil_append]
    exact Nat.lt_of_lt_of_le (Nat.lt_succ_of_le hcount) hlen

/-- The NAL units of a frame, and its timestamp. -/
def unitOf (frame : MediaFrame) : List (List UInt8) × UInt64 :=
  (iterAnnexBNalRanges frame.data, frame.timestamp)

/-- What the loop sends for the frames that come while it is not paused, publishes **their access
units** in an ingest just made, and over TCP every packet has its length in front of it. -/
def PushesUnits (transport : PushTransport) (p : RtspPusher) (s : StreamId)
    (batches : List (List (Bool × MediaFrame))) : Prop :=
  ∃ p' sent, p.sendLoop transport batches = some (p', sent) ∧
    (trace H264RtpIngest.collect (.new s) (sent.map SentPacket.packet)).flatten.map unitOf =
      (RtspPusher.unpaused batches.flatten).map unitOf ∧
    (transport = .tcp → ∀ x ∈ sent,
      interleavedLength (wrapInterleaved x.packet x.channel) = x.packet.length)

/-- The access units arrive **exactly if** there are none. -/
theorem pushesUnits_iff (hfits : transport.FitsDatagrams) (p : RtspPusher) (s : StreamId)
    {batches : List (List (Bool × MediaFrame))}
    (hcodec : ∀ frame ∈ RtspPusher.unpaused batches.flatten, frame.codec = .h264) :
    PushesUnits transport p s batches ↔ RtspPusher.unpaused batches.flatten = [] := by
  constructor
  · rintro ⟨p', sent, hsent, hunits, hlength⟩
    by_contra hne
    have hpublished := (RtspPusher.sendLoop_frames hfits hcodec hsent).length_published_lt
      (List.length_pos_of_ne_nil hne) (fun htcp x hx => ?_) s
    · have hlen := congrArg List.length hunits
      rw [List.length_map, List.length_map] at hlen
      omega
    · have hfit := hlength htcp x hx
      rw [interleavedLength_wrap] at hfit
      omega
  · intro h
    exact ⟨p, [], RtspPusher.sendLoop_of_paused p h, by rw [h]; rfl, by simp⟩

/-- A pusher of one video track that has sent nothing. -/
def RtspPusher.ofVideo : RtspPusher :=
  { tracks := [⟨0, .h264, 96, 90000⟩], spsCache := none, ppsCache := none, sequences := [0] }

/-- A key frame of one slice. -/
def idrFrame : MediaFrame := .new "cam" 0 90000 (annexB [[0x65, 0x88, 0x84]]) true .h264

/-- Over UDP, where the system refuses longer datagrams than there can be. -/
theorem not_pushesUnits_of_udp :
    ¬ PushesUnits (.udp (fun _ => true) fun packet => packet.length ≤ 65507) .ofVideo "cam"
      [[(false, idrFrame)]] := by
  have hfits :
      PushTransport.FitsDatagrams (.udp (fun _ => true) fun packet => packet.length ≤ 65507) :=
    fun packet h => Nat.lt_of_le_of_lt (of_decide_eq_true h) (by decide)
  exact fun h => List.cons_ne_nil _ _ ((pushesUnits_iff hfits .ofVideo "cam" (by decide)).mp h)

/-- A key frame sent over TCP publishes **nothing**. -/
theorem not_pushesUnits_of_idr : ¬ PushesUnits .tcp .ofVideo "cam" [[(false, idrFrame)]] := by
  rintro ⟨p', sent, hsent, hunits, -⟩
  have hnone : (RtspPusher.sendLoop .tcp .ofVideo [[(false, idrFrame)]]).map (fun r =>
      (trace H264RtpIngest.collect (.new "cam") (r.2.map SentPacket.packet)).flatten) =
          some [] := by
    decide
  rw [hsent, Option.map_some, Option.some.injEq] at hnone
  rw [hnone] at hunits
  cases hunits

end VcpMediaServer
