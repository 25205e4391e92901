import VcpMediaServer.Incremental
import VcpMediaServer.InterleavedChannels
import VcpMediaServer.LivePlay
import VcpMediaServer.PlayClocks

/-!
# RTSP playback

The task of `start_rtp_sender`: it starts at an IDR frame and makes RTP packets of each frame it
takes. Every track has its own **number and clock**.

* `RtspPlay.taken` — the frames that the loop is given.
* `RtspPlay.step` — a turn of the loop, with what is sent.
* `RtspPlay.ticksOf` — the readings of a track's clock, one for each packet.
* `RtspPlay.track_run` — along every run the packets of a track are numbered on from zero, at these
  readings.
-/

namespace VcpMediaServer

open Incremental Mealy

/-! ## Packets -/

/-- The number of a packet. -/
def seqOf (packet : List UInt8) : UInt16 := UInt16.ofNat (beNat (slice packet 2 2))

/-- The time of a packet. -/
def tsOf (packet : List UInt8) : UInt32 := UInt32.ofNat (beNat (slice packet 4 4))

/-- The source of a packet. -/
def ssrcOf (packet : List UInt8) : UInt32 := UInt32.ofNat (beNat (slice packet 8 4))

/-- So many numbers, from `seq` on. -/
def seqsFrom (seq : UInt16) (n : ℕ) : List UInt16 :=
  (List.range n).map fun k => seq + UInt16.ofNat k

/-- Packets of one source and time, numbered from `seq` on to `next`. -/
structure Burst (seq : UInt16) (ts ssrc : UInt32) (next : UInt16) (packets : List (List UInt8)) :
    Prop where
  seqs : packets.map seqOf = seqsFrom seq packets.length
  next : next = seq + UInt16.ofNat packets.length
  header : ∀ packet ∈ packets, 12 ≤ packet.length ∧ tsOf packet = ts ∧ ssrcOf packet = ssrc

theorem seqsFrom_add (seq : UInt16) (n k : ℕ) :
    seqsFrom seq (n + k) = seqsFrom seq n ++ seqsFrom (seq + UInt16.ofNat n) k := by
  rw [seqsFrom, seqsFrom, seqsFrom, List.range_add, List.map_append, List.map_map]
  congr 1
  refine List.map_congr_left fun i _ => ?_
  rw [Function.comp_apply, UInt16.ofNat_add, UInt16.add_assoc]

theorem burst_nil (seq : UInt16) (ts ssrc : UInt32) : Burst seq ts ssrc seq [] :=
  ⟨rfl, (UInt16.add_zero seq).symm, nofun⟩

variable {payloadType : UInt8} {seq : UInt16} {ts ssrc : UInt32}

theorem Burst.append {mid next : UInt16} {packets packets' : List (List UInt8)}
    (h : Burst seq ts ssrc mid packets) (h' : Burst mid ts ssrc next packets') :
    Burst seq ts ssrc next (packets ++ packets') := by
  refine ⟨?_, ?_, List.forall_mem_append.mpr ⟨h.header, h'.header⟩⟩
  · rw [List.map_append, h.seqs, h'.seqs, List.length_append, seqsFrom_add, h.next]
  · rw [h'.next, h.next, List.length_append, UInt16.ofNat_add, UInt16.add_assoc]

/-- A part of a burst. -/
theorem Burst.seqs_of_prefix {next : UInt16} {packets part : List (List UInt8)}
    (h : Burst seq ts ssrc next packets) (hpart : part <+: packets) :
    part.map seqOf = seqsFrom seq part.length := by
  obtain ⟨rest, rfl⟩ := hpart
  have hseqs := h.seqs
  rw [List.map_append, List.length_append, seqsFrom_add] at hseqs
  have hlen : (part.map seqOf).length = (seqsFrom seq part.length).length := by
    rw [seqsFrom, List.length_map, List.length_map, List.length_range]
  exact (List.append_inj hseqs hlen).1

theorem burst_build (marker : Bool) (payload : List UInt8) :
    Burst seq ts ssrc (seq + 1) [buildRtpPacket payloadType seq ts ssrc marker payload] := by
  have hssrc : slice (buildRtpPacket payloadType seq ts ssrc marker payload) 8 4 =
      toBe 4 ssrc.toNat := by
    simp only [buildRtpPacket, List.append_assoc]
    exact List.take_left' (length_toBe 4 _)
  refine ⟨?_, rfl, List.forall_mem_singleton.mpr ⟨?_, ?_, ?_⟩⟩
  · have hseq : seqOf (buildRtpPacket payloadType seq ts ssrc marker payload) = seq := by
      rw [seqOf, slice_buildRtpPacket_seq, beNat_toBe_seq]
    rw [List.map_singleton, hseq]
    exact congrArg (fun n => [n]) (UInt16.add_zero seq).symm
  · rw [length_buildRtpPacket]
    exact Nat.le_add_right _ _
  · rw [tsOf, slice_buildRtpPacket_ts, beNat_toBe_ts]
  · rw [ssrcOf, hssrc, beNat_toBe_ts]

theorem burst_numbered {items : List RtpItem} (h : ∀ item ∈ items, item.timestamp = ts) :
    Burst seq ts ssrc (seq + UInt16.ofNat items.length) (numbered payloadType ssrc seq items) := by
  induction items generalizing seq with
  | nil => exact (UInt16.add_zero seq).symm ▸ burst_nil seq ts ssrc
  | cons item items ih =>
    obtain ⟨rfl, hitems⟩ := List.forall_mem_cons.mp h
    have hnext : seq + UInt16.ofNat (item :: items).length =
        seq + 1 + UInt16.ofNat items.length := by
      rw [List.length_cons, UInt16.ofNat_add, UInt16.add_assoc, UInt16.add_comm (UInt16.ofNat _)]
      rfl
    rw [hnext, numbered]
    exact (burst_build item.marker item.payload).append (ih hitems)

theorem timestamp_fuItems {marker isStart : Bool} {fuIndicator nalType : UInt8}
    {rest : List (List UInt8)} :
    ∀ item ∈ fuItems ts marker fuIndicator nalType isStart rest, item.timestamp = ts := by
  induction rest generalizing isStart with
  | nil => exact nofun
  | cons piece rest ih => exact List.forall_mem_cons.mpr ⟨rfl, ih⟩

theorem timestamp_unitItems {nals : List (List UInt8)} :
    ∀ item ∈ unitItems ts nals, item.timestamp = ts := by
  induction nals with
  | nil => exact nofun
  | cons nal nals ih =>
    refine List.forall_mem_append.mpr ⟨?_, ih⟩
    cases nal with
    | nil => exact nofun
    | cons b data =>
      rw [nalItems]
      split
      · exact List.forall_mem_singleton.mpr rfl
      · exact timestamp_fuItems

/-- **What is sent of a frame** is a burst. -/
theorem burst_egressRtpPackets (m : StreamManager) (s : StreamId) (frame : MediaFrame) (ts : UInt32)
    (seq : UInt16) (ssrc : UInt32) : Burst seq ts ssrc (egressRtpPackets m s frame ts seq ssrc).2
      (egressRtpPackets m s frame ts seq ssrc).1 := by
  rw [egressRtpPackets]
  cases frame.codec with
  | h264 =>
    dsimp only
    rw [packetizeH264AccessUnitForRtp, packetizeNals_eq]
    exact burst_numbered timestamp_unitItems
  | aac =>
    dsimp only
    split
    · exact burst_nil seq ts ssrc
    · split
      · exact burst_nil seq ts ssrc
      · exact burst_build true _
  | h265 | opus | g711 | unknown => exact burst_nil seq ts ssrc

/-! ## The task -/

/-- A frame that the task takes, and what the rest of the server does meanwhile. -/
structure RtspPlayItem where
  /-- The frame. -/
  frame : MediaFrame
  /-- The streams. -/
  store : StreamManager
  /-- The clock, as it is read for the anchor. -/
  first : ℕ
  /-- The clock, as it is read for the packets. -/
  now : ℕ
  /-- The packet that cannot be sent, if there is one. -/
  fails : Option ℕ

/-- The task. -/
structure RtspPlay where
  /-- The stream that is played. -/
  streamId : StreamId
  /-- How packets travel, and their numbers. -/
  sender : PlaySender
  /-- The tracks that have a socket. -/
  udpTracks : TrackId → Bool
  /-- The clocks of the tracks. -/
  timelines : TrackId → Option PlayRtpTimeline
  /-- `await_video_idr`. -/
  awaitVideoIdr : Bool
  /-- A packet could not be sent. -/
  ended : Bool

namespace RtspPlay

/-- The task that `PLAY` starts, when `prime_rtsp_play` has returned a frame or none. -/
def start (streamId : StreamId) (session : RtspSession) (ssrc : UInt32) (udpTracks : TrackId → Bool)
    (pending : Option RtspPlayItem) : RtspPlay :=
  { streamId, sender := .start session ssrc, udpTracks, timelines := fun _ => none,
    awaitVideoIdr := pending.isNone, ended := false }

/-- The frames that the task takes: the one to start from, and then what `recv_coalesced_play_frame`
returns of those that the reader gives. -/
def taken (pending : Option RtspPlayItem) (items : List RtspPlayItem) : List RtspPlayItem :=
  pending.toList ++ items.filter fun item =>
    isPlayableVideoFrame item.frame || !item.frame.codec.isVideo

/-- The task has started from an IDR frame, or does so now, or the frame is no video. -/
def takes (s : RtspPlay) (item : RtspPlayItem) : Bool :=
  !(s.awaitVideoIdr && item.frame.codec.isVideo && !isIdrFrame item.frame)

/-- The clock of a frame's track. -/
def timelineOf (s : RtspPlay) (item : RtspPlayItem) : PlayRtpTimeline :=
  (s.timelines item.frame.trackId).getD (.forCodec item.frame.codec)

/-- The packets of a track are sent at all. -/
def carries (s : RtspPlay) (t : TrackId) : Bool := s.sender.transportMode = .tcp || s.udpTracks t

/-- The packets that are sent, and whether one could not be. -/
def sendsTo (fails : Option ℕ) (packets : List (List UInt8)) : List (List UInt8) × Bool :=
  match fails with
  | some k => if k < packets.length then (packets.take k, true) else (packets, false)
  | none => (packets, false)

/-- A turn of the loop: the packets that are sent, each with its track. -/
def step (s : RtspPlay) (item : RtspPlayItem) : RtspPlay × List (TrackId × List UInt8) :=
  if s.ended || !s.takes item then (s, [])
  else
    let track := item.frame.trackId
    let (timeline, ts) := (s.timelineOf item).mapWallclock item.first item.now
    let (packets, seq) :=
      egressRtpPackets item.store s.streamId item.frame ts (s.sender.rtpSeq track) s.sender.ssrc
    let (packets, failed) :=
      if s.carries track then sendsTo item.fails (packets.filter (· ≠ [])) else ([], false)
    ({ s with
        awaitVideoIdr := s.awaitVideoIdr && !item.frame.codec.isVideo
        sender := { s.sender with rtpSeq := Function.update s.sender.rtpSeq track seq }
        timelines := Function.update s.timelines track (some timeline)
        ended := failed },
      packets.map fun packet => (track, packet))

/-- What is sent in a run. -/
def sent (s : RtspPlay) (items : List RtspPlayItem) : List (TrackId × List UInt8) :=
  (trace step s items).flatten

/-- The turns of a run: each frame, with what is sent of it. -/
def turns (s : RtspPlay) (items : List RtspPlayItem) :
    List (RtspPlayItem × List (TrackId × List UInt8)) :=
  items.zip (trace step s items)

/-- What a clock reads for the packets that turns send on a track: for each of them, **the instant
when its frame was handled**. -/
def readings (timeline : PlayRtpTimeline) (t : TrackId)
    (turns : List (RtspPlayItem × List (TrackId × List UInt8))) :
    List ℕ :=
  turns.flatMap fun turn => (fromSource turn.2 t).map fun _ => timeline.reading turn.1.now

/-- What the clock of a track reads for the packets of a run. -/
def ticksOf (s : RtspPlay) (items : List RtspPlayItem) (t : TrackId) : List ℕ :=
  match (final step s items).timelines t with
  | some timeline => readings timeline t (s.turns items)
  | none => []

variable {s s' : RtspPlay} {item : RtspPlayItem} {items : List RtspPlayItem} {t : TrackId}
  {packets : List (List UInt8)} {timeline : PlayRtpTimeline}
  {past : List (RtspPlayItem × List (TrackId × List UInt8))}

/-- The time of the packets of a frame. -/
def timeOf (s : RtspPlay) (item : RtspPlayItem) : PlayRtpTimeline × UInt32 :=
  (s.timelineOf item).mapWallclock item.first item.now

/-- The packets of a frame, and the number to come. -/
def egress (s : RtspPlay) (item : RtspPlayItem) : List (List UInt8) × UInt16 :=
  egressRtpPackets item.store s.streamId item.frame (s.timeOf item).2
    (s.sender.rtpSeq item.frame.trackId)
    s.sender.ssrc

theorem burst_egress (s : RtspPlay) (item : RtspPlayItem) :
    Burst (s.sender.rtpSeq item.frame.trackId)
        (s.timeOf item).2 s.sender.ssrc (s.egress item).2 (s.egress item).1 :=
  burst_egressRtpPackets _ _ _ _ _ _

/-- A turn that takes a frame, which leaves the task at `s'`. -/
structure Turn (s : RtspPlay) (item : RtspPlayItem) (s' : RtspPlay) (packets : List (List UInt8)) :
    Prop where
  running : s.ended = false
  takes : s.takes item = true
  state : ∃ ended, s' = { s with
    awaitVideoIdr := s.awaitVideoIdr && !item.frame.codec.isVideo
    sender := { s.sender with
      rtpSeq := Function.update s.sender.rtpSeq item.frame.trackId (s.egress item).2 }
    timelines := Function.update s.timelines item.frame.trackId (some (s.timeOf item).1)
    ended }
  part : packets <+: (s.egress item).1
  silent : s.carries item.frame.trackId = false → packets = []
  whole : s'.ended = false → s.carries item.frame.trackId = true → packets = (s.egress item).1
  unfailing : item.fails = none → s'.ended = false

theorem sendsTo_spec (fails : Option ℕ) (packets : List (List UInt8)) :
    (sendsTo fails packets).1 <+: packets ∧
      ((sendsTo fails packets).2 = false → (sendsTo fails packets).1 = packets) ∧
      (fails = none → (sendsTo fails packets).2 = false) := by
  cases fails with
  | none => exact ⟨List.prefix_rfl, fun _ => rfl, fun _ => rfl⟩
  | some k =>
    rw [sendsTo]
    split
    · exact ⟨List.take_prefix _ _, nofun, nofun⟩
    · exact ⟨List.prefix_rfl, fun _ => rfl, nofun⟩

/-- **A turn** takes the frame, or does nothing. -/
theorem step_cases (s : RtspPlay) (item : RtspPlayItem) :
    s.step item = (s, []) ∧ (s.ended = true ∨ s.takes item = false) ∨
      ∃ s' packets, s.step item = (s', packets.map fun packet => (item.frame.trackId, packet)) ∧
        Turn s item s' packets := by
  have hkeep : (s.egress item).1.filter (· ≠ []) = (s.egress item).1 :=
    List.filter_eq_self.mpr fun packet hpacket => decide_eq_true
      (List.ne_nil_of_length_pos
        (Nat.lt_of_lt_of_le (by decide) ((burst_egress s item).header packet hpacket).1))
  rw [step]
  split
  · next hidle =>
    rw [Bool.or_eq_true, Bool.not_eq_true'] at hidle
    exact .inl ⟨rfl, hidle⟩
  · next hbusy =>
    rw [Bool.or_eq_true, Bool.not_eq_true', not_or, Bool.not_eq_true, Bool.not_eq_false] at hbusy
    obtain ⟨hpart, hwhole, hunfailing⟩ := sendsTo_spec item.fails (s.egress item).1
    refine .inr ⟨_, (if s.carries item.frame.trackId then
      sendsTo item.fails ((s.egress item).1.filter (· ≠ [])) else ([], false)).1, rfl, hbusy.1,
      hbusy.2, ⟨_, rfl⟩, ?_, ?_, ?_, ?_⟩
    · rw [hkeep]
      split
      · exact hpart
      · exact List.nil_prefix
    · intro hcarries
      rw [hcarries]
      rfl
    · intro hended hcarries
      change (if s.carries item.frame.trackId then
        sendsTo item.fails ((s.egress item).1.filter (· ≠ [])) else ([], false)).2 = false at hended
      rw [hkeep, if_pos hcarries] at hended
      rw [hkeep, if_pos hcarries]
      exact hwhole hended
    · intro hfails
      change (if s.carries item.frame.trackId then
        sendsTo item.fails ((s.egress item).1.filter (· ≠ [])) else ([], false)).2 = false
      rw [hkeep]
      split
      · exact hunfailing hfails
      · rfl

theorem fromSource_append (out out' : List (TrackId × List UInt8)) (t : TrackId) :
    fromSource (out ++ out') t = fromSource out t ++ fromSource out' t := by
  rw [fromSource, List.filter_append, List.map_append, fromSource, fromSource]

theorem fromSource_map (track : TrackId) (packets : List (List UInt8)) (t : TrackId) :
    fromSource (packets.map fun packet => (track, packet)) t = if track = t then packets
        else [] := by
  rw [fromSource, List.filter_map, List.map_map]
  split
  · next h => simp [Function.comp_def, h]
  · next h => simp [Function.comp_def, h]

theorem sent_concat (s : RtspPlay) (items : List RtspPlayItem) (item : RtspPlayItem) :
    s.sent (items ++ [item]) = s.sent items ++ ((final step s items).step item).2 := by
  rw [sent, trace_append, List.flatten_append, trace_cons, trace_nil, List.flatten_singleton, sent]

theorem turns_concat (s : RtspPlay) (items : List RtspPlayItem) (item : RtspPlayItem) :
    s.turns (items ++ [item]) = s.turns items ++ [(item, ((final step s items).step item).2)] := by
  rw [turns, trace_append, List.zip_append (by rw [length_trace]), turns]
  rfl

/-- What is sent is what the turns send. -/
theorem flatMap_turns (s : RtspPlay) (items : List RtspPlayItem) :
    (s.turns items).flatMap Prod.snd = s.sent items := by
  induction items using List.reverseRecOn with
  | nil => rfl
  | append_singleton items item ih =>
    rw [turns_concat, List.flatMap_append, ih, sent_concat]
    exact congrArg _ (List.append_nil _)

/-- The turns come one after the other. -/
theorem pairwise_turns (hclock : items.Pairwise fun a b => a.now ≤ b.now) (s : RtspPlay) :
    (s.turns items).Pairwise fun a b => a.1.now ≤ b.1.now := by
  have hmap : ((s.turns items).map Prod.fst).Pairwise fun a b => a.now ≤ b.now := by
    rw [turns, List.map_fst_zip (by rw [length_trace])]
    exact hclock
  rw [List.pairwise_map] at hmap
  exact hmap

/-! ## Tracks -/

theorem readings_append (timeline : PlayRtpTimeline) (t : TrackId)
    (past new : List (RtspPlayItem × List (TrackId × List UInt8))) :
    readings timeline t (past ++ new) = readings timeline t past ++ readings timeline t new :=
      List.flatMap_append

/-- There is a reading for each packet. -/
theorem length_readings (timeline : PlayRtpTimeline) (t : TrackId)
    (past : List (RtspPlayItem × List (TrackId × List UInt8))) :
    (readings timeline t past).length = (fromSource (past.flatMap Prod.snd) t).length := by
  induction past with
  | nil => rfl
  | cons turn past ih =>
    rw [readings, List.flatMap_cons, List.length_append, List.length_map, List.flatMap_cons,
      fromSource_append, List.length_append, ← ih]
    rfl

theorem readings_singleton (timeline : PlayRtpTimeline) (t : TrackId) (item : RtspPlayItem)
    (out : List (TrackId × List UInt8)) :
    readings timeline t [(item, out)] =
        List.replicate (fromSource out t).length (timeline.reading item.now) := by
  rw [readings, List.flatMap_singleton, List.map_const']

/-- **A clock reads on**, from turn to turn. -/
theorem pairwise_readings (timeline : PlayRtpTimeline) (t : TrackId)
    (hclock : past.Pairwise fun a b => a.1.now ≤ b.1.now) :
    (readings timeline t past).Pairwise (· ≤ ·) := by
  induction past with
  | nil => exact .nil
  | cons turn past ih =>
    obtain ⟨hfirst, hpast⟩ := List.pairwise_cons.mp hclock
    have hturn : readings timeline t (turn :: past) =
        readings timeline t [turn] ++ readings timeline t past :=
      readings_append timeline t [turn] past
    rw [hturn, readings_singleton]
    refine List.pairwise_append.mpr ⟨List.pairwise_replicate.mpr (.inr (Nat.le_refl _)), ih hpast,
      ?_⟩
    intro v hv v' hv'
    obtain ⟨turn', hmem, hv'⟩ := List.mem_flatMap.mp hv'
    obtain ⟨-, -, rfl⟩ := List.mem_map.mp hv'
    rw [(List.mem_replicate.mp hv).2]
    exact timeline.reading_mono (hfirst turn' hmem)

/-- What turns have sent on a track: packets of one source, numbered on from zero, at what its clock
reads. -/
structure OnTrack (s : RtspPlay) (t : TrackId)
    (past : List (RtspPlayItem × List (TrackId × List UInt8))) : Prop where
  seqs : (fromSource (past.flatMap Prod.snd) t).map seqOf =
    seqsFrom 0 (fromSource (past.flatMap Prod.snd) t).length
  source : ∀ packet ∈ fromSource (past.flatMap Prod.snd) t, ssrcOf packet = s.sender.ssrc
  next : s.ended = false → s.carries t = true →
    s.sender.rtpSeq t = UInt16.ofNat (fromSource (past.flatMap Prod.snd) t).length
  silent : s.carries t = false → fromSource (past.flatMap Prod.snd) t = []
  /-- There is no packet before there is a clock. -/
  fresh : s.timelines t = none → fromSource (past.flatMap Prod.snd) t = []
  times : ∀ timeline, s.timelines t = some timeline → timeline.wallAnchor.isSome ∧
    (fromSource (past.flatMap Prod.snd) t).map tsOf = (readings timeline t past).map UInt32.ofNat

/-- A turn that sends nothing on the track, and leaves what is the track's. -/
theorem OnTrack.quiet (h : OnTrack s t past) {out : List (TrackId × List UInt8)}
    (hout : fromSource out t = []) (item : RtspPlayItem) : OnTrack s t (past ++ [(item, out)]) := by
  have hsent : fromSource ((past ++ [(item, out)]).flatMap Prod.snd) t =
      fromSource (past.flatMap Prod.snd) t := by
    rw [List.flatMap_append, List.flatMap_singleton, fromSource_append, hout, List.append_nil]
  refine ⟨hsent ▸ h.seqs, hsent ▸ h.source, hsent ▸ h.next, hsent ▸ h.silent, hsent ▸ h.fresh,
    fun timeline hclock => ?_⟩
  have hread : readings timeline t (past ++ [(item, out)]) = readings timeline t past := by
    rw [readings_append, readings_singleton, hout]
    exact List.append_nil _
  rw [hsent, hread]
  exact h.times timeline hclock

/-- A frame of another track. -/
theorem OnTrack.turn_ne (h : OnTrack s t past) (hturn : Turn s item s' packets)
    (hne : item.frame.trackId ≠ t) :
    OnTrack s' t past := by
  obtain ⟨ended, rfl⟩ := hturn.state
  have hother : ∀ {α : Type} (f : TrackId → α) (v : α),
      Function.update f item.frame.trackId v t = f t := fun f v =>
    Function.update_of_ne (Ne.symm hne) v f
  refine ⟨h.seqs, h.source, fun hended hcarries => ?_, h.silent, fun hnone => ?_,
    fun timeline hclock => ?_⟩
  · dsimp only
    rw [hother]
    exact h.next hturn.running hcarries
  · dsimp only at hnone
    rw [hother] at hnone
    exact h.fresh hnone
  · dsimp only at hclock
    rw [hother] at hclock
    exact h.times timeline hclock

/-- The clock of a track, once a frame of it is taken: the packets so far were read off it. -/
theorem OnTrack.times_turn (h : OnTrack s t past) (heq : item.frame.trackId = t) :
    (s.timeOf item).1.wallAnchor.isSome ∧
      (fromSource (past.flatMap Prod.snd) t).map tsOf =
          (readings (s.timeOf item).1 t past).map UInt32.ofNat := by
  refine ⟨rfl, ?_⟩
  cases hclock : s.timelines t with
  | none =>
    have hnil := h.fresh hclock
    have hlen := length_readings (s.timeOf item).1 t past
    rw [hnil, List.length_nil] at hlen
    rw [hnil, List.length_eq_zero_iff.mp hlen]
    rfl
  | some timeline =>
    obtain ⟨hanchor, htimes⟩ := h.times timeline hclock
    obtain ⟨anchor, hanchor⟩ := Option.isSome_iff_exists.mp hanchor
    have hsame : (s.timeOf item).1 = timeline := by
      rw [timeOf, timelineOf, heq, hclock, Option.getD_some]
      exact PlayRtpTimeline.mapWallclock_fst hanchor _ _
    rw [hsame]
    exact htimes

/-- A frame of the track. -/
theorem OnTrack.turn (h : OnTrack s t past) (hturn : Turn s item s' packets)
    (heq : item.frame.trackId = t) (hnow : item.now < 2 ^ 64 * 1000) :
    OnTrack s' t (past ++ [(item, packets.map fun packet => (item.frame.trackId, packet))]) := by
  have hburst := burst_egress s item
  have hheader : ∀ packet ∈ packets,
      tsOf packet = (s.timeOf item).2 ∧ ssrcOf packet = s.sender.ssrc :=
    fun packet hpacket => (hburst.header packet (hturn.part.subset hpacket)).2
  obtain ⟨ended, hstate⟩ := hturn.state
  rw [heq] at hburst hstate
  have hmine : fromSource (packets.map fun packet => (item.frame.trackId, packet)) t = packets := by
    rw [fromSource_map, if_pos heq]
  have hsent :
    fromSource
    ((past ++ [(item, packets.map fun packet => (item.frame.trackId, packet))]).flatMap Prod.snd)
      t = fromSource (past.flatMap Prod.snd) t ++ packets := by
    rw [List.flatMap_append, List.flatMap_singleton, fromSource_append, hmine]
  refine ⟨?_, ?_, ?_, ?_, ?_, ?_⟩
  · rw [hsent, List.map_append, h.seqs, List.length_append, seqsFrom_add,
      hburst.seqs_of_prefix hturn.part]
    cases hcarries : s.carries t with
    | false =>
      rw [hturn.silent (heq ▸ hcarries)]
      rfl
    | true => rw [h.next hturn.running hcarries, UInt16.zero_add]
  · rw [hsent, hstate]
    exact List.forall_mem_append.mpr ⟨h.source, fun packet hpacket => (hheader packet hpacket).2⟩
  · intro hended hcarries
    have hcarries' : s.carries t = true := by rw [hstate] at hcarries; exact hcarries
    rw [hsent, hstate, hturn.whole hended (heq ▸ hcarries'), List.length_append, UInt16.ofNat_add,
      ← h.next hturn.running hcarries']
    dsimp only
    rw [Function.update_self, hburst.next]
  · intro hcarries
    rw [hstate] at hcarries
    rw [hsent, h.silent hcarries, hturn.silent (heq ▸ hcarries)]
    rfl
  · intro hnone
    rw [hstate] at hnone
    dsimp only at hnone
    rw [Function.update_self] at hnone
    cases hnone
  · intro timeline hclock
    rw [hstate] at hclock
    dsimp only at hclock
    rw [Function.update_self] at hclock
    obtain rfl := Option.some.inj hclock
    obtain ⟨hanchor, htimes⟩ := h.times_turn heq
    have htime : (s.timeOf item).2 = UInt32.ofNat ((s.timeOf item).1.reading item.now) :=
      PlayRtpTimeline.mapWallclock_snd _ _ hnow
    have hnew : packets.map tsOf = List.replicate packets.length (s.timeOf item).2 := by
      rw [List.eq_replicate_iff]
      exact ⟨List.length_map _, List.forall_mem_map.mpr fun packet hpacket =>
        (hheader packet hpacket).1⟩
    refine ⟨hanchor, ?_⟩
    rw [hsent, List.map_append, htimes, hnew, readings_append, readings_singleton, hmine,
      List.map_append, List.map_replicate, htime]

/-- Along every run. -/
theorem onTrack_run (h₀ : OnTrack s t []) (hnow : ∀ item ∈ items, item.now < 2 ^ 64 * 1000) :
    OnTrack (final step s items) t (s.turns items) := by
  induction items using List.reverseRecOn with
  | nil => exact h₀
  | append_singleton items item ih =>
    obtain ⟨hnow, hitem⟩ := List.forall_mem_append.mp hnow
    have h := ih hnow
    rw [final_append, final_cons, final_nil, turns_concat]
    rcases step_cases (final step s items) item with ⟨hstep, -⟩ | ⟨s', packets, hstep, hturn⟩
    · rw [hstep]
      exact h.quiet rfl item
    · rw [hstep]
      by_cases heq : item.frame.trackId = t
      · exact h.turn hturn heq (hitem item (List.mem_singleton_self _))
      · refine (h.turn_ne hturn heq).quiet ?_ item
        rw [fromSource_map, if_neg heq]

theorem ssrc_final (s : RtspPlay) (items : List RtspPlayItem) :
    (final step s items).sender.ssrc = s.sender.ssrc := by
  refine final_inv (I := fun s' : RtspPlay => s'.sender.ssrc = s.sender.ssrc)
    (fun s' item h => ?_) rfl items
  rcases step_cases s' item with ⟨hstep, -⟩ | ⟨s'', packets, hstep, hturn⟩
  · rw [hstep]
    exact h
  · obtain ⟨ended, hstate⟩ := hturn.state
    rw [hstep, hstate]
    exact h

/-- The times of the packets of a run are what the clock of their track reads. -/
theorem OnTrack.map_tsOf (h : OnTrack (final step s items) t (s.turns items)) :
    (fromSource (s.sent items) t).map tsOf = (s.ticksOf items t).map UInt32.ofNat := by
  rw [← flatMap_turns, ticksOf]
  cases hclock : (final step s items).timelines t with
  | none =>
    rw [h.fresh hclock]
    rfl
  | some timeline => exact (h.times timeline hclock).2

theorem pairwise_ticksOf (hclock : items.Pairwise fun a b => a.now ≤ b.now) (s : RtspPlay)
    (t : TrackId) :
    (s.ticksOf items t).Pairwise (· ≤ ·) := by
  rw [ticksOf]
  split
  · exact pairwise_readings _ t (pairwise_turns hclock s)
  · exact .nil

/-- **The packets of a track**, along every run: they are of one source and numbered on from zero,
and each of them has the time that the clock of the track reads when its frame is handled. These
readings rise if the clock of the wall does. -/
theorem track_run (streamId : StreamId) (session : RtspSession) (ssrc : UInt32)
    (udpTracks : TrackId → Bool) (pending : Option RtspPlayItem) (items : List RtspPlayItem)
    (hnow : ∀ item ∈ taken pending items, item.now < 2 ^ 64 * 1000) (t : TrackId) :
    (fromSource ((start streamId session ssrc udpTracks pending).sent
        (taken pending items)) t).map tsOf =
        ((start streamId session ssrc udpTracks pending).ticksOf
          (taken pending items) t).map UInt32.ofNat ∧
      ((taken pending items).Pairwise (fun a b => a.now ≤ b.now) →
        ((start streamId session ssrc udpTracks pending).ticksOf
          (taken pending items) t).Pairwise (· ≤ ·)) ∧
      (fromSource ((start streamId session ssrc udpTracks pending).sent
        (taken pending items)) t).map seqOf =
        (List.range ((start streamId session ssrc udpTracks pending).ticksOf
          (taken pending items) t).length).map UInt16.ofNat ∧
      ∀ packet ∈ fromSource ((start streamId session ssrc udpTracks pending).sent
        (taken pending items)) t, ssrcOf packet = ssrc := by
  have h₀ : OnTrack (start streamId session ssrc udpTracks pending) t [] :=
    ⟨rfl, nofun, fun _ _ => rfl, fun _ => rfl, fun _ => rfl, nofun⟩
  have h := onTrack_run h₀ hnow
  have htimes := h.map_tsOf
  have hlen := congrArg List.length htimes
  rw [List.length_map, List.length_map] at hlen
  refine ⟨htimes, fun hclock => pairwise_ticksOf hclock _ t, ?_, fun packet hpacket => ?_⟩
  · have hseqs := h.seqs
    rw [flatMap_turns] at hseqs
    rw [hseqs, hlen, seqsFrom]
    exact List.map_congr_left fun k _ => UInt16.zero_add _
  · rw [← flatMap_turns] at hpacket
    exact (h.source packet hpacket).trans (ssrc_final _ _)

/-- A key frame to start from. -/
def keyItem : RtspPlayItem :=
  { frame := MediaFrame.new "cam" 0 0 [0x00, 0x00, 0x00, 0x01, 0x65] true .h264, store := .new,
    first := 0, now := 0, fails := none }

/-- Two frames of audio behind it. -/
def audioItems : List RtspPlayItem :=
  [{ frame := MediaFrame.new "cam" 1 0 [0x21, 0x10, 0x04, 0x60] false .aac, store := .new,
     first := 3000000, now := 3000000, fails := none },
   { frame := MediaFrame.new "cam" 1 0 [0x21, 0x10, 0x04, 0x61] false .aac, store := .new,
     first := 0, now := 26000000, fails := none }]

theorem track_run_audio :
    (∀ item ∈ taken (some keyItem) audioItems, item.now < 2 ^ 64 * 1000) ∧
    (start "cam" .new 7 (fun _ => false) (some keyItem)).ticksOf
      (taken (some keyItem) audioItems) 1 = [0, 1014] ∧
    (fromSource ((start "cam" .new 7 (fun _ => false) (some keyItem)).sent
      (taken (some keyItem) audioItems)) 1).map tsOf =
      ((start "cam" .new 7 (fun _ => false) (some keyItem)).ticksOf
        (taken (some keyItem) audioItems) 1).map UInt32.ofNat ∧
    ((taken (some keyItem) audioItems).Pairwise (fun a b => a.now ≤ b.now) →
      ((start "cam" .new 7 (fun _ => false) (some keyItem)).ticksOf
        (taken (some keyItem) audioItems) 1).Pairwise (· ≤ ·)) ∧
    (fromSource ((start "cam" .new 7 (fun _ => false) (some keyItem)).sent
      (taken (some keyItem) audioItems)) 1).map seqOf =
      (List.range ((start "cam" .new 7 (fun _ => false) (some keyItem)).ticksOf
        (taken (some keyItem) audioItems) 1).length).map UInt16.ofNat ∧
    ∀ packet ∈ fromSource ((start "cam" .new 7 (fun _ => false) (some keyItem)).sent
      (taken (some keyItem) audioItems)) 1, ssrcOf packet = 7 := by
  have hnow : ∀ item ∈ taken (some keyItem) audioItems, item.now < 2 ^ 64 * 1000 := by decide
  exact ⟨hnow, by decide, track_run "cam" .new 7 (fun _ => false) (some keyItem) audioItems hnow 1⟩

end RtspPlay

end VcpMediaServer
