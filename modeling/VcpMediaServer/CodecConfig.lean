import VcpMediaServer.H264Collect

/-!
# Codec configuration

`store_nalu_config_from_rtp` looks at the NAL units that are whole in a packet. An SPS and a PPS of
one packet **replace** what is stored; a parameter set that comes without the other **only fills a
gap**.

* `CodecConfig.next` — what a payload does to the parameter sets of the stream.
* `configOf` — the stored configuration, read off all payloads since the last reset: the last pair,
  or before any pair the first set of each kind.
* `StreamIngest` — a stream with its ingest, step by step.
* `StreamIngest.configured` — in every run, that is what is stored.
-/

namespace VcpMediaServer

open Lts StreamManager

/-- The SPS and the PPS that are stored for a stream. -/
abbrev CodecConfig := Option (List UInt8) × Option (List UInt8)

/-- The parameter sets of a stream, if it has a hub. -/
def StreamManager.codecConfig (m : StreamManager) (s : StreamId) : Option CodecConfig :=
  (m.getHub s).map fun h => (h.stream.sps, h.stream.pps)

/-- The units of one type, oldest first. -/
def unitsOf (t : UInt8) (nalus : List ParsedNalu) : List (List UInt8) :=
  (nalus.filter fun n => n.nalType == t).map ParsedNalu.data

@[simp] theorem unitsOf_nil (t : UInt8) : unitsOf t [] = [] := rfl

@[simp] theorem unitsOf_append (t : UInt8) (nalus nalus' : List ParsedNalu) :
    unitsOf t (nalus ++ nalus') = unitsOf t nalus ++ unitsOf t nalus' := by
  simp [unitsOf]

theorem unitsOf_cons (t : UInt8) (n : ParsedNalu) (nalus : List ParsedNalu) :
    unitsOf t (n :: nalus) = (if n.nalType = t then [n.data] else []) ++ unitsOf t nalus := by
  by_cases h : n.nalType = t <;> simp [unitsOf, h]

theorem extractSpsPpsFromNalus_eq (nalus : List ParsedNalu) :
    extractSpsPpsFromNalus nalus = ((unitsOf 7 nalus).getLast?, (unitsOf 8 nalus).getLast?) := by
  simp [extractSpsPpsFromNalus, unitsOf, List.getLast?_map]

/-- The parameter sets of a payload that has **both**, the last of each. -/
def completePair (payload : List UInt8) : Option (List UInt8 × List UInt8) :=
  match extractSpsPpsFromNalus (parseRtpH264 payload) with
  | (some sps, some pps) => some (sps, pps)
  | _ => none

theorem completePair_eq_some {payload sps pps : List UInt8} :
    completePair payload = some (sps, pps) ↔
      (unitsOf 7 (parseRtpH264 payload)).getLast? = some sps ∧
        (unitsOf 8 (parseRtpH264 payload)).getLast? = some pps := by
  rw [completePair, extractSpsPpsFromNalus_eq]
  split
  · next h =>
    obtain ⟨h7, h8⟩ := Prod.mk.inj h
    rw [h7, h8]
    simp
  · next h =>
    simp only [reduceCtorEq, false_iff, not_and]
    intro h7 h8
    exact h sps pps (Prod.ext h7 h8)

namespace CodecConfig

/-- The first units fill what is missing. -/
def fill (c : CodecConfig) (nalus : List ParsedNalu) : CodecConfig :=
  (c.1.or (unitsOf 7 nalus).head?, c.2.or (unitsOf 8 nalus).head?)

/-- What a payload does to the configuration. -/
def next (c : CodecConfig) (payload : List UInt8) : CodecConfig :=
  match completePair payload with
  | some (sps, pps) => (some sps, some pps)
  | none => c.fill (parseRtpH264 payload)

@[simp] theorem next_nil (c : CodecConfig) : c.next [] = c := by
  rcases c with ⟨sps, pps⟩
  simp [next, completePair, parseRtpH264, extractSpsPpsFromNalus, fill]

/-- A complete configuration has no gap to be filled. -/
theorem fill_complete {c : CodecConfig} (hsps : c.1.isSome) (hpps : c.2.isSome)
    (nalus : List ParsedNalu) : c.fill nalus = c := by
  obtain ⟨sps, hsps⟩ := Option.isSome_iff_exists.mp hsps
  obtain ⟨pps, hpps⟩ := Option.isSome_iff_exists.mp hpps
  exact Prod.ext (by simp [fill, hsps]) (by simp [fill, hpps])

/-- Units fill gaps one by one. -/
theorem fill_cons (c : CodecConfig) (n : ParsedNalu) (nalus : List ParsedNalu) :
    c.fill (n :: nalus) = (c.fill [n]).fill nalus := by
  simp [fill, unitsOf_cons, Option.or_assoc]

end CodecConfig

/-! ## One packet -/

section

variable {m m' : StreamManager} {s : StreamId}

theorem codecConfig_updateStream (m : StreamManager) (s : StreamId) (g : Stream → Stream) :
    (m.updateHub s fun h => h.updateStream g).codecConfig s =
      (m.getHub s).map fun h => ((g h.stream).sps, (g h.stream).pps) := by
  rw [codecConfig, getHub_updateHub_self, Option.map_map]
  rfl

theorem codecConfig_setStreamSpsPps (m : StreamManager) (s : StreamId) (sps pps : List UInt8) :
    (m.setStreamSpsPps s sps pps).codecConfig s =
      (m.codecConfig s).map fun _ => (some sps, some pps) := by
  rw [setStreamSpsPps, codecConfig_updateStream, codecConfig, Option.map_map]
  rfl

/-- A unit fills the gap of its kind. -/
theorem codecConfig_mergeStreamNaluConfig (m : StreamManager) (s : StreamId) {n : ParsedNalu}
    (htype : n.nalType = firstNalType n.data) (hset : n.nalType = 7 ∨ n.nalType = 8) :
    (m.mergeStreamNaluConfig s n.data).codecConfig s = (m.codecConfig s).map fun c =>
        c.fill [n] := by
  obtain ⟨t, _ | ⟨b, rest⟩⟩ := n
  · -- an empty unit has type 0
    obtain rfl : t = 0 := htype.trans (show firstNalType [] = 0 by decide)
    simp at hset
  · obtain rfl : t = nalType b := htype
    dsimp only at hset ⊢
    rw [mergeStreamNaluConfig, if_neg (by tauto), codecConfig_updateStream, codecConfig,
      Option.map_map]
    congr 1
    funext h
    rcases hset with hset | hset
    · cases hsps : h.stream.sps <;>
        simp [hset, hsps, CodecConfig.fill, unitsOf]
    · cases hpps : h.stream.pps <;>
        simp [hset, hpps, CodecConfig.fill, unitsOf]

theorem codecConfig_mergeNalus (m : StreamManager) (s : StreamId) {nalus : List ParsedNalu}
    (htype : ∀ n ∈ nalus, n.nalType = firstNalType n.data) :
    (mergeNalus m s nalus).codecConfig s = (m.codecConfig s).map fun c => c.fill nalus := by
  induction nalus generalizing m with
  | nil => simp [mergeNalus, CodecConfig.fill]
  | cons n nalus ih =>
    have hrest := ih (if n.nalType = 7 ∨ n.nalType = 8 then m.mergeStreamNaluConfig s n.data else m)
      fun n' hn' => htype n' (List.mem_cons_of_mem _ hn')
    rw [mergeNalus, List.foldl_cons]
    refine hrest.trans ?_
    split
    · next hset =>
      rw [codecConfig_mergeStreamNaluConfig m s (htype n List.mem_cons_self) hset, Option.map_map]
      congr 1
      funext c
      exact (c.fill_cons n nalus).symm
    · next hset =>
      -- no parameter set
      have hskip : ∀ c : CodecConfig, c.fill [n] = c := by
        rintro ⟨sps, pps⟩
        simp_all [CodecConfig.fill, unitsOf]
      congr 1
      funext c
      rw [c.fill_cons, hskip]

/-- A unit of a payload has the type of its first byte. -/
theorem nalType_of_mem_stapALoop {fuel : ℕ} {rest : List UInt8} {nalus : List ParsedNalu}
    (h : stapALoop fuel rest = .ok nalus) : ∀ n ∈ nalus, n.nalType = firstNalType n.data := by
  induction fuel generalizing rest nalus with
  | zero =>
    cases h
    simp
  | succ fuel ih =>
    simp only [stapALoop] at h
    split at h
    · cases h
      simp
    · split at h
      · cases h
      · cases htail : stapALoop fuel ((rest.drop 2).drop (beNat (rest.take 2))) with
        | error e =>
          rw [htail] at h
          cases h
        | ok tail =>
          rw [htail] at h
          cases h
          intro n hn
          rcases List.mem_cons.mp hn with rfl | hn
          · rfl
          · exact ih htail n hn

theorem nalType_of_mem_parseRtpH264 {payload : List UInt8} :
    ∀ n ∈ parseRtpH264 payload, n.nalType = firstNalType n.data := by
  intro n hn
  simp only [parseRtpH264] at hn
  split at hn
  · cases hn
  split at hn
  · rw [List.mem_singleton.mp hn]
  split at hn
  · rw [parseStapA] at hn
    split at hn
    · next nalus hnalus => exact nalType_of_mem_stapALoop hnalus n hn
    · cases hn
  · cases hn

/-- What a payload does to the configuration that is stored. -/
theorem codecConfig_storeNaluConfigFromRtp (m : StreamManager) (s : StreamId)
    (payload : List UInt8) :
    (storeNaluConfigFromRtp m s payload).codecConfig s = (m.codecConfig s).map fun c =>
        c.next payload := by
  simp only [storeNaluConfigFromRtp]
  split
  · next sps pps hpair =>
    rw [codecConfig_setStreamSpsPps]
    simp [CodecConfig.next, completePair, hpair]
  · next hpair =>
    have hnone : completePair payload = none := by
      rw [completePair]
      split
      · next sps pps h => exact absurd h (hpair sps pps)
      · rfl
    simp only [CodecConfig.next, hnone]
    split
    · next hfull =>
      -- what is complete is left alone, and filling would change nothing
      rw [codecConfig]
      rcases hhub : m.getHub s with _ | h
      · rfl
      · simp only [getStream, hhub, Option.map_some, Option.any_some, Bool.and_eq_true] at hfull
        rw [Option.map_some, Option.map_some, CodecConfig.fill_complete hfull.1 hfull.2]
    · exact codecConfig_mergeNalus m s nalType_of_mem_parseRtpH264

/-- A frame leaves the configuration alone. -/
theorem codecConfig_publishFrame {f : MediaFrame} (h : m.publishFrame f = some m') :
    m'.codecConfig s = m.codecConfig s := by
  rcases publishFrame_eq_some.mp h with ⟨-, rfl⟩ | ⟨hub, hub', hhub, hpub, rfl⟩
  · rfl
  · obtain ⟨ring, -, rfl⟩ := StreamHub.publish_eq_some.mp hpub
    rw [codecConfig, getHub_updateHub, codecConfig]
    split
    · next hs =>
      rw [hs, hhub]
      rfl
    · rfl

theorem codecConfig_exec_publishFrame {frames : List MediaFrame}
    (h : exec StreamManager.publishFrame m frames = some m') : m'.codecConfig s = m.codecConfig s :=
  exec_inv' (I := fun r => r.codecConfig s = m.codecConfig s)
    (fun _ _ _ hi hstep => (codecConfig_publishFrame hstep).trans hi) rfl h

end

/-! ## All packets since the reset -/

/-- The configuration that payloads leave: the last pair, or where there is none the **first** unit
of each kind. -/
def configOf (payloads : List (List UInt8)) : CodecConfig :=
  match (payloads.filterMap completePair).getLast? with
  | some (sps, pps) => (some sps, some pps)
  | none =>
    ((unitsOf 7 (payloads.flatMap parseRtpH264)).head?,
      (unitsOf 8 (payloads.flatMap parseRtpH264)).head?)

/-- The configuration that they should leave: the **last** unit of each kind. -/
def latestConfig (payloads : List (List UInt8)) : CodecConfig :=
  ((unitsOf 7 (payloads.flatMap parseRtpH264)).getLast?,
    (unitsOf 8 (payloads.flatMap parseRtpH264)).getLast?)

/-- One payload more. -/
theorem configOf_concat (payloads : List (List UInt8)) (payload : List UInt8) :
    configOf (payloads ++ [payload]) = (configOf payloads).next payload := by
  rw [configOf, CodecConfig.next, List.filterMap_append]
  cases hpair : completePair payload with
  | some pair => simp [hpair]
  | none =>
    simp only [List.filterMap_cons, hpair, List.filterMap_nil, List.append_nil, configOf]
    split
    · exact (CodecConfig.fill_complete rfl rfl _).symm
    · simp [CodecConfig.fill]

theorem configOf_append (payloads payloads' : List (List UInt8)) :
    configOf (payloads ++ payloads') = payloads'.foldl CodecConfig.next (configOf payloads) := by
  induction payloads' generalizing payloads with
  | nil => simp
  | cons p payloads' ih =>
    rw [List.foldl_cons, ← configOf_concat, ← ih, List.append_assoc]
    rfl

/-- A payload that has no parameter set, or one of each kind. -/
def Paired (payload : List UInt8) : Prop :=
  (completePair payload).isSome ∨
    unitsOf 7 (parseRtpH264 payload) = [] ∧ unitsOf 8 (parseRtpH264 payload) = []

/-- Where parameter sets come **in pairs**, the last of each kind is left. -/
theorem configOf_eq_latestConfig {payloads : List (List UInt8)} (h : ∀ p ∈ payloads, Paired p) :
    configOf payloads = latestConfig payloads := by
  induction payloads using List.reverseRecOn with
  | nil => rfl
  | append_singleton payloads p ih =>
    rw [configOf_concat, ih fun q hq => h q (List.mem_append_left _ hq), CodecConfig.next]
    rcases h p (List.mem_append_right _ (List.mem_singleton_self p)) with hpair | ⟨h7, h8⟩
    · obtain ⟨⟨sps, pps⟩, hpair⟩ := Option.isSome_iff_exists.mp hpair
      obtain ⟨h7, h8⟩ := completePair_eq_some.mp hpair
      simp [hpair, latestConfig, h7, h8]
    · have hnone : completePair p = none := by simp [completePair, extractSpsPpsFromNalus_eq, h7]
      simp [hnone, latestConfig, CodecConfig.fill, h7, h8]

/-! ## Runs -/

/-- A stream with its ingest. -/
structure StreamIngest where
  /-- The manager. -/
  manager : StreamManager
  /-- The ingest of the stream. -/
  ingest : H264RtpIngest
  /-- The payloads that were accepted since the last media reset, oldest first. -/
  accepted : List (List UInt8)

/-- What happens to the stream. -/
inductive IngestStep where
  /-- A packet comes in. -/
  | packet (rtp : List UInt8)
  /-- `reset_stream_media`. -/
  | reset
  /-- Another ingest is made for the stream. -/
  | renew
  deriving DecidableEq, Repr

/-- The payload of a packet, if the ingest accepts it. -/
def H264RtpIngest.acceptedPayload (ing : H264RtpIngest) (rtp : List UInt8) : List (List UInt8) :=
  match rtpH264PacketInfo rtp with
  | none => []
  | some info => if (ing.acceptSequence info.sequenceNumber info.payload).2 then [info.payload]
    else []

/-- A packet without CSRCs and extension. -/
def testRtp (seq : UInt8) (payload : List UInt8) : List UInt8 :=
  [0x80, 96, 0, seq, 0, 0, 0, 0, 0, 0, 0, 1] ++ payload

namespace StreamIngest

/-- A stream that has just been made, or reset, with a new ingest. -/
def start (m : StreamManager) (s : StreamId) (source : StreamSourceMode) (protocol : StreamProtocol)
    (pullUrl : Option String) : StreamIngest :=
  ⟨(m.createStream s source protocol pullUrl).1.resetStreamMedia s, .new s, []⟩

/-- One step. A packet leads nowhere if its push never returns. -/
def step (s : StreamIngest) : IngestStep → Option StreamIngest
  | .packet rtp => (s.ingest.ingestRtpPacket s.manager rtp).map fun r =>
      ⟨r.1, r.2.1, s.accepted ++ s.ingest.acceptedPayload rtp⟩
  | .reset => some
      { s with manager := s.manager.resetStreamMedia s.ingest.streamId, accepted := [] }
  | .renew => some { s with ingest := .new s.ingest.streamId }

/-- What is stored is what the payloads lead to. -/
def Configured (s : StreamIngest) : Prop :=
  s.manager.codecConfig s.ingest.streamId = some (configOf s.accepted)

/-- What is stored is the last unit of each kind. -/
def Current (s : StreamIngest) : Prop :=
  s.manager.codecConfig s.ingest.streamId = some (latestConfig s.accepted)

instance (s : StreamIngest) : Decidable s.Current :=
  inferInstanceAs
    (Decidable (s.manager.codecConfig s.ingest.streamId = some (latestConfig s.accepted)))

variable {s s' : StreamIngest}

theorem codecConfig_resetStreamMedia (m : StreamManager) (s : StreamId) :
    (m.resetStreamMedia s).codecConfig s = (m.codecConfig s).map fun _ => (none, none) := by
  rw [codecConfig, getHub_resetStreamMedia, if_pos rfl, codecConfig, Option.map_map, Option.map_map]
  rfl

theorem codecConfig_stored (m : StreamManager) (ing : H264RtpIngest) (rtp : List UInt8) :
    (ing.stored m rtp).codecConfig ing.streamId =
      (m.codecConfig ing.streamId).map fun c =>
          (ing.acceptedPayload rtp).foldl CodecConfig.next c := by
  rw [H264RtpIngest.stored, H264RtpIngest.acceptedPayload]
  cases rtpH264PacketInfo rtp with
  | none => simp
  | some info =>
    dsimp only
    by_cases haccept : (ing.acceptSequence info.sequenceNumber info.payload).2 = true
    · rw [if_pos haccept]
      by_cases hnil : info.payload = []
      · simp [hnil]
      · simp [haccept, hnil, codecConfig_storeNaluConfigFromRtp]
    · simp [haccept]

/-- A step keeps it: one payload more is one step of the configuration. -/
theorem Configured.step (h : s.Configured) {l : IngestStep} (hstep : s.step l = some s') :
    s'.Configured := by
  cases l with
  | packet rtp =>
    obtain ⟨⟨m, ing, b⟩, hpacket, rfl⟩ := Option.map_eq_some_iff.mp hstep
    have hid := (H264RtpIngest.onlyAt_ingestRtpPacket hpacket).2
    rw [H264RtpIngest.ingestRtpPacket_eq] at hpacket
    obtain ⟨m', hpublish, heq⟩ := Option.map_eq_some_iff.mp hpacket
    cases heq
    rw [Configured] at h ⊢
    dsimp only
    rw [hid, codecConfig_exec_publishFrame hpublish, codecConfig_stored, h, Option.map_some,
      configOf_append]
  | reset =>
    obtain rfl := Option.some.inj hstep
    rw [Configured] at h ⊢
    exact (codecConfig_resetStreamMedia s.manager s.ingest.streamId).trans (by rw [h]; rfl)
  | renew =>
    obtain rfl := Option.some.inj hstep
    exact h

/-- A stream that has been made is there. -/
theorem isSome_getHub_createStream (m : StreamManager) (s : StreamId) (source : StreamSourceMode)
    (protocol : StreamProtocol) (pullUrl : Option String) :
    ((m.createStream s source protocol pullUrl).1.getHub s).isSome := by
  rw [createStream]
  split
  · next hub hhub => simp [hhub]
  · exact Option.isSome_iff_exists.mpr ⟨_, AList.lookup_insert _⟩

theorem Configured.start (m : StreamManager) (s : StreamId) (source : StreamSourceMode)
    (protocol : StreamProtocol) (pullUrl : Option String) :
    (start m s source protocol pullUrl).Configured := by
  obtain ⟨hub, hhub⟩ :=
    Option.isSome_iff_exists.mp (isSome_getHub_createStream m s source protocol pullUrl)
  change ((m.createStream s source protocol pullUrl).1.resetStreamMedia s).codecConfig s = _
  rw [codecConfig_resetStreamMedia, codecConfig, hhub]
  rfl

/-- In every run the stored configuration is, after each packet, **the last pair** that came in one
packet since the reset, or before any pair the first unit of each kind; where all came in pairs, it
is the last unit of each kind. -/
theorem configured (m : StreamManager) (s : StreamId) (source : StreamSourceMode)
    (protocol : StreamProtocol) (pullUrl : Option String) (ls : List IngestStep) :
    Always StreamIngest.step
      (fun t l => ∀ t', t.step l = some t' →
        t'.Configured ∧ ((∀ p ∈ t'.accepted, Paired p) → t'.Current))
      (start m s source protocol pullUrl) ls := by
  refine always_of_inv (G := fun _ _ => True) (I := Configured) (fun t l hi _ t' h => ?_)
    (fun t l t' hi _ h => hi.step h) (Configured.start m s source protocol pullUrl) ?_
  · have hi' := hi.step h
    refine ⟨hi', fun hpaired => ?_⟩
    rw [Current, ← configOf_eq_latestConfig hpaired]
    exact hi'
  · exact always_iff.mpr fun _ _ _ _ _ => trivial

/-- An SPS, a PPS, and another SPS, each in a packet of its own: **the first** SPS stays. -/
theorem not_current_after_change :
    ¬ Always StreamIngest.step (fun t l => ∀ t', t.step l = some t' → t'.Current)
      (start .new "live" .push .rtsp none)
      [.packet (testRtp 1 [0x67, 1]), .packet (testRtp 2 [0x68, 2]),
          .packet (testRtp 3 [0x67, 3])] := by
  intro h
  obtain ⟨t, ht⟩ : ∃ t, exec StreamIngest.step (start .new "live" .push .rtsp none)
      [.packet (testRtp 1 [0x67, 1]), .packet (testRtp 2 [0x68, 2])] = some t := ⟨_, rfl⟩
  have hlast := always_iff.mp h _ (.packet (testRtp 3 [0x67, 3])) ⟨[], rfl⟩ t ht
  obtain rfl := Option.some.inj ht
  exact absurd (hlast _ rfl) (by decide)

end StreamIngest

end VcpMediaServer
