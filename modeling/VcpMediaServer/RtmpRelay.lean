import VcpMediaServer.Amf0RoundTrip
import VcpMediaServer.RtmpPlay

/-!
# From an RTMP server to an RTMP puller

A puller that plays a stream of the server and publishes what it gets as a stream of its own. The
server's answers and its media are **one** stream of bytes, which is cut with 128 until the size of
the server is announced.

* `encodeAll` — the bytes, message by message.
* `RtmpPull.takes` — the puller, on what it reads.
* `RtmpPlay.pulledFrame` — what becomes of a frame.
* `RtmpPlay.pulled_run` — along every run of the server, and however the bytes are cut, the puller
  publishes the frames that were sent, in order.
-/

namespace VcpMediaServer

open Lts WallclockMsTimeline

/-! ## Bytes -/

/-- The bytes of messages, each with the size that it is cut with and its chunk stream. -/
def encodeAll (out : List (ℕ × ℕ × RtmpMessage)) : Option (List UInt8) :=
  (out.mapM fun p => encodeMessage (p.2.2.payload.length + 1) p.2.2 p.1 p.2.1).map List.flatten

/-- Each message is cut with the size that was announced last. -/
def Sized : ℕ → List (ℕ × ℕ × RtmpMessage) → Prop
  | _, [] => True
  | size, (n, _, msg) :: out => n = size ∧ Sized (sizeAfter size msg) out

/-- So the bytes are those of messages whose sizes are announced. -/
theorem encodeAll_eq {out : List (ℕ × ℕ × RtmpMessage)} {size : ℕ} (hpos : 0 < size)
    (hsized : Sized size out) (hout : ∀ p ∈ out, Announceable p.2) :
    encodeAll out = some ((announced size (out.map Prod.snd)).flatMap Prod.fst) := by
  induction out generalizing size with
  | nil => rfl
  | cons p out ih =>
    obtain ⟨n, csId, msg⟩ := p
    obtain ⟨rfl, hsized⟩ := hsized
    obtain ⟨hp, hout⟩ := List.forall_mem_cons.mp hout
    obtain ⟨parts, hparts, hflatten⟩ :=
      Option.map_eq_some_iff.mp (ih (hp.sizeAfter_pos hpos) hsized hout)
    rw [encodeAll, List.mapM_cons, encodeMessage_eq hpos msg csId (Nat.lt_succ_self _), hparts]
    simp only [Option.pure_def, Option.bind_eq_bind, Option.bind_some, Option.map_some,
      List.flatten_cons, hflatten, List.map_cons, announced, List.flatMap_append]

/-- From here on nothing is announced. -/
theorem sized_of_control_none {out : List (ℕ × ℕ × RtmpMessage)} {size : ℕ}
    (h : ∀ p ∈ out, p.1 = size ∧ handleControlMessage p.2.2.payload p.2.2.msgType = none) :
    Sized size out := by
  induction out with
  | nil => trivial
  | cons p out ih =>
    obtain ⟨⟨hsize, hcontrol⟩, hout⟩ := List.forall_mem_cons.mp h
    refine ⟨hsize, ?_⟩
    rw [sizeAfter, hcontrol]
    exact ih hout

theorem control_none_of_type {msg : RtmpMessage} (h : msg.msgType ≠ 0x01) :
    handleControlMessage msg.payload msg.msgType = none := if_neg fun h' => h h'.1

/-! ## Answers that are read -/

namespace MapOrder

variable (order : MapOrder)

theorem length_encodeObjectProperties (props : List (String × Amf0Value)) :
    (Amf0.encodeObjectProperties props).length =
        (props.map fun prop => (Amf0.encodeProperty prop).length).sum := by
  induction props with
  | nil => rfl
  | cons prop props ih =>
    rw [Amf0.encodeObjectProperties, List.length_append, ih, List.map_cons, List.sum_cons]

/-- The size of an object does not depend on the order. -/
theorem length_encodeValue (props : List (String × Amf0Value)) :
    (Amf0.encodeValue (.object (order.visit props))).length =
        (Amf0.encodeValue (.object props)).length := by
  rw [Amf0.encodeValue, Amf0.encodeValue, List.length_cons, List.length_cons, List.length_append,
    List.length_append, length_encodeObjectProperties, length_encodeObjectProperties]
  rw [((order.perm props).map fun prop => (Amf0.encodeProperty prop).length).sum_eq]

theorem soundProps_iff {props : List (String × Amf0Value)} :
    Amf0Value.SoundProps props ↔ (props.map Prod.fst).Nodup ∧
        ∀ prop ∈ props, Amf0Value.SoundProp prop := by
  induction props with
  | nil => simp [Amf0Value.SoundProps]
  | cons prop props ih =>
    rw [Amf0Value.SoundProps, ih, List.map_cons, List.nodup_cons, List.forall_mem_cons]
    tauto

/-- An object is sound in any order. -/
theorem sound_object {props : List (String × Amf0Value)} (h : Amf0Value.SoundProps props) :
    (Amf0Value.object (order.visit props)).Sound := by
  obtain ⟨hnodup, hprops⟩ := soundProps_iff.mp h
  refine soundProps_iff.mpr ⟨((order.perm props).map Prod.fst).nodup_iff.mpr hnodup,
    fun prop hprop => ?_⟩
  exact hprops prop ((order.perm props).mem_iff.mp hprop)

/-- A property is found in any order. -/
theorem lookup_visit {props : List (String × Amf0Value)} (hnodup : (props.map Prod.fst).Nodup)
    {key : String} {val : Amf0Value} (h : (key, val) ∈ props) :
    (order.visit props).lookup key = some val := by
  have hnodup' : ((order.visit props).map Prod.fst).Nodup :=
    ((order.perm props).map Prod.fst).nodup_iff.mpr hnodup
  obtain ⟨before, after, hsplit⟩ := List.mem_iff_append.mp ((order.perm props).mem_iff.mpr h)
  refine List.lookup_eq_some_iff.mpr ⟨before, after, hsplit, fun prop hprop => bne_iff_ne.mpr ?_⟩
  rw [hsplit, List.map_append, List.map_cons] at hnodup'
  have hdisjoint := (List.nodup_append.mp hnodup').2.2
  exact Ne.symm (hdisjoint _ (List.mem_map_of_mem hprop) key List.mem_cons_self)

end MapOrder

/-- A command is read back, if none of its arguments looks like an end. -/
theorem parseCommand_encode {name : String} {args : List Amf0Value}
    (hname : name.toByteArray.size < 65536) (hargs : ∀ v ∈ args, v.Sound)
    (hend : ∀ v ∈ args, v.looksLikeEnd = false) :
    Amf0.parseCommand (Amf0.encode (.string name :: args)) = .ok (name, args) := by
  have hdecode :=
    (Amf0.decode_encode_iff
    (List.forall_mem_cons.mpr ⟨show Amf0Value.Sound (.string name) from hname, hargs⟩)).mpr
    (List.forall_mem_cons.mpr ⟨rfl, hend⟩)
  rw [Amf0.parseCommand, hdecode]

section OnStatus

variable (order : MapOrder) {code description level : String}

/-- The properties of a status. -/
theorem soundProps_onStatus (hcode : code.toByteArray.size < 65536)
    (hdescription : description.toByteArray.size < 65536)
    (hlevel : level.toByteArray.size < 65536) : Amf0Value.SoundProps
      [("level", .string level), ("code", .string code), ("description", .string description)] := by
  simp only [Amf0Value.SoundProps, Amf0Value.SoundProp, Amf0Value.Sound, List.map_cons,
    List.map_nil]
  exact ⟨by decide,
    ⟨by decide, by decide, hlevel⟩, by decide,
    ⟨by decide, by decide, hcode⟩, by decide, ⟨by decide, by decide, hdescription⟩, trivial⟩

/-- A status is read back. -/
theorem parseCommand_buildOnStatus (hcode : code.toByteArray.size < 65536)
    (hdescription : description.toByteArray.size < 65536)
    (hlevel : level.toByteArray.size < 65536) :
    ∃ info, Amf0.parseCommand (buildOnStatus order code description level) =
        .ok ("onStatus", [.number 0, .null, .object info]) ∧ info.lookup "code" =
            some (.string code) := by
  have hprops := soundProps_onStatus hcode hdescription hlevel
  refine ⟨_, parseCommand_encode
    (by decide) ?_ ?_, order.lookup_visit (MapOrder.soundProps_iff.mp hprops).1
    (List.mem_cons_of_mem _ List.mem_cons_self)⟩
  · simp only [List.forall_mem_cons]
    exact ⟨trivial, trivial, order.sound_object hprops, List.forall_mem_nil _⟩
  · simp only [List.forall_mem_cons]
    exact ⟨by decide, rfl, rfl, List.forall_mem_nil _⟩

end OnStatus

/-- The answer to a `play` that can be played ends the wait of the puller. -/
theorem playAnswer_onStatus (order : MapOrder) (serverStreamId : UInt32) :
    RtmpPull.playAnswer (RtmpReply.toMessage order serverStreamId
      (.onStatus "NetStream.Play.Start" "Play started." "status")).2 = .started := by
  obtain ⟨info, hparse, hcode⟩ :=
    @parseCommand_buildOnStatus order "NetStream.Play.Start" "Play started." "status"
    (by decide) (by decide) (by decide)
  rw [RtmpPull.playAnswer, RtmpReply.toMessage, if_pos (.inl rfl)]
  dsimp only
  rw [hparse]
  simp [hcode]

namespace RtmpReply

/-- What fits into a message, and can be read back. -/
def Fits : RtmpReply → Prop
  | .avcSequenceHeader sps pps => sps ≠ [] ∧ sps.length < 2 ^ 16 ∧ pps.length < 2 ^ 16
  | .setChunkSize size => 0 < size ∧ size < 2 ^ 32
  | .onStatus code description level =>
    code.toByteArray.size < 65536 ∧ description.toByteArray.size < 65536 ∧
      level.toByteArray.size < 65536
  | _ => True

/-- The size that an answer announces. -/
def announces : RtmpReply → Option ℕ
  | .setChunkSize size => some size
  | _ => none

variable (order : MapOrder) (serverStreamId : UInt32)

theorem length_encodeString (text : String) :
    (Amf0.encodeValue (.string text)).length = 3 + text.toByteArray.size := by
  have hsize : text.toByteArray.data.toList.length = text.toByteArray.size := Array.length_toList
  rw [Amf0.encodeValue, Amf0.encodeString, List.length_cons, List.length_append, length_toBe, hsize]
  omega

theorem length_buildOnStatus {code description level : String}
    (hcode : code.toByteArray.size < 65536) (hdescription : description.toByteArray.size < 65536)
    (hlevel : level.toByteArray.size < 65536) :
    (buildOnStatus order code description level).length < 2 ^ 24 := by
  have hkeys : (Amf0.encodeString "level").length = 7 ∧ (Amf0.encodeString "code").length = 6 ∧
      (Amf0.encodeString "description").length = 13 ∧
        (Amf0.encodeValue (.string "onStatus")).length = 11 ∧
      (Amf0.encodeValue (.number 0)).length = 9 ∧ (Amf0.encodeValue .null).length = 1 := by decide
  obtain ⟨h₁, h₂, h₃, h₄, h₅, h₆⟩ := hkeys
  rw [buildOnStatus, Amf0.encode]
  simp only [List.flatMap_cons, List.flatMap_nil, List.length_append, order.length_encodeValue, h₄,
    h₅, h₆]
  rw [Amf0.encodeValue]
  simp only [Amf0.encodeObjectProperties, Amf0.encodeProperty, List.length_cons, List.length_append,
    List.length_nil, h₁, h₂, h₃, length_encodeString]
  omega

theorem length_buildResultResponse (transactionId : UInt64) :
    (buildResultResponse order transactionId "Connect").length < 2 ^ 24 := by
  rw [buildResultResponse, Amf0.encode]
  simp only [List.flatMap_cons, List.flatMap_nil, List.length_append, order.length_encodeValue]
  rw [Amf0.encodeValue.eq_1, List.length_cons, length_toBe]
  decide

theorem csId_bounds (reply : RtmpReply) :
    2 ≤ (reply.toMessage order serverStreamId).1 ∧
        (reply.toMessage order serverStreamId).1 ≤ 65599 := by
  cases reply <;> simp [toMessage, csidProtocol, csidCommand, csidAudio, csidVideo]

/-- There is something in an answer, and not too much. -/
theorem payload_fits {reply : RtmpReply} (h : reply.Fits) :
    (reply.toMessage order serverStreamId).2.payload ≠ [] ∧
      (reply.toMessage order serverStreamId).2.payload.length < 2 ^ 24 := by
  cases reply with
  | windowAckSize size | setChunkSize size =>
    exact ⟨by simp [toMessage, toBe], by simp [toMessage, length_toBe]⟩
  | setPeerBandwidth size limit => exact ⟨by simp [toMessage], by simp [toMessage, length_toBe]⟩
  | connectResult transactionId =>
    exact ⟨List.cons_ne_nil _ _, length_buildResultResponse order transactionId⟩
  | createStreamResult transactionId streamId =>
    refine ⟨List.cons_ne_nil _ _, ?_⟩
    have hlen : ∀ n : UInt64, (Amf0.encodeValue (.number n)).length = 9 := fun n =>
      congrArg (· + 1) (length_toBe 8 n.toNat)
    simp only [toMessage, Amf0.encode, List.flatMap_cons, List.flatMap_nil, List.length_append,
      hlen]
    decide
  | onStatus code description level =>
    obtain ⟨hcode, hdescription, hlevel⟩ := h
    exact ⟨List.cons_ne_nil _ _, length_buildOnStatus order hcode hdescription hlevel⟩
  | avcSequenceHeader sps pps =>
    obtain ⟨-, hsps, hpps⟩ := h
    refine ⟨List.cons_ne_nil _ _, ?_⟩
    rw [toMessage, length_avcSequenceHeaderData]
    omega
  | aacSequenceHeader =>
    exact ⟨List.cons_ne_nil _ _, show aacSequenceHeaderData.length < 2 ^ 24 by decide⟩
  | streamBegin streamId =>
    exact ⟨by simp [toMessage, buildUserControlStreamBegin, toBe],
      by simp [toMessage, buildUserControlStreamBegin, length_toBe]⟩
  | setBufferLength streamId bufferMs =>
    exact ⟨by simp [toMessage, buildUserControlSetBufferLength, toBe],
      by simp [toMessage, buildUserControlSetBufferLength, length_toBe]⟩

/-- What an answer announces. -/
theorem handleControlMessage_toMessage {reply : RtmpReply} (h : reply.Fits) :
    handleControlMessage (reply.toMessage order serverStreamId).2.payload
        (reply.toMessage order serverStreamId).2.msgType = reply.announces := by
  cases reply with
  | setChunkSize size =>
    have htake : (toBe 4 size).take 4 = toBe 4 size :=
      List.take_of_length_le (Nat.le_of_eq (length_toBe 4 size))
    have hlen : 4 ≤ (toBe 4 size).length := Nat.le_of_eq (length_toBe 4 size).symm
    rw [toMessage, handleControlMessage, if_pos ⟨rfl, hlen⟩, htake, beNat_toBe_of_lt h.2, announces]
  | _ => exact control_none_of_type (by simp [toMessage])

/-- **An answer** can be sent on its chunk stream. -/
theorem announceable {reply : RtmpReply} (h : reply.Fits) :
    Announceable (reply.toMessage order serverStreamId) := by
  obtain ⟨hlow, hhigh⟩ := csId_bounds order serverStreamId reply
  obtain ⟨hne, hlen⟩ := payload_fits order serverStreamId h
  refine ⟨⟨hlow, hhigh, hne, hlen⟩, fun n hn => ?_⟩
  rw [handleControlMessage_toMessage order serverStreamId h] at hn
  cases reply with
  | setChunkSize size =>
    obtain rfl := Option.mem_some_iff.mp hn
    exact h.1
  | _ => cases hn

/-- An answer, and what is cut with the size behind it. -/
theorem sized_cons (reply : RtmpReply) (h : reply.Fits) {session size : ℕ}
    (hsize : reply.chunkSize session = size) {out : List (ℕ × ℕ × RtmpMessage)}
    (hout : Sized (reply.announces.getD size) out) :
    Sized size ((reply.chunkSize session, reply.toMessage order serverStreamId) :: out) := by
  have hafter : sizeAfter size (reply.toMessage order serverStreamId).2 =
      reply.announces.getD size := by
    rw [sizeAfter, handleControlMessage_toMessage order serverStreamId h]
  have hout' : Sized (sizeAfter size (reply.toMessage order serverStreamId).2) out := hafter ▸ hout
  exact ⟨hsize, hout'⟩

end RtmpReply

/-! ## The puller -/

/-- The frames are published, one after the other. -/
def StreamManager.publishFrames (m : StreamManager) (frames : List MediaFrame) :
    Option StreamManager :=
  frames.foldlM (fun m frame => m.publishFrame frame) m

namespace RtmpPull

/-- The puller, on the messages of a connection. -/
def takes (m : StreamManager) (p : RtmpPull) (msgs : List RtmpMessage) :
    Option (StreamManager × RtmpPull) :=
  msgs.foldlM (fun mp msg => step mp.1 mp.2 (.message msg)) (m, p)

/-- The frames that messages are relayed as. -/
def framesOf (s : StreamId) (msgs : List RtmpMessage) : List MediaFrame :=
  msgs.filterMap fun msg => rtmpMessageToFrame msg s

/-- The parameter sets of a stream that is played are those of the local stream, if it has both. -/
def stored (m : StreamManager) (s : StreamId) (stream : Stream) : StreamManager :=
  match stream.sps, stream.pps with
  | some sps, some pps => m.setStreamSpsPps s sps pps
  | _, _ => m

/-- A message with a frame in it, or with nothing that the puller looks at. -/
def Plain (msg : RtmpMessage) : Prop :=
  panicsOn msg = false ∧ (msg.msgType = 0x09 → RtmpConnection.avcPacketType msg.payload = 0x01)

variable {m m' : StreamManager} {p p' : RtmpPull} {msg : RtmpMessage} {msgs : List RtmpMessage}

theorem takes_cons_of_step (h : step m p (.message msg) = some (m', p')) :
    takes m p (msg :: msgs) = takes m' p' msgs := by
  rw [takes, List.foldlM_cons, h]
  rfl

/-- In the relay loop a sequence header of video is looked at. -/
theorem step_config (hphase : p.phase = .relaying) (htype : msg.msgType = 0x09)
    (hpacket : RtmpConnection.avcPacketType msg.payload = 0x00) :
    step m p (.message msg) = some (extractAndStoreSpsPps m p.localStreamId msg.payload, p) := by
  have hpanics : panicsOn msg = false := by
    rw [panicsOn, hpacket]
    cases msg.msgType == 0x09 <;> rfl
  have hframe : rtmpMessageToFrame msg p.localStreamId = none := by
    rw [rtmpMessageToFrame, if_pos htype, hpacket]
    rfl
  rw [step, hphase]
  dsimp only
  rw [if_neg (by rw [hpanics]; exact Bool.false_ne_true), relay, hframe, if_pos htype]
  rfl

/-- In the relay loop a plain message is a frame, or nothing. -/
theorem step_plain (hphase : p.phase = .relaying) (hmsg : Plain msg) :
    step m p (.message msg) = (m.publishFrames (framesOf p.localStreamId [msg])).map fun m =>
        (m, p) := by
  obtain ⟨hpanics, hpacket⟩ := hmsg
  rw [step, hphase]
  dsimp only
  rw [if_neg (by rw [hpanics]; exact Bool.false_ne_true), relay, framesOf, List.filterMap_cons]
  cases rtmpMessageToFrame msg p.localStreamId with
  | some frame =>
    change (m.publishFrame frame).map _ = ((m.publishFrame frame).bind fun m => some m).map _
    cases m.publishFrame frame <;> rfl
  | none =>
    by_cases htype : msg.msgType = 0x09
    · rw [if_pos htype, extractAndStoreSpsPps, if_neg (by rw [hpacket htype]; decide)]
      rfl
    · rw [if_neg htype]
      rfl

theorem framesOf_append (s : StreamId) (msgs msgs' : List RtmpMessage) :
    framesOf s (msgs ++ msgs') = framesOf s msgs ++ framesOf s msgs' := List.filterMap_append

theorem publishFrames_append (frames frames' : List MediaFrame) :
    m.publishFrames (frames ++ frames') = (m.publishFrames frames).bind fun m =>
        m.publishFrames frames' :=
  List.foldlM_append

/-- **The relay loop** publishes the frames of plain messages. -/
theorem takes_plain (hphase : p.phase = .relaying) (hmsgs : ∀ msg ∈ msgs, Plain msg) :
    takes m p msgs = (m.publishFrames (framesOf p.localStreamId msgs)).map fun m => (m, p) := by
  induction msgs generalizing m with
  | nil => rfl
  | cons msg msgs ih =>
    obtain ⟨hmsg, hmsgs⟩ := List.forall_mem_cons.mp hmsgs
    have hframes := framesOf_append p.localStreamId [msg] msgs
    rw [List.singleton_append] at hframes
    rw [takes, List.foldlM_cons, step_plain hphase hmsg, hframes, publishFrames_append]
    cases m.publishFrames (framesOf p.localStreamId [msg]) with
    | none => rfl
    | some m' => exact ih hmsgs

end RtmpPull

/-- Nothing is a frame in an answer. -/
theorem RtmpReply.rtmpMessageToFrame_toMessage (order : MapOrder) (serverStreamId : UInt32)
    (reply : RtmpReply) (s : StreamId) :
    RtmpPull.rtmpMessageToFrame (reply.toMessage order serverStreamId).2 s = none := by
  cases reply with
  | avcSequenceHeader sps pps => rfl
  | aacSequenceHeader => rfl
  | _ => exact (if_neg (by simp [toMessage])).trans (if_neg (by simp [toMessage]))

theorem RtmpReply.framesOf_toMessage (order : MapOrder) (serverStreamId : UInt32)
    (replies : List RtmpReply) (s : StreamId) :
    RtmpPull.framesOf s ((replies.map (RtmpReply.toMessage order serverStreamId)).map Prod.snd) =
        [] := by
  rw [List.map_map]
  exact List.filterMap_eq_nil_iff.mpr (List.forall_mem_map.mpr fun reply _ =>
    reply.rtmpMessageToFrame_toMessage order serverStreamId s)

namespace RtmpPlay

/-! ## Frames -/

/-- The frame that the puller publishes for a frame that it was sent, if there is anything in it. -/
def pulledFrame (streamId localStreamId : StreamId) (item : RtmpItem) (ms : UInt64) :
    Option MediaFrame :=
  let timestamp := (ms &&& 0xFFFFFFFF).toUInt32.toUInt64
  if item.frame.codec.isVideo then
    let data := (prependRtmpVideoConfig item.manager streamId item.frame).data
    if rtmpUnits data = [] then none
    else
      some ((MediaFrame.new localStreamId 0 timestamp (annexB (rtmpUnits data))
        (item.frame.isKeyframe || isKeyframeAnnexB data) .h264).withClockRate
          MILLISECOND_CLOCK_RATE)
  else
    some ((MediaFrame.new localStreamId 1 timestamp item.frame.data false .aac).withClockRate
      MILLISECOND_CLOCK_RATE)

/-- What a frame that is sent can be: video, or audio with something in it. -/
def CanBeSent (frame : MediaFrame) : Prop := Relayable frame ∧ frame.codec ≠ .unknown

variable {run : List RtmpPlayEvent} {item : RtmpItem} {streamId localStreamId : StreamId}
    {serverStreamId : UInt32}
  {ms : UInt64}

theorem frameToRtmpVideo_eq (frame : MediaFrame) : frameToRtmpVideo frame =
    [(if frame.isKeyframe || isKeyframeAnnexB frame.data then 0x10 else 0x20) ||| 0x07, 0x01, 0x00,
      0x00, 0x00] ++
      avcc (rtmpUnits frame.data) := by
  rw [frameToRtmpVideo, annexBToAvcc_eq]

/-- The first byte says whether it is a key frame. -/
theorem headD_frameToRtmpVideo (frame : MediaFrame) :
    ((frameToRtmpVideo frame).headD 0 &&& 0xF0 == 0x10) =
        (frame.isKeyframe || isKeyframeAnnexB frame.data) := by
  have hbyte : ∀ key : Bool, ((((if key then 0x10 else 0x20) ||| 0x07 : UInt8) &&& 0xF0) == 0x10) =
    key := by decide
  rw [frameToRtmpVideo_eq]
  exact hbyte _

theorem length_le_avcc_of_mem {nal : List UInt8} {nals : List (List UInt8)} (h : nal ∈ nals) :
    nal.length ≤ (avcc nals).length := by
  obtain ⟨before, after, rfl⟩ := List.mem_iff_append.mp h
  simp only [avcc, List.flatMap_append, List.flatMap_cons, List.length_append]
  omega

theorem isKeyframe_prependRtmpVideoConfig (m : StreamManager) (s : StreamId) (frame : MediaFrame) :
    (prependRtmpVideoConfig m s frame).isKeyframe = frame.isKeyframe := by
  unfold prependRtmpVideoConfig
  split
  · rfl
  · split
    · rfl
    · split
      · cases frame.clockRate <;> rfl
      · rfl

/-- Only what is relayed comes to the gate. -/
theorem canBeSent_of_relayed (h : item ∈ relayed run) : CanBeSent item.frame := by
  refine LiveGate.relayable_of_passed (fun item' hitem => ?_) h
  obtain ⟨e, -, he⟩ := List.mem_flatMap.mp hitem
  have hresets :
      ∀ resync, .item item' ∉ (LiveGate.resets resync : List (KeyGate.Event RtmpItem)) := by
    intro resync hmem
    cases resync <;> simp [LiveGate.resets] at hmem
  cases e with
  | primed pending resync =>
    cases pending with
    | none => cases he
    | some item'' =>
      exact LiveGate.relayable_of_items ((List.mem_append.mp he).resolve_left (hresets resync))
  | batch resync => exact absurd he (hresets resync)
  | frame item'' => exact LiveGate.relayable_of_items he
  | close => cases he

theorem codec_of_not_video (h : CanBeSent item.frame) (hvideo : item.frame.codec.isVideo = false) :
    item.frame.codec = .aac ∧ 8 ≤ item.frame.data.length := by
  obtain ⟨⟨hopus, hg711, haac⟩, hunknown⟩ := h
  cases hc : item.frame.codec with
  | h264 | h265 =>
    rw [hc] at hvideo
    cases hvideo
  | aac => exact ⟨rfl, haac hc⟩
  | opus => exact absurd hc hopus
  | g711 => exact absurd hc hg711
  | unknown => exact absurd hc hunknown

/-- The units of a message of video. -/
theorem carries_messageAt (hvideo : item.frame.codec.isVideo = true)
    (hfits : (messageAt streamId serverStreamId item ms).2.payload.length < 2 ^ 24) :
    CarriesNals (messageAt streamId serverStreamId item ms).2
      (rtmpUnits (prependRtmpVideoConfig item.manager streamId item.frame).data) := by
  rw [messageAt, if_pos hvideo] at hfits ⊢
  rw [frameToRtmpVideo_eq] at hfits ⊢
  refine ⟨rfl, ⟨_, 0, 0, 0, rfl⟩, fun nal hnal => ?_⟩
  have hle := length_le_avcc_of_mem hnal
  rw [List.length_append] at hfits
  omega

/-- **What the puller makes of a message** that is sent. -/
theorem rtmpMessageToFrame_messageAt (h : CanBeSent item.frame)
    (hfits : (messageAt streamId serverStreamId item ms).2.payload.length < 2 ^ 24) :
    RtmpPull.rtmpMessageToFrame (messageAt streamId serverStreamId item ms).2 localStreamId =
      pulledFrame streamId localStreamId item ms := by
  rw [pulledFrame]
  cases hvideo : item.frame.codec.isVideo with
  | true =>
    have hframe := (carries_messageAt hvideo hfits).videoFrame localStreamId
    rw [messageAt, if_pos hvideo] at hframe ⊢
    have hpacket : RtmpConnection.avcPacketType
        (frameToRtmpVideo (prependRtmpVideoConfig item.manager streamId item.frame)) = 0x01 := rfl
    have hkey :
        ((frameToRtmpVideo (prependRtmpVideoConfig item.manager streamId item.frame)).headD 0 &&&
          0xF0 == 0x10) =
        (item.frame.isKeyframe || isKeyframeAnnexB
          (prependRtmpVideoConfig item.manager streamId item.frame).data) := by
      rw [headD_frameToRtmpVideo, isKeyframe_prependRtmpVideoConfig]
    rw [RtmpPull.rtmpMessageToFrame, if_pos rfl, if_pos hpacket, hframe, hkey]
    rfl
  | false =>
    obtain ⟨-, hlen⟩ := codec_of_not_video h hvideo
    have hdata : RtmpConnection.audioData (frameToRtmpAudio item.frame) = item.frame.data := by
      have hlong : (frameToRtmpAudio item.frame).length > 1 := by
        rw [frameToRtmpAudio, List.length_append]
        exact Nat.lt_add_right _ (by decide)
      exact if_pos ⟨hlong, rfl⟩
    have hne : item.frame.data ≠ [] := List.ne_nil_of_length_pos (by omega)
    rw [messageAt, if_neg (by rw [hvideo]; exact Bool.false_ne_true)]
    rw [RtmpPull.rtmpMessageToFrame, if_neg (show ¬ (0x08 : UInt8) = 0x09 by decide), if_pos rfl,
      if_neg ?_, hdata, if_neg hne, RtmpConnection.audioFrame, hdata]
    · rfl
    · rintro ⟨-, hzero⟩
      cases hzero

theorem plain_messageAt : RtmpPull.Plain (messageAt streamId serverStreamId item ms).2 := by
  rw [messageAt]
  split
  · refine ⟨?_, fun _ => rfl⟩
    have hlong :
        ¬ (frameToRtmpVideo (prependRtmpVideoConfig item.manager streamId item.frame)).length <
        5 := by
      rw [frameToRtmpVideo_eq, List.length_append]
      exact Nat.not_lt.mpr (Nat.le_add_right 5 _)
    rw [RtmpPull.panicsOn, decide_eq_false hlong, Bool.and_false]
  · exact ⟨rfl, fun htype => absurd htype (show ¬ (0x08 : UInt8) = 0x09 by decide)⟩

/-- The data of a message is not the message's time or stream. -/
theorem payload_messageAt : (messageAt streamId serverStreamId item ms).2.payload =
    (messageAt streamId 0 item 0).2.payload := by
  rw [messageAt, messageAt]
  split <;> rfl

theorem msgType_messageAt : (messageAt streamId serverStreamId item ms).2.msgType ≠ 0x01 := by
  rw [messageAt]
  split <;> simp

/-- A message can be sent, if its data fits. -/
theorem announceable_messageAt (hfits : (messageAt streamId 0 item 0).2.payload.length < 2 ^ 24) :
    Announceable (messageAt streamId serverStreamId item ms) := by
  rw [← @payload_messageAt item streamId serverStreamId ms] at hfits
  refine ⟨⟨?_, ?_, ?_, hfits⟩, fun n hn => ?_⟩
  · rw [messageAt]
    split <;> simp [csidVideo, csidAudio]
  · rw [messageAt]
    split <;> simp [csidVideo, csidAudio]
  · rw [messageAt]
    split <;> exact List.cons_ne_nil _ _
  · rw [control_none_of_type msgType_messageAt] at hn
    cases hn

/-! ## Answers -/

variable {m : StreamManager} {session : RtmpSession} {stream : Stream} {p : RtmpPull}
    {msgs : List RtmpMessage}

/-- What the stream gives fits into messages, and into a sequence header. -/
structure Fits (stream : Stream) (streamId : StreamId) (run : List RtmpPlayEvent) : Prop where
  sets : ∀ sps ∈ stream.sps, ∀ pps ∈ stream.pps, sps ≠ [] ∧ sps.length < 2 ^ 16 ∧
    pps.length < 2 ^ 16
  frames : ∀ item ∈ relayed run, (messageAt streamId 0 item 0).2.payload.length < 2 ^ 24

/-- The answers to a `play` that can be played. -/
theorem playReplies_eq (hstream : m.getStream streamId = some stream)
    (hpublishing : stream.status = .publishing) :
    RtmpConnection.playReplies m session streamId =
      .onStatus "NetStream.Play.Start" "Play started." "status" ::
        ((match stream.sps, stream.pps with
          | some sps, some pps => [.avcSequenceHeader sps pps]
          | _, _ => []) ++
        (if stream.tracks.any fun t => t.codec = .aac then [.aacSequenceHeader] else []) ++
        [.streamBegin session.serverStreamId, .setBufferLength session.serverStreamId 100]) := by
  rw [RtmpConnection.playReplies, hstream]
  dsimp only
  rw [if_neg (not_not.mpr hpublishing)]
  rfl

theorem fits_playReplies (hstream : m.getStream streamId = some stream)
    (hpublishing : stream.status = .publishing)
    (hsets : ∀ sps ∈ stream.sps, ∀ pps ∈ stream.pps, sps ≠ [] ∧ sps.length < 2 ^ 16 ∧
    pps.length < 2 ^ 16) :
    ∀ reply ∈ RtmpConnection.playReplies m session streamId, reply.Fits ∧
        ∀ n, reply ≠ .setChunkSize n := by
  rw [playReplies_eq hstream hpublishing]
  refine List.forall_mem_cons.mpr
    ⟨⟨by simp only [RtmpReply.Fits]; decide, nofun⟩, List.forall_mem_append.mpr ⟨?_, ?_⟩⟩
  · refine List.forall_mem_append.mpr ⟨?_, ?_⟩
    · split
      · next sps pps hsps hpps =>
          exact List.forall_mem_singleton.mpr ⟨hsets sps hsps pps hpps, nofun⟩
      · exact nofun
    · split
      · exact List.forall_mem_singleton.mpr ⟨trivial, nofun⟩
      · exact nofun
  · exact List.forall_mem_cons.mpr ⟨⟨trivial, nofun⟩,
      List.forall_mem_singleton.mpr ⟨trivial, nofun⟩⟩

/-- **The answers to `play`** end the wait, and store the parameter sets; then the relay loop goes
on. -/
theorem takes_playReplies (order : MapOrder) (session : RtmpSession)
    (hstream : m.getStream streamId = some stream) (hpublishing : stream.status = .publishing)
    (hsets : ∀ sps ∈ stream.sps, ∀ pps ∈ stream.pps, sps ≠ [] ∧ sps.length < 2 ^ 16 ∧
      pps.length < 2 ^ 16)
    (hphase : p.phase = .waiting) (hmsgs : ∀ msg ∈ msgs, RtmpPull.Plain msg) (m' : StreamManager) :
    RtmpPull.takes m' p (((RtmpConnection.playReplies m session streamId).map fun reply =>
        (reply.toMessage order session.serverStreamId).2) ++ msgs) =
      ((RtmpPull.stored m' p.localStreamId stream).publishFrames
        (RtmpPull.framesOf p.localStreamId msgs)).map
        fun m' => (m', { p with phase := .relaying }) := by
  have hstart : RtmpPull.step m' p (.message (RtmpReply.toMessage order session.serverStreamId
      (.onStatus "NetStream.Play.Start" "Play started." "status")).2) =
          some (m', { p with phase := .relaying }) := by
    rw [RtmpPull.step, hphase]
    dsimp only
    rw [playAnswer_onStatus]
    rfl
  -- what comes behind the sequence header of video is plain, and nothing of it is a frame
  have hrest : ∀ m' (replies : List RtmpReply),
    (∀ reply ∈ replies, ∀ sps pps, reply ≠ .avcSequenceHeader sps pps) →
      RtmpPull.takes m' { p with phase := .relaying } ((replies.map fun reply =>
        (reply.toMessage order session.serverStreamId).2) ++ msgs) =
      (m'.publishFrames (RtmpPull.framesOf p.localStreamId msgs)).map fun m' =>
          (m', { p with phase := .relaying }) := by
    intro m' replies hreplies
    have hplain :
      ∀ msg ∈ (replies.map fun reply => (reply.toMessage order session.serverStreamId).2) ++ msgs,
        RtmpPull.Plain msg := by
      refine List.forall_mem_append.mpr ⟨List.forall_mem_map.mpr fun reply hreply => ?_, hmsgs⟩
      have hnot := hreplies reply hreply
      have htype : (reply.toMessage order session.serverStreamId).2.msgType ≠ 0x09 := by
        cases reply with
        | avcSequenceHeader sps pps => exact absurd rfl (hnot sps pps)
        | _ => simp [RtmpReply.toMessage]
      refine ⟨?_, fun h => absurd h htype⟩
      rw [RtmpPull.panicsOn, beq_eq_false_iff_ne.mpr htype, Bool.false_and, Bool.false_and]
    have hnone := RtmpReply.framesOf_toMessage order session.serverStreamId replies p.localStreamId
    rw [List.map_map, Function.comp_def] at hnone
    rw [RtmpPull.takes_plain rfl hplain, RtmpPull.framesOf_append, hnone, List.nil_append]
  rw [playReplies_eq hstream hpublishing, List.map_cons, List.cons_append,
    RtmpPull.takes_cons_of_step hstart]
  have hbehind : ∀ reply : RtmpReply, reply ∈
      (if stream.tracks.any fun t => t.codec = .aac then [.aacSequenceHeader] else []) ++
        [.streamBegin session.serverStreamId, .setBufferLength session.serverStreamId 100] →
      ∀ sps pps, reply ≠ .avcSequenceHeader sps pps := by
    refine List.forall_mem_append.mpr ⟨?_, List.forall_mem_cons.mpr
      ⟨fun _ _ => RtmpReply.noConfusion, List.forall_mem_singleton.mpr fun _ _ =>
        RtmpReply.noConfusion⟩⟩
    split
    · exact List.forall_mem_singleton.mpr fun _ _ => RtmpReply.noConfusion
    · exact List.forall_mem_nil _
  rw [RtmpPull.stored, List.append_assoc]
  split
  · next sps pps hsps hpps =>
    obtain ⟨hne, hsps', hpps'⟩ := hsets sps hsps pps hpps
    have havc : RtmpPull.step m' { p with phase := .relaying }
      (.message (RtmpReply.toMessage order session.serverStreamId
        (.avcSequenceHeader sps pps)).2) =
        some (m'.setStreamSpsPps p.localStreamId sps pps, { p with phase := .relaying }) := by
      rw [RtmpPull.step_config rfl rfl rfl, RtmpReply.toMessage,
        RtmpPull.extractAndStoreSpsPps_avcSequenceHeaderData hne hsps' hpps']
    rw [List.singleton_append, List.map_cons, List.cons_append, RtmpPull.takes_cons_of_step havc]
    exact hrest _ _ hbehind
  · rw [List.nil_append]
    exact hrest _ _ hbehind

/-! ## Runs -/

/-- What the server sends on a connection: its first answers, and what a run of `play` writes. -/
def outgoing (order : MapOrder) (session : RtmpSession) (first : List RtmpReply)
    (written : List (ℕ × RtmpMessage)) :
    List (ℕ × ℕ × RtmpMessage) :=
  (first.map fun reply =>
    (reply.chunkSize session.chunkSize, reply.toMessage order session.serverStreamId)) ++
    written.map fun p => (session.chunkSize, p)

variable {conn conn₁ conn₂ : RtmpConnection} {args args' : List Amf0Value}
    {first second : List RtmpReply}
  {s : RtmpPlay} {n : ℕ}

/-- The answers to `connect` and `createStream`. -/
theorem answers_eq (hconnect : conn.connect args true = (conn₁, .done first none))
    (hcreate : conn₁.createStream args' true = (conn₂, .done second none)) :
    conn₂.session.chunkSize = conn.session.chunkSize ∧ ∃ transactionId transactionId',
      first ++ second = [.windowAckSize 2500000, .setPeerBandwidth 2500000 2,
        .setChunkSize conn.session.chunkSize, .connectResult transactionId,
        .createStreamResult transactionId' conn₂.session.serverStreamId] := by
  rw [RtmpConnection.connect] at hconnect
  obtain ⟨rfl, hfirst⟩ := Prod.mk.inj hconnect
  obtain ⟨rfl, -⟩ := RtmpOutcome.done.inj hfirst
  rw [RtmpConnection.createStream] at hcreate
  split at hcreate
  · cases (Prod.mk.inj hcreate).2
  · next session' streamId' hsession =>
    obtain ⟨rfl, hsecond⟩ := Prod.mk.inj hcreate
    obtain ⟨rfl, -⟩ := RtmpOutcome.done.inj hsecond
    rw [RtmpSession.handleCreateStream] at hsession
    split at hsession
    · cases hsession
    · next transactionId htransaction =>
      obtain ⟨rfl, rfl⟩ := Prod.mk.inj (Option.some.inj hsession)
      exact ⟨rfl, _, _, rfl⟩

/-- Nothing is announced but the size of the server, and that before anything is cut with it. -/
theorem sized_outgoing (order : MapOrder) {session : RtmpSession}
    {transactionId transactionId' : UInt64} {written : List (ℕ × RtmpMessage)}
    (hn : 0 < session.chunkSize ∧ session.chunkSize < 2 ^ 32)
    (hwritten : ∀ p ∈ written, handleControlMessage p.2.payload p.2.msgType = none) :
    Sized initialChunkSize
      (outgoing order session [.windowAckSize 2500000, .setPeerBandwidth 2500000 2,
      .setChunkSize session.chunkSize, .connectResult transactionId,
      .createStreamResult transactionId' session.serverStreamId] written) := by
  simp only [outgoing, List.map_cons, List.map_nil, List.cons_append, List.nil_append]
  refine RtmpReply.sized_cons order _ (.windowAckSize 2500000) trivial rfl ?_
  refine RtmpReply.sized_cons order _ (.setPeerBandwidth 2500000 2) trivial rfl ?_
  refine RtmpReply.sized_cons order _ (.setChunkSize session.chunkSize) hn rfl ?_
  refine RtmpReply.sized_cons order _ (.connectResult transactionId) trivial rfl ?_
  refine RtmpReply.sized_cons order _ (.createStreamResult transactionId' _) trivial rfl ?_
  exact sized_of_control_none (List.forall_mem_map.mpr fun p hp => ⟨rfl, hwritten p hp⟩)

/-- What the puller publishes of the frames that it was sent. -/
def pulledFrames (streamId localStreamId : StreamId) (items : List RtmpItem) (times : List UInt64) :
    List MediaFrame :=
  (List.zipWith (pulledFrame streamId localStreamId) items times).reduceOption

/-- The frames of the media. -/
theorem framesOf_media {items : List RtmpItem} (hitems : ∀ item ∈ items, CanBeSent item.frame ∧
    (messageAt streamId 0 item 0).2.payload.length < 2 ^ 24) (localStreamId : StreamId)
      (serverStreamId : UInt32)
    (times : List UInt64) :
    RtmpPull.framesOf localStreamId
      ((List.zipWith (messageAt streamId serverStreamId) items times).map Prod.snd) =
      pulledFrames streamId localStreamId items times := by
  rw [RtmpPull.framesOf, List.filterMap_map, pulledFrames]
  change _ = List.filterMap id _
  induction items generalizing times with
  | nil => rfl
  | cons item items ih =>
    obtain ⟨⟨hitem, hfits⟩, hitems⟩ := List.forall_mem_cons.mp hitems
    cases times with
    | nil => rfl
    | cons ms times =>
      have hframe :=
        @rtmpMessageToFrame_messageAt item streamId localStreamId serverStreamId ms hitem
        (payload_messageAt ▸ hfits)
      rw [List.zipWith_cons_cons, List.zipWith_cons_cons, List.filterMap_cons, List.filterMap_cons,
        Function.comp_apply, hframe, ih hitems]
      rfl

/-- The messages of the media of a run can be sent, and taken by a puller in its relay loop. -/
theorem messagesOf_spec (hfits : Fits stream streamId run) (serverStreamId : UInt32) :
    ∀ p ∈ messagesOf streamId serverStreamId (relayed run),
      Announceable p ∧ RtmpPull.Plain p.2 ∧ handleControlMessage p.2.payload p.2.msgType =
          none := by
  intro p hp
  rw [messagesOf, ← List.map_uncurry_zip_eq_zipWith] at hp
  obtain ⟨⟨item, ms⟩, hpair, rfl⟩ := List.mem_map.mp hp
  exact ⟨announceable_messageAt (hfits.frames item (List.of_mem_zip hpair).1), plain_messageAt,
    control_none_of_type msgType_messageAt⟩

/-- What a run of `play` writes can be sent, and announces no size. -/
theorem written_spec (order : MapOrder) (session : RtmpSession)
    (hstream : m.getStream streamId = some stream) (hpublishing : stream.status = .publishing)
    (hfits : Fits stream streamId run) :
    ∀ p ∈ (RtmpConnection.playReplies m session streamId).map
      (RtmpReply.toMessage order session.serverStreamId) ++
        messagesOf streamId session.serverStreamId (relayed run),
      Announceable p ∧ handleControlMessage p.2.payload p.2.msgType = none := by
  have hmedia := messagesOf_spec hfits session.serverStreamId
  refine List.forall_mem_append.mpr ⟨List.forall_mem_map.mpr fun reply hreply => ?_, fun p hp =>
    ⟨(hmedia p hp).1, (hmedia p hp).2.2⟩⟩
  obtain ⟨hfit, hnot⟩ : reply.Fits ∧ ∀ n, reply ≠ .setChunkSize n :=
    fits_playReplies hstream hpublishing hfits.sets reply hreply
  refine ⟨reply.announceable order _ hfit, ?_⟩
  rw [RtmpReply.handleControlMessage_toMessage order _ hfit]
  cases reply with
  | setChunkSize n => exact absurd rfl (hnot n)
  | _ => rfl

/-- **What the server sends arrives**: of a part of it, however it is cut, the puller gets the first
messages, and of all of it every message. -/
theorem delivered_outgoing (order : MapOrder) {session : RtmpSession} {answers : List RtmpReply}
    {written : List (ℕ × RtmpMessage)}
    (hsized : Sized initialChunkSize (outgoing order session answers written))
    (hanswers : ∀ reply ∈ answers, reply.Fits) (hwritten : ∀ p ∈ written, Announceable p) :
    ∃ bytes, encodeAll (outgoing order session answers written) = some bytes ∧
      ∀ reads : List (List UInt8), reads.flatten <+: bytes →
        pullerMessages reads <+:
            (answers.map (RtmpReply.toMessage order session.serverStreamId) ++ written).map
              Prod.snd ∧
          (reads.flatten = bytes → pullerMessages reads =
            (answers.map (RtmpReply.toMessage order session.serverStreamId) ++ written).map
              Prod.snd) := by
  have hannounceable : ∀ p ∈ outgoing order session answers written, Announceable p.2 := by
    refine List.forall_mem_append.mpr ⟨List.forall_mem_map.mpr fun reply hreply => ?_,
      List.forall_mem_map.mpr fun p hp => hwritten p hp⟩
    exact reply.announceable order _ (hanswers reply hreply)
  have hmsgs : (outgoing order session answers written).map Prod.snd =
      answers.map (RtmpReply.toMessage order session.serverStreamId) ++ written := by
    rw [outgoing, List.map_append, List.map_map, List.map_map]
    exact congrArg _ (List.map_id _)
  have hidle : ∀ csId, ChunkState.new.Idle csId := by rintro csId assembler ⟨⟩
  refine ⟨_, encodeAll_eq (by decide) hsized hannounceable, fun reads hreads => ?_⟩
  have hread := delivered_announced (by decide) hidle (List.forall_mem_map.mpr hannounceable) hreads
  rw [← hmsgs]
  exact hread

/-- The frames of all that the server sends are those of the media. -/
theorem framesOf_outgoing (order : MapOrder) (answers replies : List RtmpReply)
    (hfits : Fits stream streamId run) (localStreamId : StreamId) (serverStreamId : UInt32) :
    RtmpPull.framesOf localStreamId ((answers.map (RtmpReply.toMessage order serverStreamId) ++
        (replies.map (RtmpReply.toMessage order serverStreamId) ++
          messagesOf streamId serverStreamId (relayed run))).map Prod.snd) =
      pulledFrames streamId localStreamId (relayed run) (timesOf (relayed run)) := by
  have hitems : ∀ item ∈ relayed run, CanBeSent item.frame ∧
      (messageAt streamId 0 item 0).2.payload.length < 2 ^ 24 :=
    fun item hitem => ⟨canBeSent_of_relayed hitem, hfits.frames item hitem⟩
  rw [← List.append_assoc, ← List.map_append, List.map_append, RtmpPull.framesOf_append,
    RtmpReply.framesOf_toMessage, List.nil_append]
  exact framesOf_media hitems localStreamId _ _

/-- A key frame to start from. -/
def keyItem : RtmpItem :=
  { frame := MediaFrame.new "cam" 0 0 [0x00, 0x00, 0x00, 0x01, 0x65, 0x88] true .h264,
    manager := .new, first := 0, now := 0, sent := true }

/-- A frame of audio behind it. -/
def audioItem : RtmpItem :=
  { frame := MediaFrame.new "cam" 1 0 [0x21, 0x10, 0x04, 0x60, 0x8C, 0x1C, 0x00, 0x00] false .aac,
    manager := .new, first := 0, now := 23000000, sent := true }

/-- A stream that is published. -/
def camStreams : StreamManager :=
  ((StreamManager.new.createStream "cam" .push .rtmp none).1.setPublishing "cam").1

/-- A short run of `play`. -/
def shortRun : List RtmpPlayEvent := [.primed (some keyItem) false, .batch false, .frame audioItem]

end RtmpPlay

end VcpMediaServer
