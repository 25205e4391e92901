import VcpMediaServer.ChunkReassembly

/-!
# The chunk size of a stream

A `SetChunkSize` message says how the chunks **after** it are cut. The puller
applies it before the next chunk; the server cuts all that is in the buffer with
the old size first, and applies it when the buffer has no more messages. What is
in the buffer then is up to how the stream was cut into reads.

* `protocolMessages` — the stream in its own order: every chunk that follows a
  complete `SetChunkSize` is cut with the new size.
* `Settled` — nothing in a buffer is cut differently by the size that is pending
  there.
* `server_in_order` — where this is so, and no message is completed with a drift, the
  server decodes what the protocol says and what the puller decodes.
-/

namespace VcpMediaServer

/-! ## The two loops -/

/-- `handle_control_message`: the size that a message sets. -/
def handleControlMessage (payload : List UInt8) (msgType : UInt8) : Option ℕ :=
  if msgType = 0x01 ∧ 4 ≤ payload.length then some (beNat (payload.take 4)) else none

/-- `chunk_size` and `pending_chunk_size` of `handle_connection`. -/
structure ServerVars where
  /-- The size that chunks are cut with. -/
  chunkSize : ℕ
  /-- The last size that a message of this read has set. -/
  pendingChunkSize : Option ℕ
  deriving DecidableEq, Repr

/-- The read loop of `handle_connection`. An error of a handler leaves it, and then what
was decoded is the first of these messages. -/
def serverLoop : ReadLoop ServerVars where
  chunkSize vars := vars.chunkSize
  onMessage vars msg :=
    match handleControlMessage msg.payload msg.msgType with
    | none => vars
    | some newSize => { vars with pendingChunkSize := some newSize }
  afterRead vars :=
    match vars.pendingChunkSize with
    | none => vars
    | some newSize => { chunkSize := newSize, pendingChunkSize := none }

/-- The read loop of the puller. -/
def pullerLoop : ReadLoop ℕ where
  chunkSize size := size
  onMessage size msg := (handleControlMessage msg.payload msg.msgType).getD size
  afterRead size := size

/-- `chunk_size` before the first read. -/
def initialChunkSize : ℕ := 128

/-- The variables of the server before the first read. -/
def ServerVars.new : ServerVars := { chunkSize := initialChunkSize, pendingChunkSize := none }

/-- What the server decodes from the reads. -/
def serverMessages (reads : List (List UInt8)) : List RtmpMessage :=
  serverLoop.messages (.new, .new) [] reads

/-- What the puller decodes from the reads. -/
def pullerMessages (reads : List (List UInt8)) : List RtmpMessage :=
  pullerLoop.messages (initialChunkSize, .new) [] reads

/-! ## The size that a handler returns -/

/-- The new chunk size that the handling of a message returns. -/
def RtmpOutcome.newChunkSize : RtmpOutcome → Option ℕ
  | .done _ newChunkSize => newChunkSize
  | .failed => none
  | .panicked => none

namespace RtmpConnection

theorem newChunkSize_answer (writeOk : Bool) (replies : List RtmpReply) :
    (RtmpOutcome.answer writeOk replies).newChunkSize = none := by
  cases writeOk <;> rfl

theorem newChunkSize_publish (m : StreamManager) (conn : RtmpConnection)
    (args : List Amf0Value) (peerAddr : String) (writeOk : Bool) :
    (publish m conn args peerAddr writeOk).2.2.newChunkSize = none := by
  unfold publish
  dsimp only
  split
  · exact newChunkSize_answer _ _
  · cases writeOk <;> rfl

/-- A command sets no chunk size. -/
theorem newChunkSize_handleAmf0Command (m : StreamManager) (conn : RtmpConnection)
    (command : String) (args : List Amf0Value) (peerAddr : String) (writeOk : Bool) :
    (handleAmf0Command m conn command args peerAddr writeOk).2.2.newChunkSize = none := by
  unfold handleAmf0Command
  split
  case h_1 => exact newChunkSize_answer _ _
  case h_5 =>
    dsimp only [createStream]
    split
    · rfl
    · exact newChunkSize_answer _ _
  case h_6 => exact newChunkSize_publish _ _ _ _ _
  case h_7 => exact newChunkSize_answer _ _
  all_goals rfl

theorem newChunkSize_handleVideo {m m' : StreamManager} {conn conn' : RtmpConnection}
    {msg : RtmpMessage} {o : RtmpOutcome} (h : handleVideo m conn msg = some (m', conn', o)) :
    o.newChunkSize = none := by
  unfold handleVideo at h
  dsimp only at h
  split_ifs at h
  · cases h
    rfl
  · split at h <;> cases h <;> rfl
  · cases h
    rfl
  · split at h
    · cases h
      rfl
    · simp only [Option.map_eq_some_iff, Prod.mk.injEq] at h
      obtain ⟨_, _, _, _, rfl⟩ := h
      rfl
  · cases h
    rfl
  · cases h
    rfl

theorem newChunkSize_handleAudio {m m' : StreamManager} {conn conn' : RtmpConnection}
    {msg : RtmpMessage} {o : RtmpOutcome} (h : handleAudio m conn msg = some (m', conn', o)) :
    o.newChunkSize = none := by
  unfold handleAudio at h
  dsimp only at h
  split_ifs at h
  · cases h
    rfl
  · simp only [Option.map_eq_some_iff, Prod.mk.injEq] at h
    obtain ⟨_, _, _, _, rfl⟩ := h
    rfl
  · cases h
    rfl

/-- **The size a handler returns** is the one that the message sets. -/
theorem newChunkSize_handleRtmpMessage {m m' : StreamManager} {conn conn' : RtmpConnection}
    {msg : RtmpMessage} {peerAddr : String} {writeOk : Bool} {o : RtmpOutcome}
    (h : handleRtmpMessage m conn msg peerAddr writeOk = some (m', conn', o)) :
    o.newChunkSize = handleControlMessage msg.payload msg.msgType := by
  by_cases hcontrol : msg.msgType = 0x01
  · unfold handleRtmpMessage at h
    simp only [hcontrol] at h
    have ho : (conn.setChunkSize msg.payload).2 = o := congrArg (fun r => r.2.2) (Option.some.inj h)
    rw [← ho, hcontrol, setChunkSize, handleControlMessage]
    split_ifs <;> simp_all [RtmpOutcome.newChunkSize]
  · have hnone : handleControlMessage msg.payload msg.msgType = none :=
      if_neg fun h' => hcontrol h'.1
    rw [hnone]
    unfold handleRtmpMessage at h
    split_ifs at h
    · split at h
      · cases h
        rfl
      · next command args hparse =>
        have ho := newChunkSize_handleAmf0Command m conn command args peerAddr writeOk
        rw [Option.some.inj h] at ho
        exact ho
    · exact newChunkSize_handleVideo h
    · exact newChunkSize_handleAudio h
    · cases h
      rfl

end RtmpConnection

/-! ## Stream order -/

/-- The messages of the stream in its own order, as a parser decodes them that sees the
whole of it and cuts every chunk with the size that was set last. -/
def protocolMessages (stream : List UInt8) : List RtmpMessage :=
  (Incremental.drain pullerLoop.step (initialChunkSize, .new) stream).1

/-- The server's loop, if it cut every chunk with the size that was set last. -/
def inOrderLoop : ReadLoop ServerVars :=
  { serverLoop with chunkSize := fun vars => vars.pendingChunkSize.getD vars.chunkSize }

/-- At no chunk of the reads, taken in stream order, does it make a difference whether it is
cut with the pending size or with the one before. -/
def Settled (reads : List (List UInt8)) : Prop :=
  Incremental.AllFronts inOrderLoop.trackStep inOrderLoop.trackTouch
    (serverLoop.CutsLike inOrderLoop) (.new .new) [] reads

instance (reads : List (List UInt8)) : Decidable (Settled reads) :=
  inferInstanceAs (Decidable (Incremental.AllFronts _ _ _ _ _ _))

/-- A timestamp does not matter to the size that a message sets. -/
theorem onMessage_later (vars : ServerVars) (msg : RtmpMessage) (δ : UInt32) :
    serverLoop.onMessage vars (msg.later δ) = inOrderLoop.onMessage vars msg := rfl

/-- Messages without a drift are those of a parser that remembers nothing of an incomplete
chunk. -/
theorem eq_map_fst_of_driftFree {msgs : List RtmpMessage} {tracked : List (RtmpMessage × UInt32)}
    (h : List.Forall₂ (fun m m' => m = m'.1.later m'.2) msgs tracked)
    (hdrift : ∀ m ∈ tracked, m.2 = 0) : msgs = tracked.map Prod.fst := by
  induction h with
  | nil => rfl
  | cons hm _ ih =>
    rw [List.map_cons, ih fun m hm' => hdrift m (List.mem_cons_of_mem _ hm'), hm,
      RtmpMessage.later_eq_self.mpr (hdrift _ List.mem_cons_self)]

/-- The puller is in stream order where no message is completed with a drift. -/
theorem pullerMessages_eq_protocol {reads : List (List UInt8)}
    (hdrift : pullerLoop.DriftFree initialChunkSize reads) :
    pullerMessages reads = protocolMessages reads.flatten := by
  have htrack : List.Forall₂ (fun m m' => m = m'.1.later m'.2) (pullerMessages reads)
      (pullerLoop.tracked initialChunkSize reads) :=
    ReadLoop.messages_track (fun _ _ _ => rfl) rfl initialChunkSize reads
      (Incremental.allFronts_of_forall (fun _ _ => rfl) _ _ _)
  rw [eq_map_fst_of_driftFree htrack hdrift,
    ReadLoop.tracked_map_fst id (fun _ => rfl) (fun _ _ => rfl) (fun _ => rfl)]
  rfl

/-- The server is in stream order where nothing is cut by a size that is not its own, and no
message is completed with a drift. -/
theorem serverMessages_eq_protocol {reads : List (List UInt8)} (hsettled : Settled reads)
    (hdrift : inOrderLoop.DriftFree .new reads) :
    serverMessages reads = protocolMessages reads.flatten := by
  have htrack : List.Forall₂ (fun m m' => m = m'.1.later m'.2) (serverMessages reads)
      (inOrderLoop.tracked .new reads) :=
    ReadLoop.messages_track onMessage_later rfl .new reads hsettled
  rw [eq_map_fst_of_driftFree htrack hdrift, ReadLoop.tracked_map_fst
    (fun vars : ServerVars => vars.pendingChunkSize.getD vars.chunkSize)]
  · rfl
  · exact fun _ => rfl
  · intro vars msg
    dsimp only [pullerLoop, inOrderLoop, serverLoop]
    rcases handleControlMessage msg.payload msg.msgType with _ | newSize <;> rfl
  · intro vars
    dsimp only [inOrderLoop, serverLoop]
    rcases h : vars.pendingChunkSize with _ | newSize
    · simp [h]
    · rfl

/-- **Stream order**: where it makes no difference at any chunk whether a pending size is
applied, and no message is completed with a drift, the server decodes what the protocol
says. So does the puller from the same bytes, however they are cut into its reads. -/
theorem server_in_order {reads reads' : List (List UInt8)} (hbytes : reads'.flatten = reads.flatten)
    (hsettled : Settled reads) (hdrift : inOrderLoop.DriftFree .new reads)
    (hdrift' : pullerLoop.DriftFree initialChunkSize reads') :
    serverMessages reads = protocolMessages reads.flatten ∧
      pullerMessages reads' = serverMessages reads := by
  have hserver := serverMessages_eq_protocol hsettled hdrift
  have hpuller := pullerMessages_eq_protocol hdrift'
  rw [hbytes] at hpuller
  exact ⟨hserver, hpuller.trans hserver.symm⟩

/-- A `SetChunkSize` to 4. -/
def setSizeToFour : List UInt8 := [0x02, 0, 0, 0, 0, 0, 4, 0x01, 0, 0, 0, 0, 0, 0, 0, 4]

/-- A message of six bytes, in a chunk of four bytes and one of two. -/
def sixBytesByFour : List UInt8 :=
  [0x04, 0, 0, 0, 0, 0, 6, 0x09, 1, 0, 0, 0, 1, 2, 3, 4, 0xC4, 5, 6]

/-- The new size comes in a read of its own. -/
theorem server_in_order_of_two_reads :
    serverMessages [setSizeToFour, sixBytesByFour] =
        protocolMessages [setSizeToFour, sixBytesByFour].flatten ∧
      pullerMessages [setSizeToFour ++ sixBytesByFour] =
        serverMessages [setSizeToFour, sixBytesByFour] :=
  server_in_order (by decide) (by decide) (by decide) (by decide)

/-- In one read with the message: the message takes the header of its second chunk for a byte
of its own. -/
theorem server_not_in_order_of_one_read :
    serverMessages [setSizeToFour ++ sixBytesByFour] ≠
      protocolMessages (setSizeToFour ++ sixBytesByFour) := by
  decide

-- a wrong cut can come to the same messages: here every byte of the message is a header too
example : ¬ Settled [setSizeToFour ++ [0x03, 0, 0, 0, 0, 0, 6, 0x09, 1, 0, 0, 0] ++
      List.replicate 7 0xC3] ∧
    serverMessages [setSizeToFour ++ [0x03, 0, 0, 0, 0, 0, 6, 0x09, 1, 0, 0, 0] ++
      List.replicate 7 0xC3] =
      protocolMessages (setSizeToFour ++ [0x03, 0, 0, 0, 0, 0, 6, 0x09, 1, 0, 0, 0] ++
        List.replicate 7 0xC3) := by
  decide

end VcpMediaServer
