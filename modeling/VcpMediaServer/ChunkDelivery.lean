import VcpMediaServer.ChunkRoundTrip
import VcpMediaServer.ChunkSize

/-!
# Messages over a connection

What `encode_message` writes, and a connection that cuts it anywhere. The reader remembers the
header of a chunk that is not complete; a header of type 0 or 3 may be remembered **twice**, and
these are the ones that are written.

* `Ready.seeHeader` — what is remembered of an incomplete chunk does no harm.
* `ReadLoop.messages_interleaved` — a loop that goes on cutting with the size of the sender gets the
  messages, to the last byte, however the bytes are cut and the chunks of different chunk streams
  are interleaved.
* `delivered_interleaved` — the server and the puller do.
-/

namespace VcpMediaServer

open Incremental

variable {chunkSize csId : ℕ} {state : ChunkState} {chunks : List (List UInt8 × Option RtmpMessage)}
  {chunk : List UInt8 × Option RtmpMessage} {front : List UInt8}

/-- What is remembered of a part of a chunk: nothing, or the header that the whole chunk has. -/
theorem ChunkState.seeHeader_cases (state : ChunkState) {bytes : List UInt8}
    {raw header : ChunkHeader} {size : ℕ} (hraw : readChunkHeader bytes = some (raw, size))
    (hfront : front <+: bytes)
    (hresolve : raw.resolve (state.headers.lookup raw.chunkStreamId) = some header) :
    state.seeHeader front = state ∨
      (state.seeHeader front).headers.lookup raw.chunkStreamId = some header ∧
        (state.seeHeader front).assemblers = state.assemblers ∧
        ∀ csId, csId ≠ raw.chunkStreamId → SameAt csId state (state.seeHeader front) := by
  rcases h : readChunkHeader front with _ | r
  · exact .inl (seeHeader_of_read_none h)
  · obtain ⟨more, rfl⟩ := hfront
    have happend := readChunkHeader_append h more
    rw [hraw] at happend
    obtain rfl := Option.some.inj happend
    have hcs := ChunkHeader.resolve_chunkStreamId hresolve
    rw [seeHeader_of_resolve h hresolve]
    refine .inr ⟨?_, rfl, fun csId hne => ⟨?_, rfl⟩⟩
    · rw [← hcs]
      exact AList.lookup_insert _
    · exact AList.lookup_insert_ne (hcs ▸ hne)

/-- Nothing of a message is taken. -/
theorem ChunkState.assemblers_seeHeader (state : ChunkState) (buf : List UInt8) :
    (state.seeHeader buf).assemblers = state.assemblers := by
  unfold seeHeader
  split <;> rfl

theorem ChunkState.Idle.seeHeader (h : state.Idle csId) (buf : List UInt8) :
    (state.seeHeader buf).Idle csId := by
  rw [ChunkState.Idle, ChunkState.assemblers_seeHeader]
  exact h

/-- A later chunk has nothing but the type, and goes on with the header before it. -/
theorem ChunkState.InProgress.seeHeader {msg : RtmpMessage} {rest : List UInt8}
    (hmsg : Sendable csId msg) (h : state.InProgress csId msg rest) (hrest : rest ≠ [])
    (hfront : front <+: basicHeader .type3 csId (formOf csId) ++ rest.take chunkSize) :
    (state.seeHeader front).InProgress csId msg rest ∧
      ∀ csId', csId' ≠ csId → SameAt csId' state (state.seeHeader front) := by
  have hraw := readChunkHeader_encoded (formOf_fits hmsg.low (Nat.lt_succ_of_le hmsg.high))
    hmsg.length 0 .type3 (rest.take chunkSize)
  have hnone : messageHeader 0 msg .type3 ++
      (if ChunkFmt.type3.hasTimestamp then extendedTimestamp 0 else []) = [] := rfl
  rw [hnone, List.append_nil] at hraw
  obtain ⟨last, hlast, hdescribes⟩ := h.header
  have hresolve := @ChunkHeader.resolve_type3 (rawHeader csId 0 msg .type3) rfl last
  rw [← hlast] at hresolve
  rcases seeHeader_cases state hraw hfront hresolve with heq | ⟨hheader, hassemblers, hothers⟩
  · rw [heq]
    exact ⟨h, fun _ _ => ⟨rfl, rfl⟩⟩
  · refine ⟨⟨⟨_, hheader, ?_⟩, fun hnil => absurd hnil hrest, ?_⟩, hothers⟩
    · exact ⟨hdescribes.timestamp, hdescribes.msgLength, hdescribes.msgTypeId,
        hdescribes.msgStreamId⟩
    · rw [hassemblers]
      exact h.collecting

/-- The first chunk of a message has all of its header. -/
theorem ChunkState.sameAt_seeHeader_first {msg : RtmpMessage} (hmsg : Sendable csId msg)
    (hfront : front <+: basicHeader .type0 csId (formOf csId) ++
      (messageHeader msg.timestamp msg .type0 ++ extendedTimestamp msg.timestamp) ++
        msg.payload.take chunkSize) :
    ∀ csId', csId' ≠ csId → SameAt csId' state (state.seeHeader front) := by
  have hraw := readChunkHeader_encoded (formOf_fits hmsg.low (Nat.lt_succ_of_le hmsg.high))
    hmsg.length msg.timestamp .type0 (msg.payload.take chunkSize)
  rcases seeHeader_cases state hraw hfront (ChunkHeader.resolve_type0 rfl _) with
    heq | ⟨-, -, hothers⟩
  · rw [heq]
    exact fun _ _ => ⟨rfl, rfl⟩
  · exact hothers

/-- **What is remembered** of a part of the next chunk does no harm to any chunk stream. -/
theorem Ready.seeHeader (hpos : 0 < chunkSize) (h : Ready chunkSize state csId (chunk :: chunks))
    (hfront : front <+: chunk.1) :
    Ready chunkSize (state.seeHeader front) csId (chunk :: chunks) ∧
      ∀ csId', csId' ≠ csId → ChunkState.SameAt csId' state (state.seeHeader front) := by
  obtain ⟨msgs, hmsgs, ⟨hidle, hchunks⟩ | ⟨msg, rest, hmsg, hrest, hprogress, hchunks⟩⟩ := h
  · cases msgs with
    | nil => cases hchunks
    | cons msg msgs =>
      have hcons := hchunks
      rw [List.flatMap_cons, messageChunks,
        pieces_of_ne_nil hpos (hmsgs msg List.mem_cons_self).payload] at hcons
      obtain ⟨rfl, -⟩ := List.cons.inj hcons
      exact ⟨⟨_, hmsgs, .inl ⟨hidle.seeHeader front, hchunks⟩⟩,
        ChunkState.sameAt_seeHeader_first (hmsgs msg List.mem_cons_self) hfront⟩
  · have hcons := hchunks
    rw [pieces_of_ne_nil hpos hrest, laterChunks] at hcons
    obtain ⟨rfl, -⟩ := List.cons.inj hcons
    obtain ⟨hprogress', hothers⟩ := hprogress.seeHeader hmsg hrest hfront
    exact ⟨⟨msgs, hmsgs, .inr ⟨msg, rest, hmsg, hrest, hprogress', hchunks⟩⟩, hothers⟩

/-! ## However the bytes are cut -/

/-- Every message of a chunk stream is there to be sent on it. -/
theorem sendable_of_fromSource {sent : List (ℕ × RtmpMessage)}
    (hsent : ∀ p ∈ sent, Sendable p.1 p.2) (csId : ℕ) :
    ∀ msg ∈ fromSource sent csId, Sendable csId msg := by
  intro msg hmsg
  simp only [fromSource, List.mem_map, List.mem_filter, decide_eq_true_eq] at hmsg
  obtain ⟨p, ⟨hp, rfl⟩, rfl⟩ := hmsg
  exact hsent p hp

/-- What the chunks complete, chunk by chunk. -/
theorem flatMap_toList_eq_completions (chunks : List (ℕ × List UInt8 × Option RtmpMessage)) :
    (chunks.flatMap fun chunk => chunk.2.2.toList) = (completions chunks).map Prod.snd := by
  rw [completions, List.map_filterMap, ← List.filterMap_eq_flatMap_toList]
  congr 1
  funext chunk
  cases chunk.2.2 <;> rfl

/-- What is completed is what is sent, chunk stream by chunk stream. -/
theorem fromSource_completions_eq {sent : List (ℕ × RtmpMessage)} (hpos : 0 < chunkSize)
    (hsent : ∀ p ∈ sent, Sendable p.1 p.2) {chunks : List (ℕ × List UInt8 × Option RtmpMessage)}
    (hchunks : ∀ csId, fromSource chunks csId =
      (fromSource sent csId).flatMap (messageChunks chunkSize csId))
    (csId : ℕ) : fromSource (completions chunks) csId = fromSource sent csId := by
  rw [fromSource_completions, hchunks, List.filterMap_flatMap]
  conv_rhs => rw [← List.flatMap_singleton' (fromSource sent csId)]
  exact List.flatMap_congr fun msg hmsg =>
    messageChunks_completions hpos (sendable_of_fromSource hsent csId msg hmsg)

namespace ReadLoop

variable {κ : Type}

/-- The variables of a loop that goes on cutting with the size while it gets these messages. -/
structure Keeps (loop : ReadLoop κ) (chunkSize : ℕ) (I : κ → Prop) (msgs : List RtmpMessage) :
    Prop where
  size : ∀ vars, I vars → loop.chunkSize vars = chunkSize
  onMessage : ∀ vars, I vars → ∀ msg ∈ msgs, I (loop.onMessage vars msg)
  afterRead : ∀ vars, I vars → I (loop.afterRead vars)

variable {loop : ReadLoop κ} {I : κ → Prop} {msgs : List RtmpMessage}

theorem Keeps.afterChunk (h : loop.Keeps chunkSize I msgs) {vars : κ} (hI : I vars)
    {msg : Option RtmpMessage} (hmsg : ∀ m ∈ msg, m ∈ msgs) : I (loop.afterChunk vars msg) := by
  cases msg with
  | none => exact hI
  | some m => exact h.onMessage vars hI m (hmsg m rfl)

/-- Chunks that are still to come, of any chunk streams: the loop cuts them as they were cut. -/
structure Expects (I : κ → Prop) (msgs : List RtmpMessage) (chunkSize : ℕ) (s : κ × ChunkState)
    (l : List (ℕ × List UInt8 × Option RtmpMessage)) : Prop where
  vars : I s.1
  ready : ∀ csId, Ready chunkSize s.2 csId (fromSource l csId)
  among : ∀ chunk ∈ l, ∀ msg ∈ chunk.2.2, msg ∈ msgs

/-- The next chunk is taken. -/
theorem Keeps.take (h : loop.Keeps chunkSize I msgs) (hpos : 0 < chunkSize) {s : κ × ChunkState}
    {chunk : ℕ × List UInt8 × Option RtmpMessage} {l : List (ℕ × List UInt8 × Option RtmpMessage)}
    (hs : Expects I msgs chunkSize s (chunk :: l)) :
    ∃ s', Expects I msgs chunkSize s' l ∧
      ∀ more, loop.step s (chunk.2.1 ++ more) = some (s', more, chunk.2.2.toList) := by
  obtain ⟨csId, bytes, msg⟩ := chunk
  have hself := hs.ready csId
  rw [fromSource_cons_self] at hself
  obtain ⟨state', hready, hothers, htake⟩ := hself.take hpos
  refine ⟨(loop.afterChunk s.1 msg, state'), ⟨?_, fun csId' => ?_, ?_⟩, fun more => ?_⟩
  · exact h.afterChunk hs.vars (hs.among _ List.mem_cons_self)
  · by_cases hne : csId' = csId
    · rw [hne]
      exact hready
    · have hother := hs.ready csId'
      rw [fromSource_cons_ne hne] at hother
      exact hother.of_sameAt (hothers csId' hne)
  · exact fun chunk hchunk => hs.among chunk (List.mem_cons_of_mem _ hchunk)
  · refine loop.step_of_some ?_
    rw [h.size s.1 hs.vars]
    exact htake more

/-- What is remembered of a part of the next chunk does no harm. -/
theorem Keeps.touch (h : loop.Keeps chunkSize I msgs) (hpos : 0 < chunkSize) {s : κ × ChunkState}
    {chunk : ℕ × List UInt8 × Option RtmpMessage} {l : List (ℕ × List UInt8 × Option RtmpMessage)}
    (hs : Expects I msgs chunkSize s (chunk :: l)) {front : List UInt8}
    (hfront : front <+: chunk.2.1) :
    Expects I msgs chunkSize (loop.touch s front) (chunk :: l) := by
  obtain ⟨csId, bytes, msg⟩ := chunk
  have hself := hs.ready csId
  rw [fromSource_cons_self] at hself
  obtain ⟨hready, hothers⟩ := hself.seeHeader hpos hfront
  refine ⟨h.afterRead s.1 hs.vars, fun csId' => ?_, hs.among⟩
  by_cases hne : csId' = csId
  · rw [hne, fromSource_cons_self]
    exact hready
  · exact (hs.ready csId').of_sameAt (hothers csId' hne)

/-- **The messages of a loop** that goes on cutting with the size: however the chunks are
interleaved and however the bytes are cut, those that were sent. -/
theorem messages_interleaved (hpos : 0 < chunkSize) {sent : List (ℕ × RtmpMessage)}
    (hsent : ∀ p ∈ sent, Sendable p.1 p.2) (hloop : loop.Keeps chunkSize I (sent.map Prod.snd))
    {vars : κ} (hvars : I vars) {state : ChunkState} (hidle : ∀ csId, state.Idle csId)
    {chunks : List (ℕ × List UInt8 × Option RtmpMessage)}
    (hchunks : ∀ csId, fromSource chunks csId =
      (fromSource sent csId).flatMap (messageChunks chunkSize csId))
    {reads : List (List UInt8)} (hreads : reads.flatten = chunks.flatMap fun chunk => chunk.2.1) :
    loop.messages (vars, state) [] reads = (completions chunks).map Prod.snd := by
  have hamong : ∀ chunk ∈ chunks, ∀ msg ∈ chunk.2.2, msg ∈ sent.map Prod.snd := by
    intro chunk hchunk msg hmsg
    have hcompleted : (chunk.1, msg) ∈ completions chunks :=
      List.mem_filterMap.mpr ⟨chunk, hchunk, by rw [Option.mem_def.mp hmsg]; rfl⟩
    have hfrom : msg ∈ fromSource (completions chunks) chunk.1 :=
      List.mem_map.mpr ⟨_, List.mem_filter.mpr ⟨hcompleted, decide_eq_true rfl⟩, rfl⟩
    rw [fromSource_completions_eq hpos hsent hchunks] at hfrom
    obtain ⟨p, hp, rfl⟩ := List.mem_map.mp hfrom
    exact List.mem_map.mpr ⟨p, (List.mem_filter.mp hp).1, rfl⟩
  have hexpects : Expects I (sent.map Prod.snd) chunkSize (vars, state) chunks :=
    ⟨hvars, fun csId => ⟨_, sendable_of_fromSource hsent csId, .inl ⟨hidle csId, hchunks csId⟩⟩,
      hamong⟩
  rw [messages_eq_run, ← flatMap_toList_eq_completions]
  have htake : ∀ (s : κ × ChunkState) (chunk : ℕ × List UInt8 × Option RtmpMessage) l,
      Expects I (sent.map Prod.snd) chunkSize s (chunk :: l) →
        ∃ s', Expects I (sent.map Prod.snd) chunkSize s' l ∧
        ∀ more, loop.step s (chunk.2.1 ++ more) = some (s', more, chunk.2.2.toList) :=
    fun _ _ _ hs => hloop.take hpos hs
  exact run_encoded loop.step_consumes loop.step_extends htake
    (fun _ _ _ _ hs hfront => hloop.touch hpos hs hfront)
    (fun s hs => ⟨hloop.afterRead s.1 hs.vars, hs.ready, hs.among⟩) hexpects hreads

/-- The loop of the puller keeps the size, as long as it gets no other. -/
theorem keeps_puller (h : ∀ msg ∈ msgs, handleControlMessage msg.payload msg.msgType = none) :
    pullerLoop.Keeps chunkSize (· = chunkSize) msgs where
  size _ hvars := hvars
  onMessage vars hvars msg hmsg := by
    change (handleControlMessage msg.payload msg.msgType).getD vars = chunkSize
    rw [h msg hmsg]
    exact hvars
  afterRead _ hvars := hvars

/-- The loop of the server keeps the size, as long as no other is pending and it gets no other. -/
theorem keeps_server (h : ∀ msg ∈ msgs, handleControlMessage msg.payload msg.msgType = none) :
    serverLoop.Keeps chunkSize (· = { chunkSize, pendingChunkSize := none }) msgs where
  size := by
    rintro _ rfl
    rfl
  onMessage := by
    rintro _ rfl msg hmsg
    dsimp only [serverLoop]
    rw [h msg hmsg]
  afterRead := by
    rintro _ rfl
    rfl

end ReadLoop

/-- **Delivery**: messages that `encode_message` writes on any chunk streams, none of them a
`SetChunkSize`, are taken by the server and by the puller to the last byte, however the chunks are
interleaved and however the connection cuts the bytes. -/
theorem delivered_interleaved (hpos : 0 < chunkSize) {sent : List (ℕ × RtmpMessage)}
    (hsent : ∀ p ∈ sent, Sendable p.1 p.2)
    (hcontrol : ∀ p ∈ sent, handleControlMessage p.2.payload p.2.msgType = none)
    {chunks : List (ℕ × List UInt8 × Option RtmpMessage)}
    (hchunks : ∀ csId, fromSource chunks csId =
      (fromSource sent csId).flatMap (messageChunks chunkSize csId))
    {reads : List (List UInt8)} (hreads : reads.flatten = chunks.flatMap fun chunk => chunk.2.1) :
    (∀ csId, fromSource (completions chunks) csId = fromSource sent csId) ∧
      pullerLoop.messages (chunkSize, .new) [] reads = (completions chunks).map Prod.snd ∧
      serverLoop.messages ({ chunkSize, pendingChunkSize := none }, .new) [] reads =
        (completions chunks).map Prod.snd := by
  have hnone : ∀ msg ∈ sent.map Prod.snd, handleControlMessage msg.payload msg.msgType = none := by
    intro msg hmsg
    obtain ⟨p, hp, rfl⟩ := List.mem_map.mp hmsg
    exact hcontrol p hp
  have hidle : ∀ csId, ChunkState.new.Idle csId := by
    rintro csId assembler ⟨⟩
  exact ⟨fromSource_completions_eq hpos hsent hchunks,
    ReadLoop.messages_interleaved hpos hsent (ReadLoop.keeps_puller hnone) rfl hidle hchunks hreads,
    ReadLoop.messages_interleaved hpos hsent (ReadLoop.keeps_server hnone) rfl hidle hchunks hreads⟩

/-- Two chunk streams, and every read a byte. -/
theorem delivered_interleaved_bytewise :
    let chunks : List (ℕ × List UInt8 × Option RtmpMessage) :=
      [(3, [0x03, 0xFF, 0xFF, 0xFF, 0, 0, 3, 9, 1, 0, 0, 0, 1, 0, 0, 0, 1, 2], none),
        (4, [0x04, 0, 0, 40, 0, 0, 1, 8, 1, 0, 0, 0, 7], some ⟨8, 40, 1, [7]⟩),
        (3, [0xC3, 3], some ⟨9, 0x1000000, 1, [1, 2, 3]⟩)]
    pullerLoop.messages (2, .new) [] ((chunks.flatMap fun chunk => chunk.2.1).map ([·])) =
      [⟨8, 40, 1, [7]⟩, ⟨9, 0x1000000, 1, [1, 2, 3]⟩] := by
  intro chunks
  have hsent :
    ∀ p ∈ [((3 : ℕ), (⟨9, 0x1000000, 1, [1, 2, 3]⟩ : RtmpMessage)), (4, ⟨8, 40, 1, [7]⟩)],
      Sendable p.1 p.2 ∧ handleControlMessage p.2.payload p.2.msgType = none := by
    intro p hp
    simp only [List.mem_cons, List.not_mem_nil, or_false] at hp
    obtain rfl | rfl := hp
    · exact ⟨⟨by decide, by decide, by decide, by decide⟩, rfl⟩
    · exact ⟨⟨by decide, by decide, by decide, by decide⟩, rfl⟩
  have hvideo : messageChunks 2 3 ⟨9, 0x1000000, 1, [1, 2, 3]⟩ =
      [([0x03, 0xFF, 0xFF, 0xFF, 0, 0, 3, 9, 1, 0, 0, 0, 1, 0, 0, 0, 1, 2], none),
        ([0xC3, 3], some ⟨9, 0x1000000, 1, [1, 2, 3]⟩)] := by
    have hpieces : pieces 2 [1, 2, 3] = [[1, 2], [3]] := by simp [pieces]
    rw [messageChunks, hpieces]
    decide
  have haudio : messageChunks 2 4 ⟨8, 40, 1, [7]⟩ =
      [([0x04, 0, 0, 40, 0, 0, 1, 8, 1, 0, 0, 0, 7], some ⟨8, 40, 1, [7]⟩)] := by
    have hpieces : pieces 2 [7] = [[7]] := by simp [pieces]
    rw [messageChunks, hpieces]
    decide
  have hchunks : ∀ csId, fromSource chunks csId =
      (fromSource [((3 : ℕ), (⟨9, 0x1000000, 1, [1, 2, 3]⟩ : RtmpMessage)), (4, ⟨8, 40, 1, [7]⟩)]
        csId).flatMap
        (messageChunks 2 csId) := by
    intro csId
    by_cases h3 : csId = 3
    · simp [h3, chunks, fromSource, hvideo]
    · by_cases h4 : csId = 4
      · simp [h4, chunks, fromSource, haudio]
      · simp [chunks, fromSource, Ne.symm h3, Ne.symm h4]
  exact (delivered_interleaved
    (by decide) (fun p hp => (hsent p hp).1) (fun p hp => (hsent p hp).2) hchunks
    (List.flatMap_singleton' _)).2.1

/-! ## Sizes that are announced -/

/-- The size behind a message. -/
def sizeAfter (size : ℕ) (msg : RtmpMessage) : ℕ :=
  (handleControlMessage msg.payload msg.msgType).getD size

/-- The chunks of messages that are sent **one after the other**, all cut with the size that was
announced last. -/
def announced : ℕ → List (ℕ × RtmpMessage) → List (List UInt8 × Option RtmpMessage)
  | _, [] => []
  | size, (csId, msg) :: sent => messageChunks size csId msg ++ announced (sizeAfter size msg) sent

/-- What a sender may send so. -/
structure Announceable (p : ℕ × RtmpMessage) : Prop where
  sendable : Sendable p.1 p.2
  size : ∀ n ∈ handleControlMessage p.2.payload p.2.msgType, 0 < n

theorem Announceable.sizeAfter_pos {p : ℕ × RtmpMessage} (h : Announceable p) {size : ℕ}
    (hpos : 0 < size) :
    0 < sizeAfter size p.2 := by
  rw [sizeAfter]
  cases hcontrol : handleControlMessage p.2.payload p.2.msgType with
  | none => exact hpos
  | some n => exact h.size n hcontrol

theorem announced_completions {sent : List (ℕ × RtmpMessage)} (hsent : ∀ p ∈ sent, Announceable p)
    {size : ℕ} (hpos : 0 < size) : (announced size sent).flatMap (fun chunk => chunk.2.toList) =
    sent.map Prod.snd := by
  induction sent generalizing size with
  | nil => rfl
  | cons p sent ih =>
    obtain ⟨hp, hsent⟩ := List.forall_mem_cons.mp hsent
    rw [announced, List.flatMap_append, ih hsent (hp.sizeAfter_pos hpos),
      ← List.filterMap_eq_flatMap_toList, messageChunks_completions hpos hp.sendable]
    rfl

/-- What the puller is still to read: messages, behind the rest of one that has begun. -/
def Expected (s : ℕ × ChunkState) (l : List (List UInt8 × Option RtmpMessage)) : Prop :=
  ∃ sent, (∀ p ∈ sent, Announceable p) ∧ 0 < s.1 ∧
    (((∀ csId, s.2.Idle csId) ∧ l = announced s.1 sent) ∨
      ∃ csId msg rest, Announceable (csId, msg) ∧ rest ≠ [] ∧ s.2.InProgress csId msg rest ∧
        (∀ csId', csId' ≠ csId → s.2.Idle csId') ∧
        l = laterChunks csId msg (pieces s.1 rest) ++ announced (sizeAfter s.1 msg) sent)

/-- A part of a message has been taken. -/
theorem Expected.of_inProgress {size : ℕ} (hpos : 0 < size) {msg : RtmpMessage} {rest : List UInt8}
    {sent : List (ℕ × RtmpMessage)} (hmsg : Announceable (csId, msg))
    (hsent : ∀ p ∈ sent, Announceable p) (h : state.InProgress csId msg rest)
    (hothers : ∀ csId', csId' ≠ csId → state.Idle csId') :
    Expected (pullerLoop.afterChunk size (msg.completed rest), state)
      (laterChunks csId msg (pieces size rest) ++ announced (sizeAfter size msg) sent) := by
  have hne : msg.payload ≠ [] := hmsg.sendable.payload
  by_cases hrest : rest = []
  · have hidle : ∀ csId', state.Idle csId' := by
      intro csId'
      by_cases hcs : csId' = csId
      · rw [hcs]
        exact h.idle hrest
      · exact hothers csId' hcs
    rw [RtmpMessage.completed, if_pos ⟨hrest, hne⟩, hrest, pieces_nil, laterChunks, List.nil_append]
    exact ⟨sent, hsent, hmsg.sizeAfter_pos hpos, .inl ⟨hidle, rfl⟩⟩
  · rw [RtmpMessage.completed, if_neg fun hc => hrest hc.1]
    exact ⟨sent, hsent, hpos, .inr ⟨csId, msg, rest, hmsg, hrest, h, hothers, rfl⟩⟩

/-- **The next chunk** is taken. -/
theorem Expected.take {s : ℕ × ChunkState} (h : Expected s (chunk :: chunks)) :
    ∃ s', Expected s' chunks ∧ ∀ more, pullerLoop.step s (chunk.1 ++ more) =
        some (s', more, chunk.2.toList) := by
  obtain ⟨size, state⟩ := s
  obtain ⟨sent, hsent, hpos,
    ⟨hidle, hl⟩ | ⟨csId, msg, rest, hmsg, hrest, hprogress, hothers, hl⟩⟩ := h
  · cases sent with
    | nil => cases hl
    | cons p sent =>
      obtain ⟨csId, msg⟩ := p
      obtain ⟨hmsg, hsent⟩ := List.forall_mem_cons.mp hsent
      have hraw :=
        readChunkHeader_encoded
        (formOf_fits hmsg.sendable.low (Nat.lt_succ_of_le hmsg.sendable.high))
        hmsg.sendable.length msg.timestamp .type0 (msg.payload.take size)
      obtain ⟨state', hprogress, hsame, htake⟩ := ChunkState.takeChunk_first hraw (hidle csId)
        (ChunkHeader.resolve_type0 rfl _) ⟨rfl, rfl, rfl, rfl⟩
      rw [announced, messageChunks, pieces_of_ne_nil hpos hmsg.sendable.payload] at hl
      obtain ⟨rfl, rfl⟩ := List.cons.inj hl
      refine ⟨_, Expected.of_inProgress hpos hmsg hsent hprogress fun csId' hne =>
        (hidle csId').of_sameAt (hsame csId' hne), fun more => ?_⟩
      rw [← Ready.completed_eq hmsg.sendable]
      exact pullerLoop.step_of_some (htake more)
  · have hraw :=
      readChunkHeader_encoded (formOf_fits hmsg.sendable.low (Nat.lt_succ_of_le hmsg.sendable.high))
      hmsg.sendable.length 0 .type3 (rest.take size)
    have hnone : messageHeader 0 msg .type3 ++
        (if ChunkFmt.type3.hasTimestamp then extendedTimestamp 0 else []) = [] := rfl
    rw [hnone, List.append_nil] at hraw
    obtain ⟨state', hprogress', hsame, htake⟩ := ChunkState.takeChunk_next hraw rfl hprogress hrest
    rw [pieces_of_ne_nil hpos hrest, laterChunks] at hl
    obtain ⟨rfl, rfl⟩ := List.cons.inj hl
    refine ⟨_, Expected.of_inProgress hpos hmsg hsent hprogress' fun csId' hne =>
      (hothers csId' hne).of_sameAt (hsame csId' hne), fun more => ?_⟩
    rw [← Ready.completed_eq hmsg.sendable]
    exact pullerLoop.step_of_some (htake more)

/-- What is remembered of a part of the next chunk does no harm. -/
theorem Expected.touch {s : ℕ × ChunkState} (h : Expected s (chunk :: chunks))
    (hfront : front <+: chunk.1) :
    Expected (pullerLoop.touch s front) (chunk :: chunks) := by
  obtain ⟨sent, hsent, hpos,
    ⟨hidle, hl⟩ | ⟨csId, msg, rest, hmsg, hrest, hprogress, hothers, hl⟩⟩ := h
  · exact ⟨sent, hsent, hpos, .inl ⟨fun csId => (hidle csId).seeHeader front, hl⟩⟩
  · have hcons := hl
    rw [pieces_of_ne_nil hpos hrest, laterChunks] at hcons
    obtain ⟨rfl, -⟩ := List.cons.inj hcons
    obtain ⟨hprogress', -⟩ := hprogress.seeHeader hmsg.sendable hrest hfront
    exact ⟨sent, hsent, hpos, .inr ⟨csId, msg, rest, hmsg, hrest, hprogress',
      fun csId' hne => (hothers csId' hne).seeHeader front, hl⟩⟩

/-- **A connection**: the puller reads the messages of a sender that cuts each with the size it has
announced last. Of a part of the bytes, however it is cut, it reads the first of them. -/
theorem delivered_announced {size : ℕ} (hpos : 0 < size) (hidle : ∀ csId, state.Idle csId)
    {sent : List (ℕ × RtmpMessage)} (hsent : ∀ p ∈ sent, Announceable p) {reads : List (List UInt8)}
    (hreads : reads.flatten <+: (announced size sent).flatMap Prod.fst) :
    pullerLoop.messages (size, state) [] reads <+: sent.map Prod.snd ∧
      (reads.flatten = (announced size sent).flatMap Prod.fst →
        pullerLoop.messages (size, state) [] reads = sent.map Prod.snd) := by
  have hexpected : Expected (size, state) (announced size sent) :=
    ⟨sent, hsent, hpos, .inl ⟨hidle, rfl⟩⟩
  have hend : ∀ s, Expected s [] → Expected (pullerLoop.touch s []) [] := by
    rintro s ⟨sent, hsent, hpos, ⟨hidle, hl⟩ | ⟨csId, msg, rest, -, hrest, -, -, hl⟩⟩
    · exact ⟨sent, hsent, hpos, .inl ⟨fun csId => (hidle csId).seeHeader [], hl⟩⟩
    · rw [pieces_of_ne_nil hpos hrest] at hl
      cases hl
  rw [ReadLoop.messages_eq_run, ← announced_completions hsent hpos]
  exact ⟨run_encoded_part pullerLoop.step_consumes pullerLoop.step_extends (fun _ _ _ hs => hs.take)
      (fun _ _ _ _ hs hfront => hs.touch hfront) hend hexpected hreads,
    run_encoded pullerLoop.step_consumes pullerLoop.step_extends (fun _ _ _ hs => hs.take)
      (fun _ _ _ _ hs hfront => hs.touch hfront) hend hexpected⟩

end VcpMediaServer
