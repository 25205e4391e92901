import VcpMediaServer.RtmpChunk

/-!
# Chunk reassembly

Does it matter how the stream was cut into reads? `parse_chunks` remembers the
header of a chunk **before** its payload is complete. When more of the payload
has arrived the header is parsed again, against itself; that is harmless for
types 0 and 3, but the timestamp of types 1 and 2 is a delta, and it is **added
again** by every read that ends inside the payload.

* `Tracked` — a parser that remembers nothing of an incomplete chunk, and counts
  apart how far the code's timestamps are ahead: the **drift** of a chunk stream.
* `ReadLoop.messages_track` — the code's messages are those of the tracked parser, each
  later by the drift of its chunk stream.
* `reassemble_eq_iff` — so the messages do not depend on the reads exactly if no
  message is completed with a drift.
-/

namespace VcpMediaServer

/-! ## Headers that are ahead -/

namespace ChunkHeader

/-- The header is ahead of the other by `δ`, and tells the same otherwise. -/
structure Ahead (δ : UInt32) (header header' : ChunkHeader) : Prop where
  /-- The timestamp is later by `δ`. -/
  timestamp : header.timestamp = header'.timestamp + δ
  /-- The message has the same length. -/
  msgLength : header.msgLength = header'.msgLength
  /-- The message has the same type. -/
  msgTypeId : header.msgTypeId = header'.msgTypeId
  /-- The message goes to the same message stream. -/
  msgStreamId : header.msgStreamId = header'.msgStreamId

/-- What is left of a drift when a chunk with this header is taken: a header of
type 0 has a timestamp of its own. -/
def shift (raw : ChunkHeader) (δ : UInt32) : UInt32 := if raw.fmt = .type0 then 0 else δ

/-- What the drift grows by when this header, as it stands in the buffer, is
remembered and its chunk is not taken. -/
def delta (raw : ChunkHeader) : UInt32 :=
  if raw.fmt = .type1 ∨ raw.fmt = .type2 then raw.timestamp else 0

theorem resolve_type0 {raw : ChunkHeader} (hf : raw.fmt = .type0) (last : Option ChunkHeader) :
    raw.resolve last = some raw := by
  simp [resolve, hf]

theorem resolve_none {raw : ChunkHeader} (hf : raw.fmt ≠ .type0) : raw.resolve none = none := by
  unfold resolve
  rcases h : raw.fmt with _ | _ | _ | _
  · exact absurd h hf
  all_goals rfl

theorem resolve_chunkStreamId {raw header : ChunkHeader} {last : Option ChunkHeader}
    (h : raw.resolve last = some header) : header.chunkStreamId = raw.chunkStreamId := by
  unfold resolve at h
  split at h <;> cases h <;> rfl

/-- A header is ahead when the last one of its chunk stream was. -/
theorem resolve_ahead {δ : UInt32} {last last' : Option ChunkHeader} (raw : ChunkHeader)
    (h : Option.Rel (Ahead δ) last last') :
    Option.Rel (Ahead (raw.shift δ)) (raw.resolve last) (raw.resolve last') := by
  by_cases hf : raw.fmt = .type0
  · rw [resolve_type0 hf, resolve_type0 hf, shift, if_pos hf]
    exact .some ⟨by simp, rfl, rfl, rfl⟩
  rw [shift, if_neg hf]
  cases h with
  | none =>
    rw [resolve_none hf]
    exact .none
  | some h =>
    unfold resolve
    rcases hf' : raw.fmt with _ | _ | _ | _
    · exact absurd hf' hf
    all_goals
      exact .some ⟨by simp [h.timestamp, UInt32.add_assoc], by simp [h.msgLength],
        by simp [h.msgTypeId], by simp [h.msgStreamId]⟩

/-- A header that was remembered and is parsed **again** is ahead by its delta more. -/
theorem resolve_again {δ : UInt32} {raw header : ChunkHeader} {last last' : Option ChunkHeader}
    (hseen : raw.resolve last = some header)
    (h : Option.Rel (Ahead (raw.shift δ)) (raw.resolve last) (raw.resolve last')) :
    Option.Rel (Ahead (raw.shift (δ + raw.delta))) (raw.resolve (some header))
      (raw.resolve last') := by
  by_cases hf : raw.fmt = .type0
  · rw [resolve_type0 hf, resolve_type0 hf, shift, if_pos hf]
    exact .some ⟨by simp, rfl, rfl, rfl⟩
  rw [shift, if_neg hf] at h ⊢
  rcases last' with _ | last'
  · -- there is nothing to be ahead of
    rw [hseen, resolve_none hf] at h
    cases h
  rw [hseen] at h
  unfold resolve at h ⊢
  unfold delta
  rcases hf' : raw.fmt with _ | _ | _ | _ <;> rw [hf'] at h
  · exact absurd hf' hf
  all_goals
    cases h with
    | some h =>
      have hts := h.timestamp
      refine .some ⟨?_, by simp [h.msgLength], by simp [h.msgTypeId], by simp [h.msgStreamId]⟩
      simp only [hts, reduceCtorEq, or_true, or_false, if_true, if_false]
      ac_rfl

end ChunkHeader

/-! ## Messages that are later -/

/-- The message, later by `δ`. -/
def RtmpMessage.later (msg : RtmpMessage) (δ : UInt32) : RtmpMessage :=
  { msg with timestamp := msg.timestamp + δ }

namespace ChunkAssembler

/-- What has arrived, without the timestamp. -/
def untimed (assembler : ChunkAssembler) : ChunkAssembler := { assembler with timestamp := 0 }

/-- A chunk whose header is ahead: what has arrived is the same, and a message that it
completes is later. -/
theorem extend_ahead {δ : UInt32} {header header' : ChunkHeader}
    {assembler assembler' : ChunkAssembler} (h : header.Ahead δ header')
    (ha : assembler.untimed = assembler'.untimed) (data : List UInt8) :
    (assembler.extend header data).1.untimed = (assembler'.extend header' data).1.untimed ∧
      (assembler.extend header data).2 =
        (assembler'.extend header' data).2.map (·.later δ) := by
  obtain ⟨hts, hlen, htype, hsid⟩ := h
  simp only [untimed, mk.injEq] at ha
  obtain ⟨-, -, -, -, hreceived, hbuffer⟩ := ha
  unfold extend
  dsimp only
  rw [hts, hlen, htype, hsid, hreceived, hbuffer]
  split_ifs
  · exact ⟨rfl, rfl⟩
  · exact ⟨rfl, rfl⟩

theorem untimed_getD {o o' : Option ChunkAssembler} (h : o.map untimed = o'.map untimed) :
    (o.getD .default).untimed = (o'.getD .default).untimed := by
  cases o <;> cases o' <;> simp_all

end ChunkAssembler

/-! ## Two states at one buffer -/

namespace ChunkState

variable {chunkSize : ℕ} {state state' : ChunkState} {buf : List UInt8}
  {raw header header' : ChunkHeader} {headerSize : ℕ}

theorem takeChunk_of_read_none (hraw : readChunkHeader buf = none) :
    state.takeChunk chunkSize buf = none := by
  simp [takeChunk, parseChunkHeader, hraw]

theorem takeChunk_of_resolve_none (hraw : readChunkHeader buf = some (raw, headerSize))
    (h : raw.resolve (state.headers.lookup raw.chunkStreamId) = none) :
    state.takeChunk chunkSize buf = none := by
  simp [takeChunk, parseChunkHeader, hraw, h]

/-- The turn of a chunk whose header is complete. -/
theorem takeChunk_of_resolve (hraw : readChunkHeader buf = some (raw, headerSize))
    (h : raw.resolve (state.headers.lookup raw.chunkStreamId) = some header) :
    state.takeChunk chunkSize buf =
      if buf.length < headerSize + min chunkSize (state.remainingMsg header) then none
      else
        some ({ assemblers := state.assemblers.insert header.chunkStreamId
                  (((state.assemblers.lookup header.chunkStreamId).getD .default).extend header
                    (slice buf headerSize (min chunkSize (state.remainingMsg header)))).1
                headers := state.headers.insert header.chunkStreamId header },
          buf.drop (headerSize + min chunkSize (state.remainingMsg header)),
          (((state.assemblers.lookup header.chunkStreamId).getD .default).extend header
            (slice buf headerSize (min chunkSize (state.remainingMsg header)))).2) := by
  simp [takeChunk, parseChunkHeader, hraw, h]

/-- The code's state beside that of a parser that remembers nothing of an incomplete chunk.
The last headers are ahead by the drifts, but not that of the chunk stream at the **front**:
it may be the front's own header, and then it is what the front's header becomes that is
ahead. -/
structure Follows (drift : ℕ → UInt32) (buf : List UInt8) (state state' : ChunkState) : Prop where
  /-- The same has arrived of the messages. -/
  assemblers : ∀ csId, (state.assemblers.lookup csId).map ChunkAssembler.untimed =
    (state'.assemblers.lookup csId).map ChunkAssembler.untimed
  /-- The last headers of the other chunk streams. -/
  others : ∀ csId, (∀ raw size, readChunkHeader buf = some (raw, size) →
      raw.chunkStreamId ≠ csId) →
    Option.Rel (ChunkHeader.Ahead (drift csId)) (state.headers.lookup csId)
      (state'.headers.lookup csId)
  /-- The header at the front. -/
  front : ∀ raw size, readChunkHeader buf = some (raw, size) →
    Option.Rel (ChunkHeader.Ahead (raw.shift (drift raw.chunkStreamId)))
      (raw.resolve (state.headers.lookup raw.chunkStreamId))
      (raw.resolve (state'.headers.lookup raw.chunkStreamId))

/-- All the last headers are ahead: whatever is at the front. -/
theorem Follows.of_all {drift : ℕ → UInt32}
    (hassemblers : ∀ csId, (state.assemblers.lookup csId).map ChunkAssembler.untimed =
      (state'.assemblers.lookup csId).map ChunkAssembler.untimed)
    (hheaders : ∀ csId, Option.Rel (ChunkHeader.Ahead (drift csId)) (state.headers.lookup csId)
      (state'.headers.lookup csId)) (buf : List UInt8) : Follows drift buf state state' :=
  ⟨hassemblers, fun csId _ => hheaders csId,
    fun raw _ _ => raw.resolve_ahead (hheaders raw.chunkStreamId)⟩

/-- More of the stream arrives. -/
theorem Follows.append {drift : ℕ → UInt32} (h : Follows drift buf state state')
    (more : List UInt8) : Follows drift (buf ++ more) state state' := by
  rcases hraw : readChunkHeader buf with _ | ⟨raw, size⟩
  · refine Follows.of_all h.assemblers (fun csId => h.others csId ?_) (buf ++ more)
    intro raw size h'
    rw [hraw] at h'
    cases h'
  · have happend := readChunkHeader_append hraw more
    refine ⟨h.assemblers, ?_, ?_⟩
    · intro csId hne
      refine h.others csId fun raw' size' h' => hne raw' size' ?_
      rw [hraw] at h'
      rw [happend, h']
    · intro raw' size' h'
      rw [happend] at h'
      cases h'
      exact h.front raw size hraw

theorem remainingMsg_congr (hcs : header.chunkStreamId = header'.chunkStreamId)
    (hlen : header.msgLength = header'.msgLength)
    (ha : (state.assemblers.lookup header.chunkStreamId).map ChunkAssembler.untimed =
      (state'.assemblers.lookup header.chunkStreamId).map ChunkAssembler.untimed) :
    state.remainingMsg header = state'.remainingMsg header' := by
  unfold remainingMsg
  rw [← hcs, hlen]
  rcases h : state.assemblers.lookup header.chunkStreamId with _ | a <;>
    rcases h' : state'.assemblers.lookup header.chunkStreamId with _ | a' <;>
    rw [h, h'] at ha
  · cases ha
  · cases ha
  · simp only [Option.map_some, Option.some.injEq, ChunkAssembler.untimed,
      ChunkAssembler.mk.injEq] at ha
    obtain ⟨-, hmsg, -, -, hreceived, -⟩ := ha
    simp only [hmsg, hreceived]

/-- The drifts after a chunk with this header is taken. -/
def driftAfter (drift : ℕ → UInt32) (raw : ChunkHeader) : ℕ → UInt32 :=
  Function.update drift raw.chunkStreamId (raw.shift (drift raw.chunkStreamId))

/-- The drifts after a chunk with this header is not taken. -/
def driftAtStop (drift : ℕ → UInt32) (raw : ChunkHeader) : ℕ → UInt32 :=
  Function.update drift raw.chunkStreamId (drift raw.chunkStreamId + raw.delta)

/-- The chunk at the front is complete for both or for neither. -/
theorem Follows.takeChunk_eq_none_iff {drift : ℕ → UInt32} (h : Follows drift buf state state') :
    state.takeChunk chunkSize buf = none ↔ state'.takeChunk chunkSize buf = none := by
  rcases hraw : readChunkHeader buf with _ | ⟨raw, size⟩
  · rw [takeChunk_of_read_none hraw, takeChunk_of_read_none hraw]
  have hfront := h.front raw size hraw
  rcases hr : raw.resolve (state.headers.lookup raw.chunkStreamId) with _ | header <;>
    rcases hr' : raw.resolve (state'.headers.lookup raw.chunkStreamId) with _ | header' <;>
    rw [hr, hr'] at hfront
  · rw [takeChunk_of_resolve_none hraw hr, takeChunk_of_resolve_none hraw hr']
  · cases hfront
  · cases hfront
  · cases hfront with
    | some hahead =>
      have hcs := ChunkHeader.resolve_chunkStreamId hr
      have hcs' := ChunkHeader.resolve_chunkStreamId hr'
      rw [takeChunk_of_resolve hraw hr, takeChunk_of_resolve hraw hr',
        remainingMsg_congr (hcs.trans hcs'.symm) hahead.msgLength (h.assemblers _)]
      split_ifs <;> simp

/-- A chunk that both take: the same comes off the buffer, and the message is later by what
is left of the drift. -/
theorem Follows.takeChunk {drift : ℕ → UInt32} {state₁ state₂ : ChunkState}
    {rest rest' : List UInt8} {msg msg' : Option RtmpMessage} (h : Follows drift buf state state')
    (hraw : readChunkHeader buf = some (raw, headerSize))
    (ht : state.takeChunk chunkSize buf = some (state₁, rest, msg))
    (ht' : state'.takeChunk chunkSize buf = some (state₂, rest', msg')) :
    rest = rest' ∧ msg = msg'.map (·.later (raw.shift (drift raw.chunkStreamId))) ∧
      Follows (driftAfter drift raw) rest state₁ state₂ := by
  have hfront := h.front raw headerSize hraw
  rcases hr : raw.resolve (state.headers.lookup raw.chunkStreamId) with _ | header
  · rw [takeChunk_of_resolve_none hraw hr] at ht
    cases ht
  rcases hr' : raw.resolve (state'.headers.lookup raw.chunkStreamId) with _ | header'
  · rw [takeChunk_of_resolve_none hraw hr'] at ht'
    cases ht'
  rw [hr, hr'] at hfront
  cases hfront with
  | some hahead =>
    have hcs := ChunkHeader.resolve_chunkStreamId hr
    have hcs' := ChunkHeader.resolve_chunkStreamId hr'
    have hn := remainingMsg_congr (hcs.trans hcs'.symm) hahead.msgLength (h.assemblers _)
    rw [takeChunk_of_resolve hraw hr, hn, hcs] at ht
    rw [takeChunk_of_resolve hraw hr', hcs'] at ht'
    set n := min chunkSize (state'.remainingMsg header') with hndef
    obtain ⟨ha, hmsg⟩ := ChunkAssembler.extend_ahead hahead
      (ChunkAssembler.untimed_getD (h.assemblers raw.chunkStreamId)) (slice buf headerSize n)
    split_ifs at ht ht'
    simp only [Option.some.injEq, Prod.mk.injEq] at ht ht'
    obtain ⟨rfl, rfl, rfl⟩ := ht
    obtain ⟨rfl, rfl, rfl⟩ := ht'
    refine ⟨rfl, hmsg, Follows.of_all (fun csId => ?_) (fun csId => ?_) _⟩
    · by_cases heq : csId = raw.chunkStreamId
      · subst heq
        simp [ha]
      · dsimp only
        rw [AList.lookup_insert_ne heq, AList.lookup_insert_ne heq, h.assemblers csId]
    · by_cases heq : csId = raw.chunkStreamId
      · subst heq
        rw [driftAfter, Function.update_self, AList.lookup_insert, AList.lookup_insert]
        exact .some hahead
      · rw [driftAfter, Function.update_of_ne heq, AList.lookup_insert_ne heq,
          AList.lookup_insert_ne heq]
        refine h.others csId fun raw' size' h' => ?_
        rw [hraw] at h'
        cases h'
        exact fun h => heq h.symm

theorem seeHeader_of_resolve (hraw : readChunkHeader buf = some (raw, headerSize))
    (h : raw.resolve (state.headers.lookup raw.chunkStreamId) = some header) :
    state.seeHeader buf =
      { state with headers := state.headers.insert header.chunkStreamId header } := by
  simp [seeHeader, parseChunkHeader, hraw, h]

theorem seeHeader_of_resolve_none (hraw : readChunkHeader buf = some (raw, headerSize))
    (h : raw.resolve (state.headers.lookup raw.chunkStreamId) = none) :
    state.seeHeader buf = state := by
  simp [seeHeader, parseChunkHeader, hraw, h]

theorem seeHeader_of_read_none (hraw : readChunkHeader buf = none) :
    state.seeHeader buf = state := by
  simp [seeHeader, parseChunkHeader, hraw]

/-- A header that only the code remembers: the drift grows by its delta. -/
theorem Follows.seeHeader {drift : ℕ → UInt32} (h : Follows drift buf state state')
    (hraw : readChunkHeader buf = some (raw, headerSize)) :
    Follows (driftAtStop drift raw) buf (state.seeHeader buf) state' := by
  have hfront := h.front raw headerSize hraw
  have hothers : ∀ csId, csId ≠ raw.chunkStreamId →
      Option.Rel (ChunkHeader.Ahead (driftAtStop drift raw csId)) (state.headers.lookup csId)
        (state'.headers.lookup csId) := by
    intro csId hne
    rw [driftAtStop, Function.update_of_ne hne]
    refine h.others csId fun raw' size' h' => ?_
    rw [hraw] at h'
    cases h'
    exact hne.symm
  rcases hr : raw.resolve (state.headers.lookup raw.chunkStreamId) with _ | header
  · -- the chunk stream has no header to continue, and never gets one
    rw [seeHeader_of_resolve_none hraw hr]
    refine ⟨h.assemblers, fun csId hne => hothers csId (hne raw headerSize hraw).symm, ?_⟩
    intro raw' size' h'
    rw [hraw] at h'
    cases h'
    rw [hr] at hfront ⊢
    rcases hr' : raw.resolve (state'.headers.lookup raw.chunkStreamId) with _ | header'
    · exact .none
    · rw [hr'] at hfront
      cases hfront
  · have hcs := ChunkHeader.resolve_chunkStreamId hr
    rw [seeHeader_of_resolve hraw hr, hcs]
    refine ⟨h.assemblers, fun csId hne => ?_, ?_⟩
    · have hne := (hne raw headerSize hraw).symm
      rw [AList.lookup_insert_ne hne]
      exact hothers csId hne
    · intro raw' size' h'
      rw [hraw] at h'
      cases h'
      rw [AList.lookup_insert, driftAtStop, Function.update_self]
      exact ChunkHeader.resolve_again hr hfront

/-- The size of the payload of the chunk at the front, if the chunk is complete. -/
def payloadSize (chunkSize : ℕ) (state : ChunkState) (buf : List UInt8) : Option ℕ :=
  match parseChunkHeader buf state.headers with
  | none => none
  | some (header, headerSize, _) =>
    let dataSize := min chunkSize (state.remainingMsg header)
    if buf.length < headerSize + dataSize then none else some dataSize

/-- Two chunk sizes that cut the front the same. -/
theorem takeChunk_congr {chunkSize' : ℕ}
    (h : state.payloadSize chunkSize buf = state.payloadSize chunkSize' buf) :
    state.takeChunk chunkSize buf = state.takeChunk chunkSize' buf := by
  unfold payloadSize at h
  unfold takeChunk
  rcases hp : parseChunkHeader buf state.headers with _ | ⟨header, headerSize, headers⟩
  · rfl
  rw [hp] at h
  dsimp only at h ⊢
  split_ifs at h ⊢
  · rfl
  · rw [Option.some.inj h]

end ChunkState

/-! ## The tracked parser -/

namespace ReadLoop

variable {κ : Type}

/-- A read loop that remembers nothing of an incomplete chunk, and the drifts beside it. -/
structure Tracked (κ : Type) where
  /-- The variables of the loop. -/
  vars : κ
  /-- The state of the parser. -/
  state : ChunkState
  /-- How far the code is ahead, for each chunk stream. -/
  drift : ℕ → UInt32

/-- Before the first read. -/
def Tracked.new (vars : κ) : Tracked κ := { vars, state := .new, drift := fun _ => 0 }

/-- A chunk is taken. The message that it completes has what is left of the drift. -/
def trackStep (loop : ReadLoop κ) (t : Tracked κ) (buf : List UInt8) :
    Option (Tracked κ × List UInt8 × List (RtmpMessage × UInt32)) :=
  match readChunkHeader buf, t.state.takeChunk (loop.chunkSize t.vars) buf with
  | some (raw, _), some (state, rest, msg) =>
    some ({ vars := loop.afterChunk t.vars msg, state
            drift := ChunkState.driftAfter t.drift raw },
      rest, msg.toList.map fun msg => (msg, raw.shift (t.drift raw.chunkStreamId)))
  | _, _ => none

/-- A read ends. If it ends inside the payload of a chunk, the code is ahead by the chunk's
delta more. -/
def trackTouch (loop : ReadLoop κ) (t : Tracked κ) (buf : List UInt8) : Tracked κ :=
  match readChunkHeader buf with
  | none => { t with vars := loop.afterRead t.vars }
  | some (raw, _) =>
    { t with vars := loop.afterRead t.vars, drift := ChunkState.driftAtStop t.drift raw }

/-- The messages of the reads, each with its drift. -/
def tracked (loop : ReadLoop κ) (vars : κ) (reads : List (List UInt8)) :
    List (RtmpMessage × UInt32) :=
  (Incremental.run loop.trackStep loop.trackTouch (Tracked.new vars) [] reads).1

/-- No message is completed with a drift. -/
def DriftFree (loop : ReadLoop κ) (vars : κ) (reads : List (List UInt8)) : Prop :=
  ∀ m ∈ loop.tracked vars reads, m.2 = 0

instance (loop : ReadLoop κ) (vars : κ) (reads : List (List UInt8)) :
    Decidable (loop.DriftFree vars reads) :=
  inferInstanceAs (Decidable (∀ m ∈ loop.tracked vars reads, m.2 = 0))

/-- Two loops cut the front the same. -/
def CutsLike (loop loop' : ReadLoop κ) (t : Tracked κ) (buf : List UInt8) : Prop :=
  t.state.payloadSize (loop.chunkSize t.vars) buf =
    t.state.payloadSize (loop'.chunkSize t.vars) buf

instance (loop loop' : ReadLoop κ) (t : Tracked κ) (buf : List UInt8) :
    Decidable (loop.CutsLike loop' t buf) :=
  inferInstanceAs (Decidable (_ = _))

theorem trackStep_of_none {loop : ReadLoop κ} {t : Tracked κ} {buf : List UInt8}
    (h : t.state.takeChunk (loop.chunkSize t.vars) buf = none) : loop.trackStep t buf = none := by
  unfold trackStep
  rw [h]
  rcases readChunkHeader buf with _ | r <;> rfl

theorem trackStep_of_some {loop : ReadLoop κ} {t : Tracked κ} {buf rest : List UInt8}
    {raw : ChunkHeader} {headerSize : ℕ} {state : ChunkState} {msg : Option RtmpMessage}
    (hraw : readChunkHeader buf = some (raw, headerSize))
    (h : t.state.takeChunk (loop.chunkSize t.vars) buf = some (state, rest, msg)) :
    loop.trackStep t buf =
      some ({ vars := loop.afterChunk t.vars msg, state
              drift := ChunkState.driftAfter t.drift raw },
        rest, msg.toList.map fun msg => (msg, raw.shift (t.drift raw.chunkStreamId))) := by
  unfold trackStep
  rw [h, hraw]

/-- The code's loop beside a tracked one. -/
def Tracks (s : κ × ChunkState) (t : Tracked κ) (buf : List UInt8) : Prop :=
  s.1 = t.vars ∧ ChunkState.Follows t.drift buf s.2 t.state

/-- A chunk, by a loop of the code and by a tracked loop that cuts it the same. -/
theorem Tracks.step {loop loop' : ReadLoop κ}
    (hmsg : ∀ vars msg δ, loop.onMessage vars (msg.later δ) = loop'.onMessage vars msg)
    {s : κ × ChunkState} {t : Tracked κ} {buf : List UInt8} (h : Tracks s t buf)
    (hcut : loop.CutsLike loop' t buf) :
    Incremental.Related Tracks (fun m m' => m = m'.1.later m'.2) (loop.step s buf)
      (loop'.trackStep t buf) := by
  obtain ⟨hvars, hfollows⟩ := h
  have hcongr := ChunkState.takeChunk_congr hcut
  rcases ht : s.2.takeChunk (loop.chunkSize s.1) buf with _ | ⟨state₁, rest, msg⟩
  · have ht' : t.state.takeChunk (loop'.chunkSize t.vars) buf = none := by
      rw [← hcongr, ← hvars]
      exact hfollows.takeChunk_eq_none_iff.mp ht
    rw [loop.step_of_none ht, trackStep_of_none ht']
    exact .stop
  · rcases ht' : t.state.takeChunk (loop'.chunkSize t.vars) buf with _ | ⟨state₂, rest', msg'⟩
    · rw [← hcongr, ← hvars] at ht'
      rw [hfollows.takeChunk_eq_none_iff.mpr ht'] at ht
      cases ht
    · rcases hraw : readChunkHeader buf with _ | ⟨raw, headerSize⟩
      · rw [ChunkState.takeChunk_of_read_none hraw] at ht
        cases ht
      · have ht'' := ht'
        rw [← hcongr, ← hvars] at ht''
        obtain ⟨rfl, rfl, hfollows'⟩ := hfollows.takeChunk hraw ht ht''
        rw [loop.step_of_some ht, trackStep_of_some hraw ht']
        cases msg' with
        | none => exact .take .nil ⟨hvars, hfollows'⟩
        | some msg' =>
          refine .take (.cons rfl .nil) ⟨?_, hfollows'⟩
          rw [hvars]
          exact hmsg t.vars msg' _

/-- A read ends. -/
theorem Tracks.touch {loop loop' : ReadLoop κ} (hafter : loop.afterRead = loop'.afterRead)
    {s : κ × ChunkState} {t : Tracked κ} {buf : List UInt8} (h : Tracks s t buf) :
    Tracks (loop.touch s buf) (loop'.trackTouch t buf) buf := by
  obtain ⟨hvars, hfollows⟩ := h
  unfold ReadLoop.touch trackTouch
  rcases hraw : readChunkHeader buf with _ | ⟨raw, headerSize⟩
  · rw [ChunkState.seeHeader_of_read_none hraw]
    exact ⟨by rw [hvars, hafter], hfollows⟩
  · exact ⟨by rw [hvars, hafter], hfollows.seeHeader hraw⟩

/-- **The code's messages** are those of a tracked loop that cuts every chunk the same, each
later by its drift. -/
theorem messages_track {loop loop' : ReadLoop κ}
    (hmsg : ∀ vars msg δ, loop.onMessage vars (msg.later δ) = loop'.onMessage vars msg)
    (hafter : loop.afterRead = loop'.afterRead) (vars : κ) (reads : List (List UInt8))
    (hcut : Incremental.AllFronts loop'.trackStep loop'.trackTouch (loop.CutsLike loop')
      (Tracked.new vars) [] reads) :
    List.Forall₂ (fun m m' => m = m'.1.later m'.2) (loop.messages (vars, .new) [] reads)
      (loop'.tracked vars reads) := by
  rw [messages_eq_run]
  refine Incremental.run_simulation loop.step_consumes (R := Tracks)
    (fun s t buf h hP => h.step hmsg hP) (fun s t buf h _ => h.touch hafter)
    (fun s t buf more h => ⟨h.1, h.2.append more⟩) ?_ hcut
  exact ⟨rfl, ChunkState.Follows.of_all (fun _ => rfl) (fun _ => .none) []⟩

/-- The tracked messages, without their drifts, are those of a parser that remembers nothing
of an incomplete chunk: for loops whose variables are read off those of the tracked one. -/
theorem tracked_map_fst {κ₀ : Type} {loop₀ : ReadLoop κ₀} {loop : ReadLoop κ} (f : κ → κ₀)
    (hsize : ∀ vars, loop₀.chunkSize (f vars) = loop.chunkSize vars)
    (hmsg : ∀ vars msg, loop₀.onMessage (f vars) msg = f (loop.onMessage vars msg))
    (hafter : ∀ vars, f (loop.afterRead vars) = f vars) (vars : κ)
    (reads : List (List UInt8)) :
    (loop.tracked vars reads).map Prod.fst =
      (Incremental.drain loop₀.step (f vars, .new) reads.flatten).1 := by
  have hstep : ∀ (s : κ₀ × ChunkState) (t : Tracked κ) (buf : List UInt8),
      s = (f t.vars, t.state) → True →
        Incremental.Related (fun s t _ => s = (f t.vars, t.state)) (fun m m' => m = m'.1)
          (loop₀.step s buf) (loop.trackStep t buf) := by
    rintro _ t buf rfl -
    rcases ht : t.state.takeChunk (loop.chunkSize t.vars) buf with _ | ⟨state, rest, msg⟩
    · rw [trackStep_of_none ht, loop₀.step_of_none (by rw [hsize]; exact ht)]
      exact .stop
    rcases hraw : readChunkHeader buf with _ | ⟨raw, headerSize⟩
    · rw [ChunkState.takeChunk_of_read_none hraw] at ht
      cases ht
    rw [trackStep_of_some hraw ht,
      loop₀.step_of_some (s := (f t.vars, t.state)) (by rw [hsize]; exact ht)]
    cases msg with
    | none => exact .take .nil rfl
    | some msg => exact .take (.cons rfl .nil) (by rw [afterChunk, hmsg]; rfl)
  have htouch : ∀ (s : κ₀ × ChunkState) (t : Tracked κ) (buf : List UInt8),
      s = (f t.vars, t.state) → True →
        Incremental.forget s buf =
          (f (loop.trackTouch t buf).vars, (loop.trackTouch t buf).state) := by
    rintro _ t buf rfl -
    unfold Incremental.forget trackTouch
    rcases readChunkHeader buf with _ | ⟨raw, headerSize⟩ <;> rw [hafter]
  have hrun : List.Forall₂ (fun m m' => m = m'.1)
      (Incremental.run loop₀.step Incremental.forget (f vars, .new) [] reads).1
      (loop.tracked vars reads) :=
    Incremental.run_simulation loop₀.step_consumes
      (R := fun (s : κ₀ × ChunkState) (t : Tracked κ) (_ : List UInt8) => s = (f t.vars, t.state))
      (P := fun _ _ => True) hstep htouch (fun _ _ _ _ h => h) rfl
      (Incremental.allFronts_of_forall (fun _ _ => trivial) _ _ _)
  rw [← List.forall₂_map_right_iff, List.forall₂_eq_eq_eq] at hrun
  rw [← hrun, Incremental.run_flatten loop₀.step_consumes loop₀.step_extends _ _
    (loop₀.step_consumes.step_nil _), List.nil_append]

end ReadLoop

/-! ## One chunk size -/

/-- A read loop whose chunk size never changes. -/
def fixedSize (chunkSize : ℕ) : ReadLoop Unit :=
  { chunkSize := fun _ => chunkSize, onMessage := fun vars _ => vars, afterRead := id }

/-- The messages of the reads, cut with one chunk size. -/
def reassemble (chunkSize : ℕ) (reads : List (List UInt8)) : List RtmpMessage :=
  (fixedSize chunkSize).messages ((), .new) [] reads

theorem RtmpMessage.later_eq_self {msg : RtmpMessage} {δ : UInt32} :
    msg.later δ = msg ↔ δ = 0 := by
  constructor
  · intro h
    have hts : msg.timestamp + δ = msg.timestamp := congrArg RtmpMessage.timestamp h
    simpa using hts
  · rintro rfl
    simp [later]

/-- The messages do not depend on how the stream was cut into reads **exactly if** no message
is completed with a drift. -/
theorem reassemble_eq_iff (chunkSize : ℕ) (reads : List (List UInt8)) :
    reassemble chunkSize reads = reassemble chunkSize [reads.flatten] ↔
      (fixedSize chunkSize).DriftFree () reads := by
  have htrack : List.Forall₂ (fun m m' => m = m'.1.later m'.2) (reassemble chunkSize reads)
      ((fixedSize chunkSize).tracked () reads) :=
    ReadLoop.messages_track (fun _ _ _ => rfl) rfl () reads
      (Incremental.allFronts_of_forall (fun _ _ => rfl) _ _ _)
  have hwhole : reassemble chunkSize [reads.flatten] =
      ((fixedSize chunkSize).tracked () reads).map Prod.fst := by
    rw [reassemble, ReadLoop.messages_eq_run, Incremental.run_singleton,
      ReadLoop.tracked_map_fst id (fun _ => rfl) (fun _ _ => rfl) (fun _ => rfl)]
    rfl
  have hreal : reassemble chunkSize reads =
      ((fixedSize chunkSize).tracked () reads).map fun m => m.1.later m.2 := by
    rw [← List.forall₂_map_right_iff (f := fun m : RtmpMessage × UInt32 => m.1.later m.2),
      List.forall₂_eq_eq_eq] at htrack
    exact htrack
  rw [hreal, hwhole, List.map_inj_left, ReadLoop.DriftFree]
  simp only [RtmpMessage.later_eq_self]

/-- A message of type 0 at 0 ms, and one of type 1 that is 10 ms later. Cut inside the payload
of the second, it is **20 ms** later. -/
theorem reassemble_ne_of_cut_in_payload :
    reassemble 128
        [[0x03, 0, 0, 0, 0, 0, 1, 8, 1, 0, 0, 0, 0xAA, 0x43, 0, 0, 10, 0, 0, 2, 8, 0xBB], [0xCC]] ≠
      reassemble 128
        [[0x03, 0, 0, 0, 0, 0, 1, 8, 1, 0, 0, 0, 0xAA, 0x43, 0, 0, 10, 0, 0, 2, 8, 0xBB,
          0xCC]] := by
  decide

end VcpMediaServer
