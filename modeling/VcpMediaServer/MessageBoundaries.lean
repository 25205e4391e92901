import VcpMediaServer.ChunkReassembly

/-!
# Message boundaries

What is a message made of? A header of type 0, 1 or 2 begins a message, one of type 3 goes on with
it. In the middle of a message the code does not see a difference: the bytes that have arrived are
**kept**, and so is what was missing of the message before.

* `Pending` — beside an assembler, the bytes that belong to the message that its last header
  governs.
* `Matches.extend` — one chunk.
* `ReadLoop.bounded` — the messages of a read loop, each with its own bytes.
* `ReadLoop.exact_bounded_iff` — a message is its own bytes, as many as its header says, **exactly
  if** it was not interrupted by a header.
-/

namespace VcpMediaServer

/-! ## Own bytes -/

/-- What belongs to the message of a chunk stream that has not been completed. -/
structure Pending where
  /-- The bytes since its first header. -/
  own : List UInt8
  /-- Since the last message was completed, a message has begun **in the middle** of another. -/
  interrupted : Bool
  deriving DecidableEq, Repr

namespace Pending

/-- Between two messages. -/
def clear : Pending := ⟨[], false⟩

/-- The header begins a message, and bytes of another are kept, or as many are taken as that one
lacks and the new one does not have. -/
def interrupts (assembler : ChunkAssembler) (header : ChunkHeader) (data : List UInt8) : Bool :=
  header.fmt != .type3 && (!assembler.buffer.isEmpty ||
    (decide (0 < assembler.msgLength) && decide (header.msgLength < data.length)))

/-- A chunk arrives. -/
def chunk (p : Pending) (assembler : ChunkAssembler) (header : ChunkHeader) (data : List UInt8) :
    Pending where
  own := if header.fmt = .type3 then p.own ++ data else data
  interrupted := p.interrupted || interrupts assembler header data

end Pending

/-- What holds of an assembler: the bytes that have arrived are counted, and they are those of its
message, or that has been interrupted. -/
structure Matches (assembler : ChunkAssembler) (p : Pending) : Prop where
  received : assembler.received = assembler.buffer.length
  whole : p.interrupted = false → p.own = assembler.buffer ∧
    (assembler.msgLength = 0 → assembler.buffer = []) ∧
    (0 < assembler.msgLength → assembler.buffer.length < assembler.msgLength)
  left : p.interrupted = true → p.own.length < assembler.buffer.length ∨
    (assembler.msgLength = 0 ∧ assembler.buffer ≠ [])

theorem Matches.default : Matches .default .clear where
  received := rfl
  whole := fun _ => ⟨rfl, fun _ => rfl, fun h => absurd h (Nat.lt_irrefl 0)⟩
  left := fun h => by cases h

/-- A message that has been completed, and what belongs to it. -/
structure Completed where
  /-- The message. -/
  msg : RtmpMessage
  /-- The header of its last chunk. -/
  header : ChunkHeader
  /-- The bytes since its first header. -/
  own : List UInt8
  /-- It was begun in the middle of another, or another in its middle. -/
  interrupted : Bool
  deriving DecidableEq, Repr

/-- The message is made of its own bytes, as many as the header says. -/
def Completed.Exact (m : Completed) : Prop :=
  m.msg.payload.length = m.header.msgLength ∧ m.msg.payload = m.own

instance (m : Completed) : Decidable m.Exact := inferInstanceAs (Decidable (_ ∧ _))

namespace ChunkAssembler

/-- What is missing of the message that the header continues. -/
def remaining (assembler : ChunkAssembler) (header : ChunkHeader) : ℕ :=
  if 0 < assembler.msgLength then assembler.msgLength - assembler.received else header.msgLength

variable {assembler : ChunkAssembler} {header : ChunkHeader} {data : List UInt8} {p : Pending}

/-- A chunk that completes a message hands over all the bytes that have arrived. -/
theorem extend_complete (h : 0 < header.msgLength)
    (hlen : header.msgLength ≤ assembler.received + data.length) :
    assembler.extend header data =
      ({ timestamp := header.timestamp, msgLength := 0, msgTypeId := header.msgTypeId
         msgStreamId := header.msgStreamId, received := 0, buffer := [] },
        some { msgType := header.msgTypeId, timestamp := header.timestamp
               streamId := header.msgStreamId, payload := assembler.buffer ++ data }) := by
  rw [extend]
  exact if_pos ⟨hlen, h⟩

/-- Another one is kept. -/
theorem extend_incomplete (h : header.msgLength = 0 ∨
    assembler.received + data.length < header.msgLength) :
    assembler.extend header data =
      ({ timestamp := header.timestamp, msgLength := header.msgLength, msgTypeId := header.msgTypeId
         msgStreamId := header.msgStreamId, received := assembler.received + data.length
         buffer := assembler.buffer ++ data }, none) := by
  rw [extend]
  refine if_neg fun hcomplete => ?_
  dsimp only at hcomplete
  omega

end ChunkAssembler

/-! ## One chunk -/

section

variable {assembler : ChunkAssembler} {header : ChunkHeader} {data : List UInt8} {p : Pending}

/-- A chunk of type 3 goes on with the message. -/
theorem Pending.chunk_type3 (h : header.fmt = .type3) :
    p.chunk assembler header data = ⟨p.own ++ data, p.interrupted⟩ := by
  simp [chunk, interrupts, h]

/-- A chunk of another type begins one. -/
theorem Pending.chunk_begin (h : header.fmt ≠ .type3) :
    p.chunk assembler header data =
      ⟨data, p.interrupted || !assembler.buffer.isEmpty ||
        (decide (0 < assembler.msgLength) && decide (header.msgLength < data.length))⟩ := by
  have hbegin : (header.fmt != .type3) = true := bne_iff_ne.mpr h
  simp [chunk, interrupts, h, hbegin, Bool.or_assoc]

/-- Where no bytes are kept, no message was interrupted. -/
theorem Matches.not_interrupted (hm : Matches assembler p) (hnil : assembler.buffer = []) :
    p.interrupted = false := by
  by_contra h
  rcases hm.left (by simpa using h) with hlt | ⟨-, hne⟩
  · rw [hnil] at hlt
    exact Nat.not_lt_zero _ hlt
  · exact hne hnil

theorem Matches.remaining_eq (hm : Matches assembler p) :
    assembler.remaining header =
      if 0 < assembler.msgLength then assembler.msgLength - assembler.buffer.length
      else header.msgLength := by
  rw [ChunkAssembler.remaining, hm.received]

/-- A chunk that does **not complete** a message. -/
theorem Matches.extend_incomplete (hm : Matches assembler p)
    (hsame : header.fmt = .type3 → assembler.msgLength ≠ 0 ∨ assembler.buffer ≠ [] →
      header.msgLength = assembler.msgLength)
    (hdata : data.length ≤ assembler.remaining header)
    (h : header.msgLength = 0 ∨ assembler.received + data.length < header.msgLength) :
    Matches
      { timestamp := header.timestamp, msgLength := header.msgLength, msgTypeId := header.msgTypeId
        msgStreamId := header.msgStreamId, received := assembler.received + data.length
        buffer := assembler.buffer ++ data }
      (p.chunk assembler header data) := by
  rw [hm.remaining_eq] at hdata
  rw [hm.received] at h
  have hreceived : assembler.received + data.length = (assembler.buffer ++ data).length := by
    rw [hm.received, List.length_append]
  have hlong : 0 < header.msgLength → (assembler.buffer ++ data).length < header.msgLength := by
    rw [List.length_append]
    omega
  by_cases hfmt : header.fmt = .type3
  · rw [Pending.chunk_type3 hfmt]
    have hsame := hsame hfmt
    refine ⟨hreceived, fun hint => ?_, fun hint => ?_⟩
    · obtain ⟨hown, hzero, -⟩ := hm.whole hint
      refine ⟨by rw [hown], fun hL => ?_, hlong⟩
      -- with no length there is nothing to take
      dsimp only at hL
      have hmsg : assembler.msgLength = 0 := by
        by_contra hne
        exact hne ((hsame (.inl hne)).symm.trans hL)
      rw [hmsg, if_neg (Nat.lt_irrefl 0), hL] at hdata
      dsimp only
      rw [hzero hmsg, List.eq_nil_of_length_eq_zero (Nat.le_zero.mp hdata), List.append_nil]
    · rcases hm.left hint with hlt | ⟨hmsg, hne⟩
      · left
        dsimp only
        rw [List.length_append, List.length_append]
        omega
      · have hL := (hsame (.inr hne)).trans hmsg
        exact .inr ⟨hL, fun hnil => hne (List.append_eq_nil_iff.mp hnil).1⟩
  · rw [Pending.chunk_begin hfmt]
    refine ⟨hreceived, fun hint => ?_, fun hint => ?_⟩
    · simp only [Bool.or_eq_false_iff, Bool.not_eq_false', List.isEmpty_iff, Bool.and_eq_false_iff,
        decide_eq_false_iff_not] at hint
      obtain ⟨⟨-, hnil⟩, hfits⟩ := hint
      refine ⟨by rw [hnil]; rfl, fun hL => ?_, hlong⟩
      dsimp only at hL ⊢
      have hzero : data.length = 0 := by
        split at hdata
        · omega
        · omega
      rw [hnil, List.eq_nil_of_length_eq_zero hzero, List.append_nil]
    · by_cases hnil : assembler.buffer = []
      · rw [hm.not_interrupted hnil, hnil] at hint
        simp only [List.isEmpty_nil, Bool.not_true, Bool.or_false, Bool.false_or, Bool.and_eq_true,
          decide_eq_true_iff] at hint
        rw [hnil, List.length_nil] at h
        refine .inr ⟨by dsimp only; omega, fun hempty => ?_⟩
        have hlen := congrArg List.length (List.append_eq_nil_iff.mp hempty).2
        rw [List.length_nil] at hlen
        omega
      · left
        have hpos := List.length_pos_iff.mpr hnil
        dsimp only
        rw [List.length_append]
        omega

/-- A chunk that **completes** a message: the message is made of its own bytes, as many as the
header says, exactly if it was not interrupted. -/
theorem Matches.extend_complete (hm : Matches assembler p)
    (hsame : header.fmt = .type3 → assembler.msgLength ≠ 0 ∨ assembler.buffer ≠ [] →
      header.msgLength = assembler.msgLength)
    (hdata : data.length ≤ assembler.remaining header) (hpos : 0 < header.msgLength)
    (h : header.msgLength ≤ assembler.received + data.length) :
    ((assembler.buffer ++ data).length = header.msgLength ∧
        assembler.buffer ++ data = (p.chunk assembler header data).own) ↔
      (p.chunk assembler header data).interrupted = false := by
  rw [hm.remaining_eq] at hdata
  rw [hm.received] at h
  rw [List.length_append]
  by_cases hfmt : header.fmt = .type3
  · rw [Pending.chunk_type3 hfmt]
    have hsame := hsame hfmt
    rcases hint : p.interrupted with _ | _
    · obtain ⟨hown, hzero, hlt⟩ := hm.whole hint
      refine iff_of_true ⟨?_, by rw [hown]⟩ rfl
      by_cases hmsg : assembler.msgLength = 0
      · rw [hzero hmsg, List.length_nil] at h ⊢
        rw [hmsg, if_neg (Nat.lt_irrefl 0)] at hdata
        omega
      · have hL := hsame (.inl hmsg)
        have hlt := hlt (Nat.pos_of_ne_zero hmsg)
        rw [if_pos (Nat.pos_of_ne_zero hmsg)] at hdata
        omega
    · refine iff_of_false (fun hexact => ?_) Bool.noConfusion
      rcases hm.left hint with hlt | ⟨hmsg, hne⟩
      · have hlen := congrArg List.length hexact.2
        rw [List.length_append, List.length_append] at hlen
        omega
      · have hL := hsame (.inr hne)
        omega
  · rw [Pending.chunk_begin hfmt]
    by_cases hnil : assembler.buffer = []
    · rw [hm.not_interrupted hnil, hnil]
      rw [hnil, List.length_nil] at h hdata
      simp only [List.isEmpty_nil, Bool.not_true, Bool.or_false, Bool.false_or,
        Bool.and_eq_false_iff, decide_eq_false_iff_not, List.nil_append, List.length_nil, and_true]
      split at hdata
      · omega
      · omega
    · have hpos' := List.length_pos_iff.mpr hnil
      refine iff_of_false (fun hexact => ?_) fun hint => ?_
      · have hlen := congrArg List.length hexact.2
        dsimp only at hlen
        rw [List.length_append] at hlen
        omega
      · simp [hnil] at hint

end

/-! ## Read loops -/

/-- What has arrived of the message of a chunk stream. -/
def ChunkState.assembler (state : ChunkState) (csId : ℕ) : ChunkAssembler :=
  (state.assemblers.lookup csId).getD .default

theorem ChunkState.remainingMsg_eq (state : ChunkState) (header : ChunkHeader) :
    state.remainingMsg header = (state.assembler header.chunkStreamId).remaining header := by
  unfold remainingMsg assembler
  split
  · next h =>
    rw [h]
    rfl
  · next a h =>
    rw [h]
    rfl

/-- The length that a header of type 3 has is that of the last one of its chunk stream. -/
theorem ChunkHeader.msgLength_of_resolve_type3 {raw header : ChunkHeader}
    {last : Option ChunkHeader} (hfmt : raw.fmt = .type3) (h : raw.resolve last = some header) :
    ∃ l ∈ last, header.msgLength = l.msgLength := by
  unfold resolve at h
  split at h
  · next hraw =>
    rw [hfmt] at hraw
    cases hraw
  · cases h
  · next l hraw =>
    rw [hfmt] at hraw
    cases hraw
  · next l hraw =>
    rw [hfmt] at hraw
    cases hraw
  · next l _ =>
    obtain rfl := Option.some.inj h
    exact ⟨l, rfl, rfl⟩

theorem ChunkHeader.resolve_fmt {raw header : ChunkHeader} {last : Option ChunkHeader}
    (h : raw.resolve last = some header) : header.fmt = raw.fmt := by
  unfold resolve at h
  split at h
  · exact Option.some.inj h ▸ rfl
  · cases h
  · exact Option.some.inj h ▸ rfl
  · exact Option.some.inj h ▸ rfl
  · exact Option.some.inj h ▸ rfl

namespace ReadLoop

variable {κ : Type}

/-- A read loop, and what belongs to the messages that have not been completed. -/
structure Bounded (κ : Type) where
  /-- The variables of the loop. -/
  vars : κ
  /-- The state of the parser. -/
  state : ChunkState
  /-- What belongs to the message of a chunk stream. -/
  pending : ℕ → Pending

/-- Before the first read. -/
def Bounded.new (vars : κ) : Bounded κ := { vars, state := .new, pending := fun _ => .clear }

/-- A chunk is taken. -/
def boundStep (loop : ReadLoop κ) (t : Bounded κ) (buf : List UInt8) :
    Option (Bounded κ × List UInt8 × List Completed) :=
  match parseChunkHeader buf t.state.headers, t.state.takeChunk (loop.chunkSize t.vars) buf with
  | some (header, headerSize, _), some (state, rest, msg) =>
    let csId := header.chunkStreamId
    let data := slice buf headerSize (min (loop.chunkSize t.vars) (t.state.remainingMsg header))
    let p := (t.pending csId).chunk (t.state.assembler csId) header data
    some ({ vars := loop.afterChunk t.vars msg, state
            pending := Function.update t.pending csId (if msg = none then p else .clear) },
      rest, msg.toList.map fun msg => ⟨msg, header, p.own, p.interrupted⟩)
  | _, _ => none

/-- A read ends. -/
def boundTouch (loop : ReadLoop κ) (t : Bounded κ) (buf : List UInt8) : Bounded κ :=
  { t with vars := loop.afterRead t.vars, state := t.state.seeHeader buf }

/-- The messages of the reads, each with what belongs to it. -/
def bounded (loop : ReadLoop κ) (vars : κ) (reads : List (List UInt8)) : List Completed :=
  (Incremental.run loop.boundStep loop.boundTouch (Bounded.new vars) [] reads).1

/-- What holds at a front: the assemblers match, and a message in the middle has the length of the
last header of its chunk stream, unless the front's own header, which **begins** one, has been
remembered. -/
structure Bound (t : Bounded κ) (buf : List UInt8) : Prop where
  matching : ∀ csId, Matches (t.state.assembler csId) (t.pending csId)
  same : ∀ csId, (∀ raw size, readChunkHeader buf = some (raw, size) → raw.fmt ≠ .type3 →
      raw.chunkStreamId ≠ csId) →
    ((t.state.assembler csId).msgLength ≠ 0 ∨ (t.state.assembler csId).buffer ≠ []) →
      ∀ last ∈ t.state.headers.lookup csId, last.msgLength = (t.state.assembler csId).msgLength

theorem Bound.new (vars : κ) : Bound (Bounded.new vars) [] where
  matching := fun _ => Matches.default
  same := fun _ _ _ last hlast => by cases hlast

variable {loop : ReadLoop κ} {t : Bounded κ} {buf : List UInt8}

/-- More of the stream arrives. -/
theorem Bound.append (hb : Bound t buf) (more : List UInt8) : Bound t (buf ++ more) := by
  refine ⟨hb.matching, fun csId hne => hb.same csId fun raw size hraw => ?_⟩
  exact hne raw size (readChunkHeader_append hraw more)

/-- A header of type 3 has the length of the message that it goes on with. -/
theorem Bound.same_type3 (hb : Bound t buf) {raw header : ChunkHeader} {size : ℕ}
    (hraw : readChunkHeader buf = some (raw, size))
    (hresolve : raw.resolve (t.state.headers.lookup raw.chunkStreamId) = some header)
    (hfmt : raw.fmt = .type3)
    (hmid : (t.state.assembler raw.chunkStreamId).msgLength ≠ 0 ∨
      (t.state.assembler raw.chunkStreamId).buffer ≠ []) :
    header.msgLength = (t.state.assembler raw.chunkStreamId).msgLength := by
  obtain ⟨l, hl, hlen⟩ := ChunkHeader.msgLength_of_resolve_type3 hfmt hresolve
  rw [hlen]
  refine hb.same _ (fun raw' size' hraw' hne => ?_) hmid l hl
  rw [hraw] at hraw'
  obtain ⟨rfl, -⟩ := Prod.mk.inj (Option.some.inj hraw')
  exact absurd hfmt hne

/-- A header that is remembered. -/
theorem Bound.touch (hb : Bound t buf) : Bound (loop.boundTouch t buf) buf := by
  refine ⟨fun csId => ?_, fun csId hne hmid last hlast => ?_⟩
  · have hm := hb.matching csId
    unfold boundTouch ChunkState.seeHeader
    split
    · exact hm
    · exact hm
  · rcases hp : parseChunkHeader buf t.state.headers with _ | ⟨header, size, headers⟩
    · simp only [boundTouch, ChunkState.seeHeader, hp] at hmid hlast ⊢
      exact hb.same csId hne hmid last hlast
    · obtain ⟨raw, hraw, hresolve, rfl⟩ := parseChunkHeader_eq_some hp
      have hcs := ChunkHeader.resolve_chunkStreamId hresolve
      simp only [boundTouch, ChunkState.seeHeader, hp] at hmid hlast ⊢
      by_cases hcsId : csId = raw.chunkStreamId
      · -- only a header of type 3 can have been remembered
        have hfmt : raw.fmt = .type3 := by
          by_contra hfmt
          exact hne raw size hraw hfmt hcsId.symm
        rw [hcs, ← hcsId, AList.lookup_insert] at hlast
        obtain rfl := Option.some.inj hlast
        rw [hcsId]
        exact hb.same_type3 hraw hresolve hfmt (hcsId ▸ hmid)
      · rw [hcs, AList.lookup_insert_ne hcsId] at hlast
        exact hb.same csId hne hmid last hlast

/-- A chunk has been taken off the front: all chunk streams but its own are as they were. -/
theorem Bound.insert (hb : Bound t buf) {raw header : ChunkHeader} {size : ℕ}
    (hraw : readChunkHeader buf = some (raw, size)) (hcs : header.chunkStreamId = raw.chunkStreamId)
    {assembler : ChunkAssembler} {p : Pending} (hm : Matches assembler p)
    (hsame : assembler.msgLength ≠ 0 ∨ assembler.buffer ≠ [] →
      header.msgLength = assembler.msgLength)
    (vars : κ) (rest : List UInt8) :
    Bound
      { vars
        state :=
          { assemblers := t.state.assemblers.insert header.chunkStreamId assembler
            headers := t.state.headers.insert header.chunkStreamId header }
        pending := Function.update t.pending header.chunkStreamId p } rest := by
  have hself : ∀ c, c ≠ header.chunkStreamId →
      ((t.state.assemblers.insert header.chunkStreamId assembler).lookup c).getD .default =
        t.state.assembler c := by
    intro c hc
    rw [AList.lookup_insert_ne hc]
    rfl
  refine ⟨fun c => ?_, fun c _ hmid last hlast => ?_⟩
  · unfold ChunkState.assembler
    dsimp only
    by_cases hc : c = header.chunkStreamId
    · rw [hc, AList.lookup_insert, Function.update_self]
      exact hm
    · rw [hself c hc, Function.update_of_ne hc]
      exact hb.matching c
  · unfold ChunkState.assembler at hmid ⊢
    by_cases hc : c = header.chunkStreamId
    · rw [hc, AList.lookup_insert] at hlast hmid ⊢
      obtain rfl := Option.some.inj hlast
      exact hsame hmid
    · rw [AList.lookup_insert_ne hc] at hlast
      rw [hself c hc] at hmid ⊢
      refine hb.same c (fun raw' size' hraw' _ => ?_) hmid last hlast
      rw [hraw] at hraw'
      obtain ⟨rfl, -⟩ := Prod.mk.inj (Option.some.inj hraw')
      rw [← hcs]
      exact fun heq => hc heq.symm

/-- One chunk: the message that it completes is exact **exactly if** it was not interrupted. -/
theorem Bound.step (hb : Bound t buf) :
    Incremental.Related (fun s t buf => s = (t.vars, t.state) ∧ Bound t buf)
      (fun m m' => m = m'.msg ∧ (m'.Exact ↔ m'.interrupted = false))
      (loop.step (t.vars, t.state) buf) (loop.boundStep t buf) := by
  rcases ht : t.state.takeChunk (loop.chunkSize t.vars) buf with _ | ⟨state, rest, msg⟩
  · have hnone : loop.boundStep t buf = none := by
      unfold boundStep
      rw [ht]
      rcases parseChunkHeader buf t.state.headers with _ | ⟨header, size, headers⟩
      · rfl
      · rfl
    rw [loop.step_of_none ht, hnone]
    exact .stop
  obtain ⟨header, size, headers, assembler, hp, hlen, hextend, hstate, hrest⟩ :=
    ChunkState.takeChunk_eq_some ht
  obtain ⟨raw, hraw, hresolve, hheaders⟩ := parseChunkHeader_eq_some hp
  have hcs := ChunkHeader.resolve_chunkStreamId hresolve
  have hfmt := ChunkHeader.resolve_fmt hresolve
  set csId := header.chunkStreamId with hcsId
  set data := slice buf size (min (loop.chunkSize t.vars) (t.state.remainingMsg header)) with hdata
  have hdlen : data.length ≤ (t.state.assembler csId).remaining header := by
    rw [hdata, ← t.state.remainingMsg_eq header]
    exact (List.length_take_le _ _).trans (Nat.min_le_right _ _)
  rw [show (t.state.assemblers.lookup csId).getD .default = t.state.assembler csId from rfl]
    at hextend
  have hm := hb.matching csId
  have hsame : header.fmt = .type3 →
      (t.state.assembler csId).msgLength ≠ 0 ∨ (t.state.assembler csId).buffer ≠ [] →
        header.msgLength = (t.state.assembler csId).msgLength := by
    intro h3 hmid
    rw [hcs] at hmid ⊢
    exact hb.same_type3 hraw hresolve (hfmt.symm.trans h3) hmid
  have hbound : loop.boundStep t buf =
      some ({ vars := loop.afterChunk t.vars msg, state
              pending := Function.update t.pending csId
                (if msg = none then (t.pending csId).chunk (t.state.assembler csId) header data
                  else .clear) },
        rest, msg.toList.map fun msg =>
          ⟨msg, header, ((t.pending csId).chunk (t.state.assembler csId) header data).own,
            ((t.pending csId).chunk (t.state.assembler csId) header data).interrupted⟩) := by
    unfold boundStep
    rw [hp, ht]
  rw [loop.step_of_some (s := (t.vars, t.state)) ht, hbound]
  by_cases hcomplete : 0 < header.msgLength ∧ header.msgLength ≤ (t.state.assembler csId).received +
    data.length
  · have hdone := ChunkAssembler.extend_complete hcomplete.1 hcomplete.2
    rw [hdone] at hextend
    obtain ⟨rfl, rfl⟩ := Prod.mk.inj hextend
    refine .take (.cons ⟨rfl, hm.extend_complete hsame hdlen hcomplete.1 hcomplete.2⟩ .nil)
      ⟨rfl, ?_⟩
    rw [hstate, hheaders]
    refine hb.insert hraw hcs
      ⟨rfl, fun _ => ⟨rfl, fun _ => rfl, fun h => absurd h (Nat.lt_irrefl 0)⟩,
      fun h => Bool.noConfusion h⟩ (fun hmid => ?_) _ _
    rcases hmid with hmid | hmid
    · exact absurd rfl hmid
    · exact absurd rfl hmid
  · have hkept : header.msgLength = 0 ∨ (t.state.assembler csId).received + data.length <
        header.msgLength := by
      omega
    have hgoes := ChunkAssembler.extend_incomplete hkept
    rw [hgoes] at hextend
    obtain ⟨rfl, rfl⟩ := Prod.mk.inj hextend
    refine .take .nil ⟨rfl, ?_⟩
    rw [hstate, hheaders]
    exact hb.insert hraw hcs (hm.extend_incomplete hsame hdlen hkept) (fun _ => rfl) _ _

/-- The messages of the reads are those with what belongs to them, and each is exact **exactly if**
it was not interrupted. -/
theorem messages_bounded (loop : ReadLoop κ) (vars : κ) (reads : List (List UInt8)) :
    List.Forall₂ (fun m m' => m = m'.msg ∧ (m'.Exact ↔ m'.interrupted = false))
      (loop.messages (vars, .new) [] reads) (loop.bounded vars reads) := by
  rw [messages_eq_run]
  refine Incremental.run_simulation loop.step_consumes
    (R := fun s t buf => s = (t.vars, t.state) ∧ Bound t buf) (P := fun _ _ => True) ?_ ?_ ?_
    ⟨rfl, Bound.new vars⟩ (Incremental.allFronts_of_forall (fun _ _ => trivial) _ _ _)
  · rintro _ t buf ⟨rfl, hb⟩ -
    exact hb.step
  · rintro _ t buf ⟨rfl, hb⟩ -
    exact ⟨rfl, hb.touch⟩
  · rintro _ t buf more ⟨rfl, hb⟩
    exact ⟨rfl, hb.append more⟩

/-- However a stream is cut into chunks and reads, and whatever is done to the chunk size in
between: all the messages are made of their own bytes, as many as their headers say, **exactly if**
none was interrupted. -/
theorem exact_bounded_iff (loop : ReadLoop κ) (vars : κ) (reads : List (List UInt8)) :
    (loop.bounded vars reads).map Completed.msg = loop.messages (vars, .new) [] reads ∧
      ((∀ m ∈ loop.bounded vars reads, m.Exact) ↔
        ∀ m ∈ loop.bounded vars reads, m.interrupted = false) := by
  have hrel := loop.messages_bounded vars reads
  generalize loop.bounded vars reads = outs at hrel ⊢
  generalize loop.messages (vars, .new) [] reads = msgs at hrel ⊢
  induction hrel with
  | nil => exact ⟨rfl, by simp⟩
  | cons h _ ih =>
    rw [List.map_cons, ih.1, ← h.1]
    refine ⟨rfl, ?_⟩
    rw [List.forall_mem_cons, List.forall_mem_cons, h.2, ih.2]

end ReadLoop

/-- Of a message of three bytes two have arrived when a header of type 0 begins one of two bytes on
the same chunk stream: what comes out has **three** bytes, two of them left over. -/
theorem not_exact_interrupted :
    ¬ ∀ m ∈ (fixedSize 2).bounded () [[0x03, 0, 0, 0, 0, 0, 3, 8, 1, 0, 0, 0, 0xAA, 0xAA,
      0x03, 0, 0, 0, 0, 0, 2, 8, 1, 0, 0, 0, 0xBB]], m.Exact := by
  decide

end VcpMediaServer
