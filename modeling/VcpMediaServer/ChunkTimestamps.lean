import Mathlib.Logic.Function.Basic
import VcpMediaServer.ChunkWire

/-!
# Timestamps of chunk streams

A sender that keeps to the rules of the chunk stream, and what the parser makes of its chunks.
The first header of a message has its timestamp (type 0), or the difference to the last message
of its chunk stream (types 1 and 2), or neither (type 3): then the **last difference is
repeated**, which after a type 0 is its timestamp. A timestamp or difference that does not fit
into three bytes is behind **every** header of the message.

* `Conforms` — a list of chunks that such a sender sends, of any chunk streams.
* `messages` — the messages that the chunks complete.
* `takeAll_eq_withOffsets` — the parser does not repeat differences. While no header of type 3
  has an extended timestamp, that is all it does to the timestamps.
* `takeAll_eq_messages_iff` — so it is right **exactly if** every repeated difference is zero,
  and no message is empty.
-/

namespace VcpMediaServer

/-! ## Senders -/

/-- What a sender keeps of a chunk stream. -/
structure ChunkSource where
  /-- The last message. -/
  msg : RtmpMessage
  /-- The last timestamp or difference of a header. -/
  field : UInt32
  /-- What of the message is not sent yet. -/
  rest : List UInt8

/-- A chunk on its way. -/
structure SentChunk where
  /-- The chunk stream. -/
  csId : ℕ
  /-- How the chunk stream is written. -/
  form : BasicForm
  /-- The format. -/
  fmt : ChunkFmt
  /-- It is the first of its message. -/
  first : Bool
  /-- The message. -/
  msg : RtmpMessage
  /-- The timestamp or the difference; that of the last header, if the format has none. -/
  field : UInt32
  /-- What of the message was not sent before. -/
  rest : List UInt8

namespace SentChunk

/-- The bytes of a chunk. The extended timestamp is on **every** chunk. -/
def bytes (chunkSize : ℕ) (chunk : SentChunk) : List UInt8 :=
  basicHeader chunk.fmt chunk.csId chunk.form ++
    (messageHeader chunk.field chunk.msg chunk.fmt ++ extendedTimestamp chunk.field) ++
    chunk.rest.take chunkSize

/-- The chunk stream after the chunk. -/
def after (chunkSize : ℕ) (chunk : SentChunk) : ChunkSource :=
  { msg := chunk.msg, field := chunk.field, rest := chunk.rest.drop chunkSize }

/-- The first chunk of a message, by what its format leaves out. -/
def Describes (chunk : SentChunk) (last : Option ChunkSource) : Prop :=
  match chunk.fmt, last with
  | .type0, _ => chunk.field = chunk.msg.timestamp
  | _, none => False
  | .type1, some last =>
    chunk.msg.streamId = last.msg.streamId ∧
      chunk.msg.timestamp = last.msg.timestamp + chunk.field
  | .type2, some last =>
    chunk.msg.streamId = last.msg.streamId ∧
      chunk.msg.timestamp = last.msg.timestamp + chunk.field ∧
      chunk.msg.msgType = last.msg.msgType ∧
      chunk.msg.payload.length = last.msg.payload.length
  | .type3, some last =>
    chunk.msg.streamId = last.msg.streamId ∧
      chunk.msg.timestamp = last.msg.timestamp + chunk.field ∧
      chunk.msg.msgType = last.msg.msgType ∧
      chunk.msg.payload.length = last.msg.payload.length ∧ chunk.field = last.field

/-- A chunk begins a message when the last one is sent, or goes on with it. -/
def Follows (chunk : SentChunk) (last : Option ChunkSource) : Prop :=
  if chunk.first then
    (∀ source, last = some source → source.rest = []) ∧ chunk.rest = chunk.msg.payload ∧
      chunk.Describes last
  else
    chunk.fmt = .type3 ∧ chunk.rest ≠ [] ∧ last = some ⟨chunk.msg, chunk.field, chunk.rest⟩

end SentChunk

/-- The chunks keep to the rules, and every message is sent to its end. -/
def Conforms (chunkSize : ℕ) (sources : ℕ → Option ChunkSource) : List SentChunk → Prop
  | [] => ∀ csId source, sources csId = some source → source.rest = []
  | chunk :: chunks =>
    chunk.form.Fits chunk.csId ∧ chunk.msg.payload.length < 2 ^ 24 ∧
      chunk.Follows (sources chunk.csId) ∧
      Conforms chunkSize (Function.update sources chunk.csId (some (chunk.after chunkSize))) chunks

/-- The messages, in the order of their last chunks. -/
def messages (chunkSize : ℕ) (chunks : List SentChunk) : List RtmpMessage :=
  chunks.flatMap fun chunk => if chunk.rest.drop chunkSize = [] then [chunk.msg] else []

/-! ## What the parser makes of them -/

/-- What the parser's timestamps are off by on the chunk stream of a chunk, if they were off by
`δ` before: a difference is not repeated. -/
def SentChunk.offset (chunk : SentChunk) (δ : UInt32) : UInt32 :=
  if chunk.first then
    match chunk.fmt with
    | .type0 => 0
    | .type3 => δ - chunk.field
    | _ => δ
  else δ

/-- The chunks, each with what the parser's timestamps are off by. -/
def withOffsets (off : ℕ → UInt32) : List SentChunk → List (SentChunk × UInt32)
  | [] => []
  | chunk :: chunks =>
    let δ := chunk.offset (off chunk.csId)
    (chunk, δ) :: withOffsets (Function.update off chunk.csId δ) chunks

/-- What the parser returns at a chunk. -/
def returned (chunkSize : ℕ) (chunk : SentChunk × UInt32) : List RtmpMessage :=
  ((chunk.1.msg.later chunk.2).completed (chunk.1.rest.drop chunkSize)).toList

/-- The parser has recorded what the sender keeps, but for the offsets. -/
def Mirrors (sources : ℕ → Option ChunkSource) (off : ℕ → UInt32) (state : ChunkState) : Prop :=
  ∀ csId,
    match sources csId with
    | none => state.Idle csId
    | some source => state.InProgress csId (source.msg.later (off csId)) source.rest

/-- What a chunk changes on its chunk stream **alone** is mirrored. -/
theorem Mirrors.update {sources : ℕ → Option ChunkSource} {off : ℕ → UInt32}
    {state state' : ChunkState} (h : Mirrors sources off state) {k : ℕ} {source : ChunkSource}
    {δ : UInt32} (hprogress : state'.InProgress k (source.msg.later δ) source.rest)
    (hothers : ∀ csId, csId ≠ k → ChunkState.SameAt csId state state') :
    Mirrors (Function.update sources k (some source)) (Function.update off k δ) state' := by
  intro csId
  by_cases hne : csId = k
  · rw [hne, Function.update_self, Function.update_self]
    exact hprogress
  · rw [Function.update_of_ne hne, Function.update_of_ne hne]
    have hother := h csId
    rcases hs : sources csId with _ | source
    · rw [hs] at hother
      exact hother.of_sameAt (hothers csId hne)
    · rw [hs] at hother
      exact hother.of_sameAt (hothers csId hne)

namespace SentChunk

variable {chunk : SentChunk} {δ : UInt32}

/-- The header of a first chunk, next to what the parser has recorded. -/
theorem resolve_first {last : Option ChunkSource} {header : Option ChunkHeader}
    (hfirst : chunk.first = true) (hdescribes : chunk.Describes last)
    (hheader : ∀ source, last = some source →
      ∃ h, header = some h ∧ h.Describes (source.msg.later δ)) :
    ∃ h, (rawHeader chunk.csId chunk.field chunk.msg chunk.fmt).resolve header = some h ∧
      h.Describes (chunk.msg.later (chunk.offset δ)) := by
  unfold Describes at hdescribes
  rw [offset, if_pos hfirst]
  rcases hfmt : chunk.fmt with _ | _ | _ | _
  · rw [hfmt] at hdescribes
    refine ⟨_, ChunkHeader.resolve_type0 rfl _, ?_, rfl, rfl, rfl⟩
    simp only [rawHeader, RtmpMessage.later, UInt32.add_zero]
    exact hdescribes
  all_goals
    rw [hfmt] at hdescribes
    obtain _ | source := last
    · exact hdescribes.elim
    obtain ⟨h, rfl, htime, hlength, htype, hstream⟩ := hheader source rfl
    dsimp only [RtmpMessage.later] at hdescribes htime hlength htype hstream
  · obtain ⟨hsid, hts⟩ := hdescribes
    refine ⟨_, ChunkHeader.resolve_type1 rfl h, ?_, rfl, rfl, hstream.trans hsid.symm⟩
    simp only [rawHeader, RtmpMessage.later, htime, hts]
    ac_rfl
  · obtain ⟨hsid, hts, htyp, hlen⟩ := hdescribes
    refine ⟨_, ChunkHeader.resolve_type2 rfl h, ?_, hlength.trans hlen.symm, htype.trans htyp.symm,
      hstream.trans hsid.symm⟩
    simp only [rawHeader, RtmpMessage.later, htime, hts]
    ac_rfl
  · obtain ⟨hsid, hts, htyp, hlen, -⟩ := hdescribes
    refine ⟨_, ChunkHeader.resolve_type3 rfl h, ?_, hlength.trans hlen.symm, htype.trans htyp.symm,
      hstream.trans hsid.symm⟩
    simp only [RtmpMessage.later, htime, hts]
    rw [UInt32.add_assoc, UInt32.add_comm chunk.field, UInt32.sub_add_cancel]

/-- The header of a chunk, where a header of type 3 has no extended timestamp. -/
theorem readChunkHeader_bytes (hform : chunk.form.Fits chunk.csId)
    (hlen : chunk.msg.payload.length < 2 ^ 24)
    (hext : chunk.fmt = .type3 → chunk.field < 0xFFFFFF) (data : List UInt8) :
    readChunkHeader (basicHeader chunk.fmt chunk.csId chunk.form ++
        (messageHeader chunk.field chunk.msg chunk.fmt ++ extendedTimestamp chunk.field) ++ data) =
      some (rawHeader chunk.csId chunk.field chunk.msg chunk.fmt,
        (basicHeader chunk.fmt chunk.csId chunk.form ++
          (messageHeader chunk.field chunk.msg chunk.fmt ++
            extendedTimestamp chunk.field)).length) := by
  have hread := readChunkHeader_encoded hform hlen chunk.field chunk.fmt data
  have hsame : (if chunk.fmt.hasTimestamp then extendedTimestamp chunk.field else []) =
      extendedTimestamp chunk.field := by
    rcases hfmt : chunk.fmt with _ | _ | _ | _
    · rfl
    · rfl
    · rfl
    · rw [extendedTimestamp, if_neg (UInt32.not_le.mpr (hext hfmt))]
      rfl
  rwa [hsame] at hread

/-- **A chunk** is taken, and the parser goes on mirroring the sender. -/
theorem take (chunkSize : ℕ) {sources : ℕ → Option ChunkSource} {off : ℕ → UInt32}
    {state : ChunkState} (hmirrors : Mirrors sources off state) (hform : chunk.form.Fits chunk.csId)
    (hlen : chunk.msg.payload.length < 2 ^ 24) (hfollows : chunk.Follows (sources chunk.csId))
    (hext : chunk.fmt = .type3 → chunk.field < 0xFFFFFF) :
    ∃ state', Mirrors (Function.update sources chunk.csId (some (chunk.after chunkSize)))
        (Function.update off chunk.csId (chunk.offset (off chunk.csId))) state' ∧
      ∀ more, state.takeChunk chunkSize (chunk.bytes chunkSize ++ more) =
        some (state', more, (chunk.msg.later (chunk.offset (off chunk.csId))).completed
          (chunk.rest.drop chunkSize)) := by
  have hraw := readChunkHeader_bytes hform hlen hext (chunk.rest.take chunkSize)
  have hat := hmirrors chunk.csId
  suffices htake : ∃ state', state'.InProgress chunk.csId
        (chunk.msg.later (chunk.offset (off chunk.csId))) (chunk.rest.drop chunkSize) ∧
      (∀ csId, csId ≠ chunk.csId → ChunkState.SameAt csId state state') ∧
      ∀ more, state.takeChunk chunkSize (chunk.bytes chunkSize ++ more) =
        some (state', more, (chunk.msg.later (chunk.offset (off chunk.csId))).completed
          (chunk.rest.drop chunkSize)) by
    obtain ⟨state', hprogress, hothers, htake⟩ := htake
    exact ⟨state', hmirrors.update hprogress hothers, htake⟩
  unfold Follows at hfollows
  cases hfirst : chunk.first with
  | true =>
    rw [if_pos hfirst] at hfollows
    obtain ⟨hdone, hrest, hdescribes⟩ := hfollows
    have hidle : state.Idle chunk.csId := by
      rcases hs : sources chunk.csId with _ | source
      · rwa [hs] at hat
      · rw [hs] at hat
        exact hat.idle (hdone source hs)
    have hrecorded : ∀ source, sources chunk.csId = some source →
        ∃ h, state.headers.lookup chunk.csId = some h ∧
          h.Describes (source.msg.later (off chunk.csId)) := by
      intro source hs
      rw [hs] at hat
      exact hat.header
    obtain ⟨header, hresolve, hheader⟩ := resolve_first hfirst hdescribes hrecorded
    rw [bytes, hrest]
    rw [hrest] at hraw
    refine ChunkState.takeChunk_first ?_ hidle hresolve hheader
    exact hraw
  | false =>
    rw [if_neg (by rw [hfirst]; exact Bool.false_ne_true)] at hfollows
    obtain ⟨hfmt, hne, hlast⟩ := hfollows
    rw [hlast] at hat
    rw [offset, if_neg (by rw [hfirst]; exact Bool.false_ne_true)]
    exact ChunkState.takeChunk_next hraw hfmt hat hne

end SentChunk

theorem map_fst_withOffsets (off : ℕ → UInt32) (chunks : List SentChunk) :
    (withOffsets off chunks).map Prod.fst = chunks := by
  induction chunks generalizing off with
  | nil => rfl
  | cons chunk chunks ih => rw [withOffsets, List.map_cons, ih]

/-- The chunks that are still to come, with the parser's offsets. -/
def Expects (chunkSize : ℕ) (s : Unit × ChunkState) (l : List (SentChunk × UInt32)) : Prop :=
  ∃ sources off chunks, Conforms chunkSize sources chunks ∧
    (∀ chunk ∈ chunks, chunk.fmt = .type3 → chunk.field < 0xFFFFFF) ∧
    Mirrors sources off s.2 ∧ l = withOffsets off chunks

theorem Expects.step {chunkSize : ℕ} {s : Unit × ChunkState} {chunk : SentChunk × UInt32}
    {l : List (SentChunk × UInt32)} (h : Expects chunkSize s (chunk :: l)) :
    ∃ s', Expects chunkSize s' l ∧
      ∀ more, (fixedSize chunkSize).step s (chunk.1.bytes chunkSize ++ more) =
        some (s', more, returned chunkSize chunk) := by
  obtain ⟨sources, off, _ | ⟨chunk', chunks⟩, hconforms, hext, hmirrors, hl⟩ := h
  · cases hl
  · obtain ⟨hform, hlen, hfollows, hconforms'⟩ := hconforms
    obtain ⟨state', hmirrors', htake⟩ := SentChunk.take chunkSize hmirrors hform hlen hfollows
      (hext chunk' List.mem_cons_self)
    obtain ⟨rfl, rfl⟩ := List.cons.inj hl
    refine ⟨((), state'), ⟨_, _, chunks, hconforms', ?_, hmirrors', rfl⟩, ?_⟩
    · exact fun chunk hchunk => hext chunk (List.mem_cons_of_mem chunk' hchunk)
    · intro more
      rw [ReadLoop.step_of_some _ (htake more)]
      rfl

/-- While no header of type 3 has an extended timestamp, the parser returns the messages that
are not empty, **late or early** by its offsets. -/
theorem takeAll_eq_withOffsets {chunkSize : ℕ} {chunks : List SentChunk}
    (hconforms : Conforms chunkSize (fun _ => none) chunks)
    (hext : ∀ chunk ∈ chunks, chunk.fmt = .type3 → chunk.field < 0xFFFFFF) :
    ((fixedSize chunkSize).takeAll ((), .new) (chunks.flatMap (SentChunk.bytes chunkSize))).1 =
      (withOffsets (fun _ => 0) chunks).flatMap (returned chunkSize) := by
  have hnew : Expects chunkSize ((), .new) (withOffsets (fun _ => 0) chunks) :=
    ⟨fun _ => none, fun _ => 0, chunks, hconforms, hext, by rintro csId assembler ⟨⟩, rfl⟩
  obtain ⟨s, -, hdrain⟩ := Incremental.drain_encoded (fixedSize chunkSize).step_consumes
    (fun _ _ _ => Expects.step) hnew
  have hbytes : (withOffsets (fun _ => 0) chunks).flatMap (fun chunk => chunk.1.bytes chunkSize) =
      chunks.flatMap (SentChunk.bytes chunkSize) := by
    conv_rhs => rw [← map_fst_withOffsets (fun _ => 0) chunks, List.flatMap_map]
  rw [hbytes] at hdrain
  rw [ReadLoop.takeAll, ReadLoop.takeAllFuel_eq_drain _ _ _ (Nat.lt_succ_self _), hdrain]

/-! ## When they are right -/

/-- What a chunk completes. -/
def SentChunk.completes (chunkSize : ℕ) (chunk : SentChunk) : List RtmpMessage :=
  if chunk.rest.drop chunkSize = [] then [chunk.msg] else []

theorem messages_cons (chunkSize : ℕ) (chunk : SentChunk) (chunks : List SentChunk) :
    messages chunkSize (chunk :: chunks) = chunk.completes chunkSize ++ messages chunkSize chunks :=
  rfl

theorem length_returned_le (chunkSize : ℕ) (chunk : SentChunk) (δ : UInt32) :
    (returned chunkSize (chunk, δ)).length ≤ (chunk.completes chunkSize).length := by
  rw [returned, RtmpMessage.completed, SentChunk.completes]
  by_cases hrest : chunk.rest.drop chunkSize = []
  · rw [if_pos hrest]
    exact Option.length_toList_le
  · rw [if_neg hrest, if_neg fun h => hrest h.1]
    exact Nat.le_refl 0

theorem length_flatMap_returned_le (chunkSize : ℕ) (off : ℕ → UInt32) (chunks : List SentChunk) :
    ((withOffsets off chunks).flatMap (returned chunkSize)).length ≤
      (messages chunkSize chunks).length := by
  induction chunks generalizing off with
  | nil => exact Nat.le_refl 0
  | cons chunk chunks ih =>
    rw [withOffsets, List.flatMap_cons, messages_cons, List.length_append, List.length_append]
    exact Nat.add_le_add (length_returned_le chunkSize chunk _) (ih _)

/-- The parser returns what a chunk completes **exactly if** the message is not empty and its
timestamp is right. -/
theorem returned_eq_completes_iff {chunkSize : ℕ} {chunk : SentChunk} {δ : UInt32} :
    returned chunkSize (chunk, δ) = chunk.completes chunkSize ↔
      (chunk.rest.drop chunkSize = [] → chunk.msg.payload ≠ [] ∧ δ = 0) := by
  rw [returned, RtmpMessage.completed, SentChunk.completes]
  by_cases hrest : chunk.rest.drop chunkSize = []
  · rw [if_pos hrest]
    by_cases hempty : chunk.msg.payload = []
    · rw [if_neg fun h => h.2 hempty]
      simp [hrest, hempty]
    · rw [if_pos ⟨hrest, hempty⟩]
      simp [hrest, hempty, RtmpMessage.later_eq_self]
  · rw [if_neg hrest, if_neg fun h => hrest h.1]
    simp [hrest]

/-- A type 3 header that begins a message where the timestamps are right, and leaves them so. -/
theorem SentChunk.field_eq_zero (chunk : SentChunk) {last : Option ChunkSource} {δ : UInt32}
    (hfollows : chunk.Follows last)
    (hδ : ∀ source, last = some source → source.rest = [] → δ = 0)
    (hoffset : chunk.offset δ = 0) (hfirst : chunk.first = true) (hfmt : chunk.fmt = .type3) :
    chunk.field = 0 := by
  rw [Follows, if_pos hfirst] at hfollows
  obtain ⟨hdone, -, hdescribes⟩ := hfollows
  unfold Describes at hdescribes
  rw [hfmt] at hdescribes
  rw [offset, if_pos hfirst, hfmt] at hoffset
  cases last with
  | none => exact hdescribes.elim
  | some source =>
    rw [hδ source rfl (hdone source rfl)] at hoffset
    have hsum := congrArg (· + chunk.field) hoffset
    simp only [UInt32.sub_add_cancel, UInt32.zero_add] at hsum
    exact hsum.symm

/-- A chunk that goes on with a message leaves the offset as it is. -/
theorem SentChunk.offset_of_begun (chunk : SentChunk) {last : Option ChunkSource}
    {source : ChunkSource} (hfollows : chunk.Follows last) (hlast : last = some source)
    (hbegun : source.rest ≠ []) (δ : UInt32) :
    chunk.offset δ = δ ∧ source = ⟨chunk.msg, chunk.field, chunk.rest⟩ := by
  rw [Follows] at hfollows
  rw [offset]
  cases hfirst : chunk.first with
  | true =>
    rw [if_pos hfirst] at hfollows
    exact absurd (hfollows.1 source hlast) hbegun
  | false =>
    rw [if_neg (by rw [hfirst]; exact Bool.false_ne_true)] at hfollows
    obtain ⟨-, -, hsource⟩ := hfollows
    exact ⟨rfl, Option.some.inj (hlast.symm.trans hsource)⟩

/-- The parser is right at every chunk, and at those that are still to come of the messages
that have begun. -/
theorem right_of_eq {chunkSize : ℕ} {chunks : List SentChunk}
    {sources : ℕ → Option ChunkSource} {off : ℕ → UInt32}
    (hconforms : Conforms chunkSize sources chunks)
    (hoff : ∀ csId source, sources csId = some source → source.rest = [] → off csId = 0)
    (heq : (withOffsets off chunks).flatMap (returned chunkSize) = messages chunkSize chunks) :
    (∀ chunk ∈ chunks, chunk.first → chunk.fmt = .type3 → chunk.field = 0) ∧
      (∀ chunk ∈ chunks, chunk.msg.payload ≠ []) ∧
      ∀ csId source, sources csId = some source → source.rest ≠ [] →
        off csId = 0 ∧ source.msg.payload ≠ [] := by
  induction chunks generalizing sources off with
  | nil =>
    refine ⟨by simp, by simp, fun csId source hs hrest => ?_⟩
    exact absurd (hconforms csId source hs) hrest
  | cons chunk chunks ih =>
    obtain ⟨hform, hlen, hfollows, hconforms'⟩ := hconforms
    rw [withOffsets, List.flatMap_cons, messages_cons] at heq
    -- neither list of messages is longer than the parser's, so they agree chunk by chunk
    have hhead := length_returned_le chunkSize chunk (chunk.offset (off chunk.csId))
    have htail := length_flatMap_returned_le chunkSize
      (Function.update off chunk.csId (chunk.offset (off chunk.csId))) chunks
    have hsum := congrArg List.length heq
    rw [List.length_append, List.length_append] at hsum
    obtain ⟨hret, hrest⟩ := List.append_inj heq (by omega)
    rw [returned_eq_completes_iff] at hret
    have hoff' : ∀ csId source,
        Function.update sources chunk.csId (some (chunk.after chunkSize)) csId = some source →
        source.rest = [] →
        Function.update off chunk.csId (chunk.offset (off chunk.csId)) csId = 0 := by
      intro csId source hs hdone
      by_cases hne : csId = chunk.csId
      · rw [hne, Function.update_self] at hs
        obtain rfl := Option.some.inj hs
        rw [hne, Function.update_self]
        exact (hret hdone).2
      · rw [Function.update_of_ne hne] at hs ⊢
        exact hoff csId source hs hdone
    obtain ⟨hzero, hpayload, hpending⟩ := ih hconforms' hoff' hrest
    obtain ⟨hne, hδ⟩ : chunk.msg.payload ≠ [] ∧ chunk.offset (off chunk.csId) = 0 := by
      by_cases hdone : chunk.rest.drop chunkSize = []
      · exact hret hdone
      · have hlater := hpending chunk.csId (chunk.after chunkSize) (Function.update_self ..) hdone
        rw [Function.update_self] at hlater
        exact hlater.symm
    refine ⟨List.forall_mem_cons.mpr ⟨?_, hzero⟩, List.forall_mem_cons.mpr ⟨hne, hpayload⟩, ?_⟩
    · exact chunk.field_eq_zero hfollows (hoff chunk.csId) hδ
    · intro csId source hs hbegun
      by_cases hcs : csId = chunk.csId
      · rw [hcs] at hs ⊢
        obtain ⟨hsame, rfl⟩ := chunk.offset_of_begun hfollows hs hbegun (off chunk.csId)
        exact ⟨hsame ▸ hδ, hne⟩
      · have hlater := hpending csId source
        rw [Function.update_of_ne hcs, Function.update_of_ne hcs] at hlater
        exact hlater hs hbegun

/-- If every repeated difference is zero, the timestamps are never off. -/
theorem withOffsets_eq_zero {chunks : List SentChunk}
    (hzero : ∀ chunk ∈ chunks, chunk.first → chunk.fmt = .type3 → chunk.field = 0)
    {off : ℕ → UInt32} (hoff : ∀ csId, off csId = 0) :
    withOffsets off chunks = chunks.map fun chunk => (chunk, 0) := by
  induction chunks generalizing off with
  | nil => rfl
  | cons chunk chunks ih =>
    obtain ⟨hhead, htail⟩ := List.forall_mem_cons.mp hzero
    have hδ : chunk.offset (off chunk.csId) = 0 := by
      rw [hoff, SentChunk.offset]
      split_ifs with hfirst
      · rcases hfmt : chunk.fmt with _ | _ | _ | _
        · rfl
        · rfl
        · rfl
        · rw [hhead hfirst hfmt]
          rfl
      · rfl
    rw [withOffsets, hδ, List.map_cons, ih htail]
    intro csId
    by_cases hne : csId = chunk.csId
    · rw [hne, Function.update_self]
    · rw [Function.update_of_ne hne, hoff]

/-- The chunks of a sender that keeps to the rules, and no header of type 3 with an extended
timestamp among them: the parser returns the messages with their timestamps and payloads
**exactly if** every repeated difference is zero, and no message is empty. -/
theorem takeAll_eq_messages_iff {chunkSize : ℕ} {chunks : List SentChunk}
    (hconforms : Conforms chunkSize (fun _ => none) chunks)
    (hext : ∀ chunk ∈ chunks, chunk.fmt = .type3 → chunk.field < 0xFFFFFF) :
    ((fixedSize chunkSize).takeAll ((), .new) (chunks.flatMap (SentChunk.bytes chunkSize))).1 =
        messages chunkSize chunks ↔
      (∀ chunk ∈ chunks, chunk.first → chunk.fmt = .type3 → chunk.field = 0) ∧
        ∀ chunk ∈ chunks, chunk.msg.payload ≠ [] := by
  rw [takeAll_eq_withOffsets hconforms hext]
  constructor
  · intro heq
    obtain ⟨hzero, hpayload, -⟩ := right_of_eq hconforms (by simp) heq
    exact ⟨hzero, hpayload⟩
  · rintro ⟨hzero, hpayload⟩
    rw [withOffsets_eq_zero hzero fun _ => rfl, List.flatMap_map, messages]
    exact List.flatMap_congr fun chunk hchunk =>
      returned_eq_completes_iff.mpr fun _ => ⟨hpayload chunk hchunk, rfl⟩

theorem takeAll_eq_messages_of_difference :
    Conforms 2 (fun _ => none)
        [⟨3, .oneByte, .type0, true, ⟨9, 5, 1, [1, 2, 3]⟩, 5, [1, 2, 3]⟩,
          ⟨3, .oneByte, .type3, false, ⟨9, 5, 1, [1, 2, 3]⟩, 5, [3]⟩,
          ⟨3, .oneByte, .type1, true, ⟨8, 15, 1, [7]⟩, 10, [7]⟩] ∧
      (((fixedSize 2).takeAll ((), .new)
          (([⟨3, .oneByte, .type0, true, ⟨9, 5, 1, [1, 2, 3]⟩, 5, [1, 2, 3]⟩,
            ⟨3, .oneByte, .type3, false, ⟨9, 5, 1, [1, 2, 3]⟩, 5, [3]⟩,
            ⟨3, .oneByte, .type1, true, ⟨8, 15, 1, [7]⟩, 10, [7]⟩] : List SentChunk).flatMap
              (SentChunk.bytes 2))).1 =
          messages 2 [⟨3, .oneByte, .type0, true, ⟨9, 5, 1, [1, 2, 3]⟩, 5, [1, 2, 3]⟩,
            ⟨3, .oneByte, .type3, false, ⟨9, 5, 1, [1, 2, 3]⟩, 5, [3]⟩,
            ⟨3, .oneByte, .type1, true, ⟨8, 15, 1, [7]⟩, 10, [7]⟩]) := by
  have hconforms : Conforms 2 (fun _ => none)
      [⟨3, .oneByte, .type0, true, ⟨9, 5, 1, [1, 2, 3]⟩, 5, [1, 2, 3]⟩,
        ⟨3, .oneByte, .type3, false, ⟨9, 5, 1, [1, 2, 3]⟩, 5, [3]⟩,
        ⟨3, .oneByte, .type1, true, ⟨8, 15, 1, [7]⟩, 10, [7]⟩] := by
    simp [Conforms, SentChunk.Follows, SentChunk.Describes, SentChunk.after, BasicForm.Fits,
      Function.update_apply]
    intro csId source hs
    split_ifs at hs
    cases hs
    rfl
  refine ⟨hconforms, (takeAll_eq_messages_iff hconforms ?_).mpr ⟨?_, ?_⟩⟩
  · decide
  · decide
  · decide

/-- A message at `2 ^ 24 - 1` ms in two chunks: the extended timestamp of the second is taken
for its payload. -/
theorem takeAll_ne_messages_of_extended :
    Conforms 1 (fun _ => none)
        [⟨3, .oneByte, .type0, true, ⟨9, 0xFFFFFF, 1, [1, 2]⟩, 0xFFFFFF, [1, 2]⟩,
          ⟨3, .oneByte, .type3, false, ⟨9, 0xFFFFFF, 1, [1, 2]⟩, 0xFFFFFF, [2]⟩] ∧
      ((fixedSize 1).takeAll ((), .new)
          (([⟨3, .oneByte, .type0, true, ⟨9, 0xFFFFFF, 1, [1, 2]⟩, 0xFFFFFF, [1, 2]⟩,
            ⟨3, .oneByte, .type3, false, ⟨9, 0xFFFFFF, 1, [1, 2]⟩, 0xFFFFFF, [2]⟩] :
              List SentChunk).flatMap (SentChunk.bytes 1))).1 =
        [⟨9, 0xFFFFFF, 1, [1, 0]⟩] ∧
      messages 1 [⟨3, .oneByte, .type0, true, ⟨9, 0xFFFFFF, 1, [1, 2]⟩, 0xFFFFFF, [1, 2]⟩,
          ⟨3, .oneByte, .type3, false, ⟨9, 0xFFFFFF, 1, [1, 2]⟩, 0xFFFFFF, [2]⟩] =
        [⟨9, 0xFFFFFF, 1, [1, 2]⟩] := by
  refine ⟨?_, by decide, by decide⟩
  simp [Conforms, SentChunk.Follows, SentChunk.Describes, SentChunk.after, BasicForm.Fits,
    Function.update_apply]
  intro csId source hs
  split_ifs at hs
  cases hs
  rfl

-- Here the bytes of the extended timestamp are those of the payload, and nothing is noticed.
example :
    ((fixedSize 4).takeAll ((), .new)
        (([⟨3, .oneByte, .type0, true,
            ⟨9, 0xC3C3C3C3, 1, List.replicate 8 0xC3⟩, 0xC3C3C3C3, List.replicate 8 0xC3⟩,
          ⟨3, .oneByte, .type3, false,
            ⟨9, 0xC3C3C3C3, 1, List.replicate 8 0xC3⟩, 0xC3C3C3C3, List.replicate 4 0xC3⟩] :
            List SentChunk).flatMap (SentChunk.bytes 4))).1 =
      [⟨9, 0xC3C3C3C3, 1, List.replicate 8 0xC3⟩] := by
  decide

end VcpMediaServer
