import VcpMediaServer.RtmpOpening

/-!
# A puller and a server keep to their parts

What each of the two still expects is a list of chunks, behind a handshake of its own: then it takes
the chunks as they come, in reads of any size, and writes its answers.

* `Expected.takeChunk`, `Ready.take` — the next chunk is taken, and of a part of it nothing.
* `PullConnection.takes_puller` — the puller, as long as no wait comes to its last read.
* `RtmpServing.takes_serving` — the server, if its first read brings all of C0 and C1.
-/

namespace VcpMediaServer

open Exchange Lts

/-! ## Chunks -/

/-- Of a part of a chunk nothing is taken. -/
theorem ChunkState.takeChunk_part_none {state state' : ChunkState} {chunkSize : ℕ}
    {bytes part : List UInt8} {msg : Option RtmpMessage}
    (h : state.takeChunk chunkSize bytes = some (state', [], msg)) (hpart : part <+: bytes)
    (hne : part ≠ bytes) : state.takeChunk chunkSize part = none := by
  obtain ⟨behind, rfl⟩ := hpart
  refine Option.eq_none_iff_forall_ne_some.mpr ?_
  rintro ⟨state₁, rest, msg₁⟩ hsome
  have happend := ChunkState.takeChunk_append hsome behind
  rw [h] at happend
  have hnil : rest ++ behind = [] := (Prod.mk.inj (Prod.mk.inj (Option.some.inj happend)).2).1.symm
  rw [(List.append_eq_nil_iff.mp hnil).2, List.append_nil] at hne
  exact hne rfl

/-- The next chunk is taken, by the loop of the puller. -/
theorem Expected.takeChunk {s : ℕ × ChunkState} {chunk : List UInt8 × Option RtmpMessage}
    {chunks : List (List UInt8 × Option RtmpMessage)} (h : Expected s (chunk :: chunks)) :
    ∃ state', Expected (pullerLoop.afterChunk s.1 chunk.2, state') chunks ∧
      ∀ more, s.2.takeChunk s.1 (chunk.1 ++ more) = some (state', more, chunk.2) := by
  obtain ⟨s', hs', hstep⟩ := h.take
  have hmsg : ∀ {o o' : Option RtmpMessage}, o.toList = o'.toList → o = o' := by
    intro o o' heq
    cases o <;> cases o' <;> simp_all
  have htake : ∀ more, s.2.takeChunk s.1 (chunk.1 ++ more) = some (s'.2, more, chunk.2) ∧
      s'.1 = pullerLoop.afterChunk s.1 chunk.2 := by
    intro more
    have hmore := hstep more
    rcases ht : s.2.takeChunk s.1 (chunk.1 ++ more) with _ | ⟨state', rest, msg⟩
    · rw [pullerLoop.step_of_none ht] at hmore
      cases hmore
    · rw [pullerLoop.step_of_some ht] at hmore
      obtain ⟨rfl, heq⟩ := Prod.mk.inj (Option.some.inj hmore)
      obtain ⟨rfl, hlist⟩ := Prod.mk.inj heq
      rw [hmsg hlist]
      exact ⟨rfl, rfl⟩
  refine ⟨s'.2, ?_, fun more => (htake more).1⟩
  rw [← (htake []).2]
  exact hs'

/-! ## The puller -/

namespace PullConnection

variable {order : MapOrder} {url : RtmpUrl} {c : PullConnection} {l : List (Piece UInt8)}
    {i : Piece UInt8}
  {chunks : List (List UInt8 × Option RtmpMessage)} {target : PullStage × List RtmpPullEvent}

/-- The answer to a message, and what has happened to the local stream then. -/
def respond (url : RtmpUrl) (t : PullStage × List RtmpPullEvent) (msg : RtmpMessage) :
    (PullStage × List RtmpPullEvent) × List UInt8 :=
  let r := onMessage url { new with stage := t.1, events := t.2 } msg
  ((r.1.stage, r.1.events), r.2)

theorem onMessage_eq (c : PullConnection) (msg : RtmpMessage) :
    ((onMessage url c msg).1.stage, (onMessage url c msg).1.events) =
      (respond url (c.stage, c.events) msg).1 ∧
      (onMessage url c msg).2 = (respond url (c.stage, c.events) msg).2 ∧
      (onMessage url c msg).1.chunkSize = c.chunkSize ∧
          (onMessage url c msg).1.chunks = c.chunks := by
  obtain ⟨stage, turns, chunkSize, chunks, buf, events⟩ := c
  unfold respond onMessage
  cases stage with
  | connect =>
    dsimp only
    split <;> exact ⟨rfl, rfl, rfl, rfl⟩
  | createStream =>
    dsimp only
    split <;> exact ⟨rfl, rfl, rfl, rfl⟩
  | play serverStreamId =>
    dsimp only
    split <;> exact ⟨rfl, rfl, rfl, rfl⟩
  | handshake | started | failed => exact ⟨rfl, rfl, rfl, rfl⟩

/-- The puller waits up to the last of these chunks, and then it is there. -/
def Goes (url : RtmpUrl) (target : PullStage × List RtmpPullEvent) :
    PullStage × List RtmpPullEvent → List (List UInt8 × Option RtmpMessage) → Prop
  | t, [] => t = target
  | t, (_, none) :: chunks => t.1.waits = true ∧ Goes url target t chunks
  | t, (_, some msg) :: chunks => t.1.waits = true ∧ Goes url target (respond url t msg).1 chunks

/-- What a puller in a wait is still to take. -/
structure Awaits (url : RtmpUrl) (target : PullStage × List RtmpPullEvent) (c : PullConnection)
    (chunks : List (List UInt8 × Option RtmpMessage)) : Prop where
  expected : Expected (c.chunkSize, c.chunks) chunks
  goes : Goes url target (c.stage, c.events) chunks

/-- **The next chunk** is taken. -/
theorem Awaits.take {chunk : List UInt8 × Option RtmpMessage}
    (h : Awaits url target c (chunk :: chunks)) :
    ∃ c', Awaits url target c' chunks ∧
      answered (respond url) (c.stage, c.events) (chunk :: chunks) =
        ⟨chunk.1, (answers (respond url) (c.stage, c.events) chunk.2.toList).2, true⟩ ::
          answered (respond url) (c'.stage, c'.events) chunks ∧
      (∀ more, takeChunk url c (chunk.1 ++ more) =
        some (c', more, (answers (respond url) (c.stage, c.events) chunk.2.toList).2)) ∧
      ∀ part, part <+: chunk.1 → part ≠ chunk.1 → takeChunk url c part = none := by
  obtain ⟨state', hexpected, htake⟩ := h.expected.takeChunk
  have hwhole := htake []
  rw [List.append_nil] at hwhole
  obtain ⟨bytes, _ | msg⟩ := chunk
  · obtain ⟨hwaits, hgoes⟩ := h.goes
    refine ⟨{ c with chunks := state' }, ⟨hexpected, hgoes⟩, rfl, fun more => ?_,
      fun part hpart hne => ?_⟩
    · rw [takeChunk, if_pos hwaits, htake more]
      rfl
    · rw [takeChunk, if_pos hwaits, ChunkState.takeChunk_part_none hwhole hpart hne]
  · obtain ⟨hwaits, hgoes⟩ := h.goes
    let c₀ : PullConnection :=
      { c with
        chunks := state'
        chunkSize := (handleControlMessage msg.payload msg.msgType).getD c.chunkSize }
    obtain ⟨hstage, hwrites, hsize, hchunks⟩ := @onMessage_eq url c₀ msg
    refine ⟨(onMessage url c₀ msg).1, ⟨?_, ?_⟩, ?_, fun more => ?_, fun part hpart hne => ?_⟩
    · rw [hsize, hchunks]
      exact hexpected
    · rw [hstage]
      exact hgoes
    · rw [answered, hstage]
      simp only [Option.toList_some, answers, List.append_nil]
      rfl
    · rw [takeChunk, if_pos hwaits, htake more]
      simp only [Option.toList_some, answers, List.append_nil]
      rw [show respond url (c.stage, c.events) msg = respond url (c₀.stage, c₀.events) msg from rfl,
        ← hwrites]
    · rw [takeChunk, if_pos hwaits, ChunkState.takeChunk_part_none hwhole hpart hne]

theorem takeChunk_consumes (url : RtmpUrl) : Incremental.Consumes (takeChunk url) := by
  intro c buf c' rest out h
  rw [takeChunk] at h
  split at h
  · split at h
    · cases h
    · next ht =>
      cases h
      exact ChunkState.takeChunk_length ht
    · next ht =>
      cases h
      exact ChunkState.takeChunk_length ht
  · cases h

theorem takeChunk_of_not_waits (h : c.stage.waits = false) (buf : List UInt8) :
    takeChunk url c buf = none := by
  rw [takeChunk, h]
  rfl

/-- The pieces that a puller in a wait is still to take. -/
def Expects (url : RtmpUrl) (target : PullStage × List RtmpPullEvent) (c : PullConnection)
    (l : List (Piece UInt8)) :
    Prop := ∃ chunks, Awaits url target c chunks ∧ l = answered (respond url)
      (c.stage, c.events) chunks

/-- Nothing is left to take: the puller is where it should be. -/
theorem Expects.done (h : Expects url target c []) :
    (c.stage, c.events) = target ∧ Expected (c.chunkSize, c.chunks) [] := by
  obtain ⟨chunks, hawaits, hl⟩ := h
  cases chunks with
  | nil => exact ⟨hawaits.goes, hawaits.expected⟩
  | cons chunk chunks =>
    obtain ⟨bytes, _ | msg⟩ := chunk <;> cases hl

/-- The next piece is taken, and nothing of a part of it. -/
theorem Expects.take (h : Expects url target c (i :: l)) :
    (∃ c', Expects url target c' l ∧
      (∀ more, takeChunk url c (i.bytes ++ more) = some (c', more, i.writes)) ∧
      i.bytes ≠ []) ∧
    ∀ part, part <+: i.bytes → part ≠ i.bytes → takeChunk url c part = none := by
  obtain ⟨chunks, hawaits, hl⟩ := h
  cases chunks with
  | nil => cases hl
  | cons chunk chunks =>
    obtain ⟨c', hawaits', hpieces, htake, hpart⟩ := hawaits.take
    rw [hpieces] at hl
    obtain ⟨rfl, rfl⟩ := List.cons.inj hl
    refine ⟨⟨c', ⟨chunks, hawaits', rfl⟩, htake, ?_⟩, hpart⟩
    rintro (hnil : chunk.1 = [])
    have htaken := htake []
    rw [hnil] at htaken
    exact Nat.lt_irrefl 0 (takeChunk_consumes url _ _ _ _ _ htaken)

/-- What is remembered of a part of the next piece does no harm. -/
theorem Expects.leave {front : List UInt8} (h : Expects url target c l)
    (hwaits : ∀ i next, l = i :: next → Waiting i front) (htarget : target.1.waits = false) :
    Expects url target (c.leave front) l := by
  obtain ⟨chunks, hawaits, rfl⟩ := h
  refine ⟨chunks, ⟨?_, hawaits.goes⟩, rfl⟩
  cases chunks with
  | nil =>
    have hstage : c.stage = target.1 :=
      congrArg Prod.fst (show (c.stage, c.events) = target from hawaits.goes)
    rw [PullConnection.leave, hstage, htarget]
    exact hawaits.expected
  | cons chunk chunks =>
    have hstage : c.stage.waits = true := by
      have hgoes := hawaits.goes
      obtain ⟨bytes, _ | msg⟩ := chunk
      · exact hgoes.1
      · exact hgoes.1
    obtain ⟨_, -, hpieces, -, -⟩ := hawaits.take
    have hfront := (hwaits _ _ hpieces).1
    rw [PullConnection.leave, hstage]
    exact hawaits.expected.touch hfront

/-- The answer of the server to the handshake. -/
def response : List UInt8 := handshakeResponse (List.replicate handshakeSize 0)

/-- The piece that is the answer to the handshake. -/
def handshakePiece (order : MapOrder) (url : RtmpUrl) : Piece UInt8 where
  bytes := response
  writes := List.replicate handshakeSize 0 ++
    commandBytes (buildConnectCommand order connectTxId url.app url.tcUrl)
  alone := true

/-- What a puller has in hand of the pieces that are still to come. -/
inductive Holds (order : MapOrder) (url : RtmpUrl) (target : PullStage × List RtmpPullEvent) :
    PullConnection → List UInt8 → List (Piece UInt8) → Prop
  | handshake {front : List UInt8} {l : List (Piece UInt8)} (front_begins : front <+: response)
      (front_ne : front ≠ response) (expects : Expects url target { new with stage := .connect } l)
        :
      Holds order url target { new with buf := front } front (handshakePiece order url :: l)
  | waits {c : PullConnection} {l : List (Piece UInt8)} (expects : Expects url target c l)
      (waiting : ∀ i next, l = i :: next → Waiting i c.buf) : Holds order url target c c.buf l

/-- The read of a wait is not its last. -/
def OnTime (c : PullConnection) (_ : ℕ) : Prop := c.stage.waits = true → c.turns + 1 ≠ WAIT_TURNS

theorem length_response : response.length = responseSize := by
  rw [response, handshakeResponse, List.length_cons, List.length_append, List.length_replicate]
  rfl

theorem slice_response : slice response 1 handshakeSize = List.replicate handshakeSize 0 := by
  rw [slice, response, handshakeResponse, List.drop_succ_cons, List.drop_zero,
    List.take_left' List.length_replicate]

theorem read_handshake_short (hstage : c.stage = .handshake) {bytes : List UInt8}
    (h : (c.buf ++ bytes).length < responseSize) :
    c.read order url bytes = ({ c with buf := c.buf ++ bytes }, []) := by
  rw [PullConnection.read, if_pos hstage, if_pos h]

theorem read_handshake_whole (hstage : c.stage = .handshake) {bytes : List UInt8}
    (h : c.buf ++ bytes = response) :
    c.read order url bytes =
        ({ c with stage := .connect, buf := [] }, (handshakePiece order url).writes) := by
  have hlen : ¬ response.length < responseSize := by
    rw [length_response]
    exact Nat.lt_irrefl _
  have hversion : ¬ response.headD 0 ≠ 0x03 := not_not.mpr rfl
  rw [PullConnection.read, if_pos hstage, h, if_neg hlen, if_neg hversion, slice_response]
  rfl

/-- A puller that has a piece to take is in a wait. -/
theorem Expects.waits (h : Expects url target c (i :: l)) : c.stage.waits = true := by
  obtain ⟨⟨_, _, htake, -⟩, -⟩ := h.take
  by_contra hnot
  have htaken := htake []
  rw [takeChunk_of_not_waits (Bool.eq_false_iff.mpr hnot)] at htaken
  cases htaken

theorem Expects.stage_ne (h : Expects url target c l) (hstage : target.1 ≠ .handshake) :
    c.stage ≠ .handshake := by
  intro heq
  cases l with
  | nil => exact hstage (heq ▸ (congrArg Prod.fst h.done.1).symm)
  | cons i l =>
    have hwaits := h.waits
    rw [heq] at hwaits
    cases hwaits

theorem Holds.waiting {front : List UInt8} (h : Holds order url target c front (i :: l)) :
    Waiting i front := by
  generalize hl : i :: l = left at h
  cases h with
  | handshake hbegins hne _ =>
    obtain ⟨rfl, -⟩ := List.cons.inj hl
    exact ⟨hbegins, fun heq => absurd heq hne⟩
  | waits _ hwaiting => exact hwaiting _ _ hl.symm

theorem Holds.room_pos {front : List UInt8} (h : Holds order url target c front (i :: l)) :
    0 < c.room := by
  generalize hl : i :: l = left at h
  cases h with
  | handshake hbegins hne _ =>
    have hlt := Nat.lt_of_le_of_ne hbegins.length_le fun hlen => hne (hbegins.eq_of_length hlen)
    rw [length_response] at hlt
    exact Nat.sub_pos_of_lt hlt
  | waits hexpects _ =>
    have hreads := (hl ▸ hexpects : Expects url target c (i :: l)).waits
    rw [PullConnection.room]
    cases hstage : c.stage with
    | connect | createStream | play => exact Nat.succ_pos _
    | handshake | started | failed =>
      rw [hstage] at hreads
      cases hreads

section

variable {front bytes tail rest : List UInt8}

/-- In the handshake: a read completes the answer of the server, or a part of it. -/
theorem proceeds_handshake (hbegins : front <+: response)
    (hexpects : Expects url target { new with stage := .connect } l)
    (hroom : bytes.length ≤ responseSize - front.length)
    (hbytes : front ++ bytes ++ tail = (handshakePiece order url :: l).flatMap Piece.bytes ++ rest)
    :
    Proceeds (puller order url) (Holds order url target) rest { new with buf := front } bytes tail
      (handshakePiece order url :: l) := by
  have hlen : (front ++ bytes).length ≤ responseSize := by
    have hfront := hbegins.length_le
    rw [length_response] at hfront
    rw [List.length_append]
    omega
  rw [List.flatMap_cons, List.append_assoc (handshakePiece order url).bytes] at hbytes
  have hpart : front ++ bytes <+: response :=
    List.prefix_of_prefix_length_le ⟨tail, hbytes⟩ (List.prefix_append _ _) (length_response ▸ hlen)
  by_cases hshort : (front ++ bytes).length < responseSize
  · have hread : PullConnection.read order url { new with buf := front } bytes =
        ({ new with buf := front ++ bytes }, []) :=
          read_handshake_short (c := { new with buf := front }) rfl hshort
    refine ⟨_, _, [], _, rfl, hread, .handshake hpart ?_ hexpects, ?_⟩
    · intro heq
      rw [heq, length_response] at hshort
      exact Nat.lt_irrefl _ hshort
    · rw [List.flatMap_cons, List.append_assoc (handshakePiece order url).bytes]
      exact hbytes
  · have hall : front ++ bytes = response := hpart.eq_of_length_le (by rw [length_response]; omega)
    have hread : PullConnection.read order url { new with buf := front } bytes =
        ({ new with stage := .connect }, (handshakePiece order url).writes) :=
      read_handshake_whole (c := { new with buf := front }) rfl hall
    refine ⟨_, [], [handshakePiece order url], l, rfl, ?_, .waits hexpects fun i next heq => ?_, ?_⟩
    · rw [List.flatMap_singleton]
      exact hread
    · obtain ⟨⟨_, -, -, hne⟩, -⟩ := Expects.take (heq ▸ hexpects)
      exact ⟨List.nil_prefix, fun hnil => absurd hnil.symm hne⟩
    · rw [hall] at hbytes
      exact List.append_cancel_left hbytes

variable (hexpects : Expects url target c l) (hwaiting : ∀ i next, l = i :: next → Waiting i c.buf)
  (hstage : target.1 ≠ .handshake) (hbytes : c.buf ++ bytes ++ tail = l.flatMap Piece.bytes ++ rest)
include hexpects hwaiting hstage hbytes

/-- Behind the waits nothing is read any more. -/
theorem proceeds_ended (hwaits : c.stage.waits = false) (hroom : bytes.length ≤ c.room) :
    Proceeds (puller order url) (Holds order url target) rest c bytes tail l := by
  have hnot := hexpects.stage_ne hstage
  have hnone : bytes = [] := by
    rw [PullConnection.room] at hroom
    cases hc : c.stage with
    | handshake => exact absurd hc hnot
    | started | failed =>
      rw [hc] at hroom
      exact List.length_eq_zero_iff.mp (Nat.le_zero.mp hroom)
    | connect | createStream | play =>
      rw [hc] at hwaits
      cases hwaits
  rw [hnone, List.append_nil] at hbytes
  refine ⟨c, c.buf, [], l, rfl, ?_, .waits hexpects hwaiting, hbytes⟩
  change c.read order url bytes = _
  rw [PullConnection.read, if_neg hnot, hwaits]
  rfl

omit hwaiting in
/-- In a wait: the pieces that are complete are taken, and the rest is left. -/
theorem proceeds_wait (htarget : target.1.waits = false) (hwaits : c.stage.waits = true)
    (hguard : c.turns + 1 ≠ WAIT_TURNS) :
    Proceeds (puller order url) (Holds order url target) rest c bytes tail l := by
  have hexpects' : Expects url target { c with turns := c.turns + 1 } l := by
    obtain ⟨chunks, ⟨hexpected, hgoes⟩, hl⟩ := hexpects
    exact ⟨chunks, ⟨hexpected, hgoes⟩, hl⟩
  obtain ⟨c', done, left, front', rfl, hdrain, hexpects'', hfront', hwaiting'⟩ :=
    drain_pieces (takeChunk_consumes url)
      (fun c i l h => by
        obtain ⟨⟨c', hc', htake, -⟩, -⟩ := Expects.take h
        exact ⟨c', hc', htake⟩)
      (fun c i l part h => (Expects.take h).2 part)
      (fun c part h _ => takeChunk_of_not_waits
        ((congrArg (fun t => t.1.waits) h.done.1).trans htarget) part)
      hexpects' hbytes
  have hread : c.read order url bytes = (c'.leave front', done.flatMap Piece.writes) := by
    rw [PullConnection.read, if_neg (hexpects.stage_ne hstage), hwaits, if_pos rfl]
    dsimp only
    rw [if_neg hguard, hdrain]
  exact ⟨c'.leave front', front', done, left, rfl, hread,
    .waits (c := c'.leave front') (hexpects''.leave hwaiting' htarget) hwaiting', hfront'⟩

end

/-- **A puller** keeps to its part, as long as its waits are on time. -/
theorem takes_puller (order : MapOrder) (htarget : target.1.waits = false)
    (hstage : target.1 ≠ .handshake) (rest : List UInt8) :
    Takes (puller order url) OnTime (Holds order url target) rest where
  waiting h := h.waiting
  room h := h.room_pos
  read {c _ _ _ _} h hguard hroom hbytes := by
    cases h with
    | handshake hbegins _ hexpects => exact proceeds_handshake hbegins hexpects hroom hbytes
    | waits hexpects hwaiting =>
      cases hwaits : c.stage.waits with
      | false => exact proceeds_ended hexpects hwaiting hstage hbytes hwaits hroom
      | true => exact proceeds_wait hexpects hstage hbytes htarget hwaits (hguard hwaits)

end PullConnection

/-! ## The server -/

namespace RtmpServing

variable {order : MapOrder} {peerAddr : String} {s : RtmpServing} {l : List (Piece UInt8)}
    {i : Piece UInt8}
  {chunks : List (List UInt8 × Option RtmpMessage)} {target : RtmpConnection × StreamManager}
  {m : StreamManager}

/-- The answers to a message, with the connection and the streams then. -/
def respond (order : MapOrder) (peerAddr : String) (t : RtmpConnection × StreamManager)
    (msg : RtmpMessage) :
    (RtmpConnection × StreamManager) × List UInt8 :=
  match RtmpConnection.handleRtmpMessage t.2 t.1 msg peerAddr true with
  | some (manager, conn, .done replies _) =>
    ((conn, manager), replyBytes order conn.session replies)
  | some (manager, conn, _) => ((conn, manager), [])
  | none => (t, [])

/-- No message of these chunks is an error, or sets a size, and after the last the connection is
there. -/
def Goes (order : MapOrder) (peerAddr : String) (target : RtmpConnection × StreamManager) :
    RtmpConnection × StreamManager → List (List UInt8 × Option RtmpMessage) → Prop
  | t, [] => t = target
  | t, (_, none) :: chunks => Goes order peerAddr target t chunks
  | t, (_, some msg) :: chunks =>
    (∃ manager conn replies,
      RtmpConnection.handleRtmpMessage t.2 t.1 msg peerAddr true =
        some (manager, conn, .done replies none)) ∧
      Goes order peerAddr target (respond order peerAddr t msg).1 chunks

/-- What a server is still to take, behind the handshake. -/
structure Awaits (order : MapOrder) (peerAddr : String) (target : RtmpConnection × StreamManager)
    (s : RtmpServing) (chunks : List (List UInt8 × Option RtmpMessage)) : Prop where
  handshakeDone : s.handshakeDone = true
  closed : s.closed = false
  vars : s.vars = .new
  ready : Ready initialChunkSize s.chunks 3 chunks
  goes : Goes order peerAddr target (s.conn, s.manager) chunks

/-- **The next chunk** is taken. -/
theorem Awaits.take {chunk : List UInt8 × Option RtmpMessage}
    (h : Awaits order peerAddr target s (chunk :: chunks)) :
    ∃ s', Awaits order peerAddr target s' chunks ∧
      answered (respond order peerAddr) (s.conn, s.manager) (chunk :: chunks) =
        ⟨chunk.1, (answers (respond order peerAddr) (s.conn, s.manager) chunk.2.toList).2, true⟩ ::
          answered (respond order peerAddr) (s'.conn, s'.manager) chunks ∧
      (∀ more, takeChunk order peerAddr s (chunk.1 ++ more) =
        some (s', more, (answers (respond order peerAddr) (s.conn, s.manager) chunk.2.toList).2)) ∧
      ∀ part, part <+: chunk.1 → part ≠ chunk.1 → takeChunk order peerAddr s part = none := by
  obtain ⟨state', hready, -, htake⟩ := h.ready.take (show 0 < initialChunkSize by decide)
  have hsize : s.vars.chunkSize = initialChunkSize := congrArg ServerVars.chunkSize h.vars
  have hopen : ¬ s.closed = true := by
    rw [h.closed]
    exact Bool.false_ne_true
  have hwhole := htake []
  rw [List.append_nil] at hwhole
  have hpart : ∀ part, part <+: chunk.1 → part ≠ chunk.1 →
      takeChunk order peerAddr s part = none := by
    intro part hbegins hne
    rw [takeChunk, if_neg hopen, hsize, ChunkState.takeChunk_part_none hwhole hbegins hne]
  obtain ⟨bytes, _ | msg⟩ := chunk
  · refine ⟨{ s with chunks := state' }, ⟨h.handshakeDone, h.closed, h.vars, hready, h.goes⟩, rfl,
      fun more => ?_, hpart⟩
    rw [takeChunk, if_neg hopen, hsize, htake more]
    rfl
  · obtain ⟨⟨manager, conn, replies, hhandle⟩, hgoes⟩ := h.goes
    have hrespond : respond order peerAddr (s.conn, s.manager) msg =
        ((conn, manager), replyBytes order conn.session replies) := by
      rw [respond, hhandle]
    have hmessage : onMessage order peerAddr { s with chunks := state' } msg =
        ({ s with chunks := state', manager, conn }, replyBytes order conn.session replies) := by
      rw [onMessage, hhandle]
      rfl
    rw [hrespond] at hgoes
    refine ⟨{ s with chunks := state', manager, conn },
      ⟨h.handshakeDone, h.closed, h.vars, hready, hgoes⟩, ?_, fun more => ?_, hpart⟩
    · rw [answered, hrespond]
      simp only [Option.toList_some, answers, hrespond, List.append_nil]
    · rw [takeChunk, if_neg hopen, hsize, htake more]
      dsimp only
      rw [hmessage]
      simp only [Option.toList_some, answers, hrespond, List.append_nil]

theorem takeChunk_consumes (order : MapOrder) (peerAddr : String) :
    Incremental.Consumes (takeChunk order peerAddr) := by
  intro s buf s' rest out h
  rw [takeChunk] at h
  split at h
  · cases h
  · split at h
    · cases h
    · next ht =>
      cases h
      exact ChunkState.takeChunk_length ht
    · next ht =>
      cases h
      exact ChunkState.takeChunk_length ht

/-- The pieces that a server is still to take, behind the handshake. -/
def Expects (order : MapOrder) (peerAddr : String) (target : RtmpConnection × StreamManager)
    (s : RtmpServing) (l : List (Piece UInt8)) : Prop :=
  ∃ chunks, Awaits order peerAddr target s chunks ∧ l = answered (respond order peerAddr)
    (s.conn, s.manager) chunks

/-- Nothing is left to take: the connection is where it should be. -/
theorem Expects.done (h : Expects order peerAddr target s []) : (s.conn, s.manager) = target := by
  obtain ⟨chunks, hawaits, hl⟩ := h
  cases chunks with
  | nil => exact hawaits.goes
  | cons chunk chunks =>
    obtain ⟨bytes, _ | msg⟩ := chunk <;> cases hl

/-- The next piece is taken, and nothing of a part of it. -/
theorem Expects.take (h : Expects order peerAddr target s (i :: l)) :
    (∃ s', Expects order peerAddr target s' l ∧
      ∀ more, takeChunk order peerAddr s (i.bytes ++ more) = some (s', more, i.writes)) ∧
    ∀ part, part <+: i.bytes → part ≠ i.bytes → takeChunk order peerAddr s part = none := by
  obtain ⟨chunks, hawaits, hl⟩ := h
  cases chunks with
  | nil => cases hl
  | cons chunk chunks =>
    obtain ⟨s', hawaits', hpieces, htake, hpart⟩ := hawaits.take
    rw [hpieces] at hl
    obtain ⟨rfl, rfl⟩ := List.cons.inj hl
    exact ⟨⟨s', ⟨chunks, hawaits', rfl⟩, htake⟩, hpart⟩

/-- The messages of a buffer, in the middle of the script. -/
theorem Expects.serve (h : Expects order peerAddr target s l) {part tail : List UInt8}
    (hpart : part ++ tail = l.flatMap Piece.bytes) :
    ∃ s' done left, l = done ++ left ∧
      s.serve order peerAddr part = (s', done.flatMap Piece.writes) ∧
      Expects order peerAddr target s' left ∧ s'.buf ++ tail = left.flatMap Piece.bytes ∧
      ∀ i next, left = i :: next → Waiting i s'.buf := by
  have hpart' : part ++ tail = l.flatMap Piece.bytes ++ [] := by rw [hpart, List.append_nil]
  obtain ⟨s', done, left, front, rfl, hdrain, ⟨chunks, hawaits, hleft⟩, hfront, hwaiting⟩ :=
    drain_pieces (takeChunk_consumes order peerAddr)
      (fun s i l h => (Expects.take h).1)
      (fun s i l part h => (Expects.take h).2 part)
      (fun s part _ hnil => by
        rw [List.prefix_nil.mp hnil]
        exact (takeChunk_consumes order peerAddr).step_nil s)
      h hpart'
  rw [List.append_nil] at hfront
  rw [RtmpServing.serve, hdrain]
  dsimp only
  rw [if_neg (by rw [hawaits.closed]; exact Bool.false_ne_true)]
  refine ⟨_, done, left, rfl, rfl,
    ⟨chunks, ⟨hawaits.handshakeDone, hawaits.closed, ?_, ?_, hawaits.goes⟩, hleft⟩, hfront,
    hwaiting⟩
  · dsimp only
    rw [hawaits.vars]
    rfl
  · dsimp only
    cases chunks with
    | nil =>
      rw [show left = [] from hleft] at hfront
      rw [(List.append_eq_nil_iff.mp hfront).1, ChunkState.seeHeader_of_read_none rfl]
      exact hawaits.ready
    | cons chunk chunks =>
      obtain ⟨_, -, hpieces, -, -⟩ := hawaits.take
      exact (hawaits.ready.seeHeader (by decide) (hwaiting _ _ (hleft.trans hpieces)).1).1

/-- C2, which is what S1 was. -/
def c2 : List UInt8 := List.replicate handshakeSize 0

/-- The piece that is C0 and C1. -/
def firstPiece : Piece UInt8 := ⟨c0c1, PullConnection.response, true⟩

/-- The piece that is C2: a later read takes it when a byte more is there. -/
def secondPiece : Piece UInt8 := ⟨c2, [], false⟩

/-- The handshake is complete. -/
def shaken (s : RtmpServing) : RtmpServing :=
  { s with
    handshakeDone := true
    conn := { s.conn with session := { s.conn.session with state := .connected } } }

/-- What a server has in hand of the pieces that are still to come. -/
inductive Holds (order : MapOrder) (peerAddr : String) (target : RtmpConnection × StreamManager)
    (m : StreamManager) :
    RtmpServing → List UInt8 → List (Piece UInt8) → Prop
  | first {l : List (Piece UInt8)} (expects : Expects order peerAddr target (new m).shaken l) :
      Holds order peerAddr target m (new m) [] (firstPiece :: secondPiece :: l)
  | second {front : List UInt8} {l : List (Piece UInt8)} (front_begins : front <+: c2)
      (expects : Expects order peerAddr target (new m).shaken l) :
      Holds order peerAddr target m { new m with firstCall := false, buf := front } front
        (secondPiece :: l)
  | running {s : RtmpServing} {l : List (Piece UInt8)} (expects : Expects order peerAddr target s l)
      (waiting : ∀ i next, l = i :: next → Waiting i s.buf) :
      Holds order peerAddr target m s s.buf l

/-- A first read brings all of C0 and C1. -/
def BringsAll (s : RtmpServing) (n : ℕ) : Prop :=
  s.handshakeDone = false → s.firstCall = true → c0c1.length ≤ n

theorem length_c2 : c2.length = handshakeSize := List.length_replicate

/-- A first read that brings C0 and C1. -/
theorem first_call_all (more : List UInt8) :
    handleHandshake (c0c1 ++ more) true =
      if handshakeSize ≤ more.length then (true, more.drop handshakeSize, PullConnection.response)
      else (false, more, PullConnection.response) := first_call_long length_c2

/-- The chunk parser does not look at how the handshake was done. -/
theorem Expects.of_shaken {s s' : RtmpServing} (h : Expects order peerAddr target s l)
    (handshakeDone : s'.handshakeDone = s.handshakeDone) (closed : s'.closed = s.closed)
    (vars : s'.vars = s.vars) (chunks : s'.chunks = s.chunks) (conn : s'.conn = s.conn)
    (manager : s'.manager = s.manager) :
    Expects order peerAddr target s' l := by
  obtain ⟨cs, ⟨h₁, h₂, h₃, h₄, h₅⟩, rfl⟩ := h
  exact ⟨cs, ⟨handshakeDone.trans h₁, closed.trans h₂, vars.trans h₃, chunks ▸ h₄,
    conn ▸ manager ▸ h₅⟩, by rw [conn, manager]⟩

theorem read_of_incomplete {bytes rest response : List UInt8} (hclosed : s.closed = false)
    (hdone : s.handshakeDone = false)
    (h : handleHandshake (s.buf ++ bytes) s.firstCall = (false, rest, response)) :
    s.read order peerAddr bytes = ({ s with firstCall := false, buf := rest }, response) := by
  have hopen : ¬ s.closed = true := by
    rw [hclosed]
    exact Bool.false_ne_true
  have hshaking : ¬ s.handshakeDone = true := by
    rw [hdone]
    exact Bool.false_ne_true
  rw [RtmpServing.read, if_neg hopen, if_neg hshaking, h]

theorem read_of_complete {bytes rest response : List UInt8} (hclosed : s.closed = false)
    (hdone : s.handshakeDone = false) (h : handleHandshake (s.buf ++ bytes) s.firstCall =
      (true, rest, response)) :
    s.read order peerAddr bytes =
      ((s.shaken.serve order peerAddr rest).1,
          response ++ (s.shaken.serve order peerAddr rest).2) := by
  have hopen : ¬ s.closed = true := by
    rw [hclosed]
    exact Bool.false_ne_true
  have hshaking : ¬ s.handshakeDone = true := by
    rw [hdone]
    exact Bool.false_ne_true
  rw [RtmpServing.read, if_neg hopen, if_neg hshaking, h]
  rfl

theorem Holds.waiting {front : List UInt8} (h : Holds order peerAddr target m s front (i :: l)) :
    Waiting i front := by
  generalize hl : i :: l = left at h
  cases h with
  | first _ =>
    obtain ⟨rfl, -⟩ := List.cons.inj hl
    exact ⟨List.nil_prefix, fun heq => nomatch heq⟩
  | second hbegins _ =>
    obtain ⟨rfl, -⟩ := List.cons.inj hl
    exact ⟨hbegins, fun _ => rfl⟩
  | running _ hwaiting => exact hwaiting _ _ hl.symm

theorem read_serving (s : RtmpServing) (bytes : List UInt8) :
    (serving order peerAddr).read s bytes = s.read order peerAddr bytes := rfl

theorem Holds.not_closed {front : List UInt8} (h : Holds order peerAddr target m s front l) :
    s.closed = false := by
  cases h with
  | first _ => rfl
  | second _ _ => rfl
  | running hexpects _ =>
    obtain ⟨_, hawaits, -⟩ := hexpects
    exact hawaits.closed

section

variable {bytes tail : List UInt8}

/-- The first read brings all of C0 and C1, and C2 or a part of it. -/
theorem proceeds_first (hexpects : Expects order peerAddr target (new m).shaken l)
    (hall : c0c1.length ≤ bytes.length)
    (hbytes : bytes ++ tail = (firstPiece :: secondPiece :: l).flatMap Piece.bytes) :
    Proceeds (serving order peerAddr) (Holds order peerAddr target m) [] (new m) bytes tail
      (firstPiece :: secondPiece :: l) := by
  rw [List.flatMap_cons, List.flatMap_cons] at hbytes
  obtain ⟨more, rfl⟩ : c0c1 <+: bytes :=
    List.prefix_of_prefix_length_le (List.prefix_append _ _) ⟨tail, hbytes⟩ hall
  rw [List.append_assoc] at hbytes
  have hmore : more ++ tail = c2 ++ l.flatMap Piece.bytes := List.append_cancel_left hbytes
  have hcall := first_call_all more
  by_cases hlong : handshakeSize ≤ more.length
  · rw [if_pos hlong] at hcall
    obtain ⟨rest, rfl⟩ : c2 <+: more :=
      List.prefix_of_prefix_length_le (List.prefix_append _ _) ⟨tail, hmore⟩ (length_c2 ▸ hlong)
    rw [List.append_assoc] at hmore
    rw [List.drop_left' length_c2] at hcall
    obtain ⟨s', done, left, rfl, hserve, hexpects', hrest, hwaiting⟩ :=
      hexpects.serve (List.append_cancel_left hmore)
    have hread : (new m).read order peerAddr (c0c1 ++ (c2 ++ rest)) =
        (((new m).shaken.serve order peerAddr rest).1,
          PullConnection.response ++ ((new m).shaken.serve order peerAddr rest).2) :=
      read_of_complete rfl rfl hcall
    rw [hserve] at hread
    refine ⟨s', s'.buf, firstPiece :: secondPiece :: done, left, rfl, ?_,
      .running hexpects' hwaiting, ?_⟩
    · rw [read_serving, hread, List.flatMap_cons, List.flatMap_cons]
      rfl
    · rw [hrest, List.append_nil]
  · rw [if_neg hlong] at hcall
    have hbegins : more <+: c2 :=
      List.prefix_of_prefix_length_le ⟨tail, hmore⟩ (List.prefix_append _ _)
      (by rw [length_c2]; omega)
    have hread : (new m).read order peerAddr (c0c1 ++ more) =
        ({ new m with firstCall := false, buf := more }, PullConnection.response) :=
      read_of_incomplete rfl rfl hcall
    refine ⟨_, more, [firstPiece], secondPiece :: l, rfl, ?_, .second hbegins hexpects, ?_⟩
    · rw [read_serving, hread, List.flatMap_singleton]
      rfl
    · rw [List.flatMap_cons, List.append_nil]
      exact hmore

/-- A later read of the handshake takes C2 when a byte more is there. -/
theorem proceeds_second {front : List UInt8}
    (hexpects : Expects order peerAddr target (new m).shaken l)
    (hbytes : front ++ bytes ++ tail = (secondPiece :: l).flatMap Piece.bytes) :
    Proceeds (serving order peerAddr) (Holds order peerAddr target m) []
      { new m with firstCall := false, buf := front }
      bytes tail (secondPiece :: l) := by
  rw [List.flatMap_cons] at hbytes
  by_cases hlong : handshakeSize < (front ++ bytes).length
  · have hcall := second_phase_long hlong
    obtain ⟨rest, hrest⟩ : c2 <+: front ++ bytes :=
      List.prefix_of_prefix_length_le (List.prefix_append _ _)
      ⟨tail, hbytes⟩ (length_c2 ▸ hlong.le)
    rw [← hrest, List.append_assoc] at hbytes
    rw [← hrest, List.drop_left' length_c2] at hcall
    have hshaken : Expects order peerAddr target
        ({ new m with firstCall := false, buf := front } : RtmpServing).shaken l :=
      hexpects.of_shaken rfl rfl rfl rfl rfl rfl
    obtain ⟨s', done, left, rfl, hserve, hexpects', hrest', hwaiting⟩ :=
      hshaken.serve (List.append_cancel_left hbytes)
    rw [hrest] at hcall
    have hread :
      RtmpServing.read order peerAddr { new m with firstCall := false, buf := front } bytes =
        (s', done.flatMap Piece.writes) := by
      rw [read_of_complete (s := { new m with firstCall := false, buf := front }) rfl rfl hcall,
        hserve]
      rfl
    refine ⟨s', s'.buf, secondPiece :: done, left, rfl, hread, .running hexpects' hwaiting, ?_⟩
    rw [hrest', List.append_nil]
  · have hcall : handleHandshake (front ++ bytes) false = (false, front ++ bytes, []) :=
      second_phase_short (by omega)
    have hbegins : front ++ bytes <+: c2 := List.prefix_of_prefix_length_le ⟨tail, hbytes⟩
      (List.prefix_append _ _) (by rw [length_c2]; omega)
    have hread :
      RtmpServing.read order peerAddr { new m with firstCall := false, buf := front } bytes =
        ({ new m with firstCall := false, buf := front ++ bytes }, []) :=
      read_of_incomplete (s := { new m with firstCall := false, buf := front }) rfl rfl hcall
    refine ⟨_, front ++ bytes, [], secondPiece :: l, rfl, hread, .second hbegins hexpects, ?_⟩
    rw [List.flatMap_cons, List.append_nil]
    exact hbytes

/-- Behind the handshake the messages of the buffer are served. -/
theorem proceeds_running (hexpects : Expects order peerAddr target s l)
    (hbytes : s.buf ++ bytes ++ tail = l.flatMap Piece.bytes) :
    Proceeds (serving order peerAddr) (Holds order peerAddr target m) [] s bytes tail l := by
  obtain ⟨s', done, left, rfl, hserve, hexpects', hrest, hwaiting⟩ := hexpects.serve hbytes
  have hread : s.read order peerAddr bytes = (s', done.flatMap Piece.writes) := by
    obtain ⟨_, hawaits, -⟩ := hexpects
    rw [RtmpServing.read, hawaits.closed, if_neg Bool.false_ne_true, hawaits.handshakeDone,
      if_pos rfl]
    exact hserve
  refine ⟨s', s'.buf, done, left, rfl, hread, .running hexpects' hwaiting, ?_⟩
  rw [hrest, List.append_nil]

end

/-- **A server** keeps to its part, if its first read brings all of C0 and C1. -/
theorem takes_serving (order : MapOrder) (peerAddr : String)
    (target : RtmpConnection × StreamManager) (m : StreamManager) :
    Takes (serving order peerAddr) BringsAll (Holds order peerAddr target m) [] where
  waiting h := h.waiting
  room {s _ _ _} h := by
    change 0 < if s.closed then 0 else 8192
    rw [h.not_closed, if_neg Bool.false_ne_true]
    exact Nat.succ_pos _
  read {_ _ _ _ _} h hguard _ hbytes := by
    rw [List.append_nil] at hbytes
    cases h with
    | first hexpects => exact proceeds_first hexpects (hguard rfl rfl) hbytes
    | second _ hexpects => exact proceeds_second hexpects hbytes
    | running hexpects _ => exact proceeds_running hexpects hbytes

end RtmpServing

end VcpMediaServer
