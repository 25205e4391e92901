import VcpMediaServer.RtmpAnswers

/-!
# A puller and its server

From the connection on, up to where the media begin. What another task of the server writes behind
the answers to `play` is left out.

* `turns_opening` — the script of the two: seven turns, from C0 and C1 to the answer to `play`.
* `Unanswered.run` — if the first read of the server does not bring all of C0 and C1, **nothing** is
  answered any more: the puller hangs.
* `opened_run` — otherwise the two come to an end however the bytes are cut, and it is the right
  one.
-/

namespace VcpMediaServer

open Exchange Lts

variable {url : RtmpUrl} (order : MapOrder) (peerAddr : String) (m : StreamManager)

/-! ## The script -/

/-- What the server writes behind its first answer to `play`. -/
def behindPlay (order : MapOrder) (m : StreamManager) (url : RtmpUrl) : List UInt8 :=
  RtmpServing.replyBytes order (playing url).session
    (RtmpConnection.playReplies m (playing url).session url.streamName).tail

/-- The pieces of the server. -/
def serverPieces (order : MapOrder) (peerAddr : String) (m : StreamManager) (url : RtmpUrl) :
    List (Piece UInt8) :=
  RtmpServing.firstPiece :: RtmpServing.secondPiece :: answered (RtmpServing.respond order peerAddr)
    (handshaken, m) ((toServing order url).flatMap (messageChunks clientChunkSize 3))

/-- The pieces of the puller. -/
def clientPieces (order : MapOrder) (m : StreamManager) (url : RtmpUrl) : List (Piece UInt8) :=
  PullConnection.handshakePiece order url :: answered (PullConnection.respond url) (.connect, [])
    (announced initialChunkSize (toPuller order m url))

/-- A turn of the server, that answers a command. -/
theorem turns_command {conn conn' : RtmpConnection} {command : ℕ × RtmpMessage}
    {replies : List RtmpReply} {more : List (List UInt8 × Option RtmpMessage)}
    {l' : List (Piece UInt8)} {rest rest' : List UInt8} (hne : command.2.payload ≠ [])
    (hdone : RtmpConnection.handleRtmpMessage m conn command.2 peerAddr true =
      some (m, conn', .done replies none))
    (next : Turns (RtmpServing.replyBytes order conn'.session replies) l'
      (answered (RtmpServing.respond order peerAddr) (conn', m) more) rest' rest) :
    Turns (commandBytes command) (answered (RtmpServing.respond order peerAddr) (conn, m)
      (messageChunks clientChunkSize command.1 command.2 ++ more)) l' rest rest' := by
  rw [commandBytes_eq]
  refine Turns.answers (completes_messageChunks (by decide) hne) ?_
  simp only [answers, RtmpServing.respond_of_done order peerAddr m hdone, List.append_nil]
  exact next

/-- A turn of the puller, that reads answers. -/
theorem turns_replies {t t' : PullStage × List RtmpPullEvent} {size : ℕ}
    {sent : List (ℕ × RtmpMessage)} {more : List (List UInt8 × Option RtmpMessage)}
    {l' : List (Piece UInt8)} {written rest rest' : List UInt8} (hsent : ∀ p ∈ sent, Announceable p)
    (hpos : 0 < size) (hanswers : answers (PullConnection.respond url) t (sent.map Prod.snd) =
    (t', written))
    (next : Turns written l' (answered (PullConnection.respond url) t' more) rest' rest) :
    Turns ((announced size sent).flatMap Prod.fst)
      (answered (PullConnection.respond url) t (announced size sent ++ more)) l' rest rest' := by
  refine Turns.answers (completes_announced hsent hpos) ?_
  rw [hanswers]
  exact next

/-- The bytes of the answers to `play`, and of those the first. -/
theorem replyBytes_play (url : RtmpUrl) : RtmpServing.replyBytes order (playing url).session
      (RtmpConnection.playReplies m (playing url).session url.streamName) =
    (announced 4096 [(playStatus m url.streamName).toMessage order 1]).flatMap Prod.fst ++
        behindPlay order m url := by
  obtain ⟨more, hreplies, hsizes⟩ := playReplies_eq_cons m (playing url).session url.streamName
  have hpos : 0 < (playing url).session.chunkSize := show 0 < 4096 by decide
  rw [behindPlay, hreplies, List.tail_cons, replyBytes_eq order hpos hsizes,
    replyBytes_eq order hpos (List.forall_mem_cons.mp hsizes).2, List.flatMap_cons, announced,
    announced, List.append_nil]
  rfl

/-- The last turn: the puller reads the first answer to `play`, and the rest is behind it. -/
theorem turns_playStatus (url : RtmpUrl) :
    Turns (RtmpServing.replyBytes order (playing url).session
        (RtmpConnection.playReplies m (playing url).session url.streamName))
      (answered (PullConnection.respond url) (.play 1, [.created])
        (announced 4096 [(playStatus m url.streamName).toMessage order 1])) []
            (behindPlay order m url) [] := by
  have hcompletes := completes_announced (List.forall_mem_singleton.mpr
    (RtmpReply.announceable order 1 (fits_playStatus m url.streamName))) (show 0 < 4096 by decide)
  have hbytes : (answered (PullConnection.respond url) (.play 1, [.created])
      (announced 4096 [(playStatus m url.streamName).toMessage order 1])).flatMap Piece.bytes =
      (announced 4096 [(playStatus m url.streamName).toMessage order 1]).flatMap Prod.fst :=
        bytes_answered
  rw [replyBytes_play, ← hbytes]
  refine .last hcompletes.turn ?_
  rw [writes_answered, hcompletes.completed]
  simp only [List.map_cons, List.map_nil, answers, PullConnection.respond_playStatus order m,
    List.append_nil]

/-- **The script** of the two. -/
theorem turns_opening (h : url.Fits) :
    Turns c0c1 (serverPieces order peerAddr m url) (clientPieces order m url) []
        (behindPlay order m url) := by
  have hconnect := handle_connect order peerAddr m h
  have hcreate := handle_createStream peerAddr m url
  have hplay := handle_play peerAddr m h 1
  obtain ⟨hsent₁, hsent₂₃⟩ := List.forall_mem_append.mp (announceable_toPuller order m url)
  obtain ⟨hsent₂, -⟩ := List.forall_mem_append.mp hsent₂₃
  -- from the last turn back
  have hplaying := turns_command order peerAddr m (List.cons_ne_nil _ _) hplay
    (show Turns _ _ (answered (RtmpServing.respond order peerAddr) (playing url, m) []) _ _ from
      turns_playStatus order m url)
  have hcreated := turns_replies hsent₂ (show 0 < 4096 by decide)
    (PullConnection.answers_createStreamReplies order []) hplaying
  rw [← replyBytes_createStream order url] at hcreated
  have hcreating := turns_command order peerAddr m (List.cons_ne_nil _ _) hcreate hcreated
  have hconnected := turns_replies hsent₁ (show 0 < initialChunkSize by decide)
    (PullConnection.answers_connectReplies order) hcreating
  rw [← replyBytes_connect order url, ← announced_toPuller] at hconnected
  have hconnecting := turns_command order peerAddr m (List.cons_ne_nil _ _) hconnect hconnected
  -- the first command comes behind C2
  have hcompletes : Exchange.Completes [(buildConnectCommand order connectTxId url.app url.tcUrl).2]
      (messageChunks clientChunkSize 3
          (buildConnectCommand order connectTxId url.app url.tcUrl).2) :=
    completes_messageChunks (by decide) (List.cons_ne_nil _ _)
  have hwritten : commandBytes (buildConnectCommand order connectTxId url.app url.tcUrl) ≠ [] := by
    rw [commandBytes_eq]
    exact hcompletes.bytes_ne_nil (List.cons_ne_nil _ _)
  have hshaking := Turns.cons (i := RtmpServing.secondPiece)
    (List.cons_ne_nil _ _) rfl hwritten ?_ hconnecting
  · exact Turns.single (i := RtmpServing.firstPiece) (List.cons_ne_nil _ _) rfl
      (Turns.single (i := PullConnection.handshakePiece order url)
        (List.cons_ne_nil _ _) rfl hshaking)
  · rw [answered_append]
    exact List.append_ne_nil_of_left_ne_nil (hcompletes.answered_ne_nil (List.cons_ne_nil _ _)) _

/-! ## Reads that bring too little -/

namespace RtmpServing

theorem onMessage_handshakeDone (s : RtmpServing) (msg : RtmpMessage) :
    (onMessage order peerAddr s msg).1.handshakeDone = s.handshakeDone := by
  rw [onMessage]
  split <;> rfl

theorem takeChunk_handshakeDone {s s' : RtmpServing} {buf rest out : List UInt8}
    (h : takeChunk order peerAddr s buf = some (s', rest, out)) :
    s'.handshakeDone = s.handshakeDone := by
  rw [takeChunk] at h
  split at h
  · cases h
  · split at h
    · cases h
    · cases h
      rfl
    · cases h
      exact onMessage_handshakeDone order peerAddr _ _

theorem serve_handshakeDone (s : RtmpServing) (buf : List UInt8) :
    (s.serve order peerAddr buf).1.handshakeDone = s.handshakeDone := by
  have hdrain : (Incremental.drain (takeChunk order peerAddr) s buf).2.1.handshakeDone =
      s.handshakeDone := by
    induction s, buf using Incremental.drain_induction (takeChunk_consumes order peerAddr) with
    | stop s buf h => rw [Incremental.drain_of_none h]
    | take s buf s' rest out h ih =>
      rw [Incremental.drain_of_some (takeChunk_consumes order peerAddr) h,
        ← takeChunk_handshakeDone order peerAddr h]
      exact ih
  rw [serve]
  split <;> exact hdrain

/-- The first read is over. -/
def Begun (s : RtmpServing) : Prop := s.handshakeDone = true ∨ s.firstCall = false

theorem begun_read {s : RtmpServing} (h : s.closed = false ∨ s.Begun) (bytes : List UInt8) :
    (s.read order peerAddr bytes).1.Begun := by
  rcases Bool.eq_false_or_eq_true s.closed with hclosed | hopen
  · rw [RtmpServing.read, if_pos hclosed]
    exact h.resolve_left (by rw [hclosed]; exact Bool.noConfusion)
  · rcases Bool.eq_false_or_eq_true s.handshakeDone with hdone | hdone
    · rw [RtmpServing.read, if_neg (by rw [hopen]; exact Bool.false_ne_true), if_pos hdone]
      exact .inl ((serve_handshakeDone order peerAddr _ _).trans hdone)
    · rcases hcall : handleHandshake (s.buf ++ bytes) s.firstCall with ⟨_ | _, rest, response⟩
      · rw [read_of_incomplete hopen hdone hcall]
        exact .inr rfl
      · rw [read_of_complete hopen hdone hcall]
        exact .inl (serve_handshakeDone order peerAddr _ _)

end RtmpServing

/-- The puller is on time. -/
abbrev OnTime : Exchange.State PullConnection RtmpServing UInt8 → Exchange.Delivery → Prop :=
  Guarded PullConnection.OnTime fun _ _ => True

/-- From the second read of the server on, it does not matter what a read brings. -/
theorem guarded_of_begun {x : Exchange.State PullConnection RtmpServing UInt8}
    {run : List Exchange.Delivery} (hbegun : x.server.Begun)
    (h : Always (Exchange.step (puller order url) (serving order peerAddr)) OnTime x run) :
    Always (Exchange.step (puller order url) (serving order peerAddr))
      (Guarded PullConnection.OnTime RtmpServing.BringsAll) x run := by
  induction run generalizing x with
  | nil => trivial
  | cons d run ih =>
    refine ⟨?_, fun y hstep => ih ?_ (h.2 y hstep)⟩
    · cases d with
      | client n => exact h.1
      | server n =>
        intro hdone hcall
        rcases hbegun with hbegun | hbegun
        · rw [hdone] at hbegun
          cases hbegun
        · rw [hcall] at hbegun
          cases hbegun
    · cases d with
      | client n =>
        obtain ⟨-, hy⟩ := Option.ite_none_right_eq_some.mp hstep
        obtain rfl := Option.some.inj hy
        exact hbegun
      | server n =>
        obtain ⟨-, hy⟩ := Option.ite_none_right_eq_some.mp hstep
        obtain rfl := Option.some.inj hy
        exact RtmpServing.begun_read order peerAddr (.inr hbegun) _

/-- The first read has brought too little: the server has C0 and C1 in hand, or has taken them for
C2 when it had them all, and has written nothing. -/
structure Unanswered (m : StreamManager) (x : Exchange.State PullConnection RtmpServing UInt8) :
    Prop where
  client : x.client = .new
  toClient : x.toClient = []
  server : x.toServer = [] ∨
    ∃ front, x.server = { RtmpServing.new m with firstCall := false, buf := front } ∧
      front ++ x.toServer = c0c1

/-- The byte that is left of C1 is no chunk. -/
theorem RtmpServing.serve_last (s : RtmpServing) (hclosed : s.closed = false) :
    (s.serve order peerAddr (c0c1.drop handshakeSize)).2 = [] := by
  have hdrop : c0c1.drop handshakeSize = [0] := by
    rw [c0c1, show handshakeSize = 1535 + 1 from rfl, List.drop_succ_cons, List.drop_replicate]
    rfl
  have hnone : takeChunk order peerAddr s [0] = none := by
    have hchunk : s.chunks.takeChunk s.vars.chunkSize [0] = none := rfl
    rw [takeChunk, if_neg (by rw [hclosed]; exact Bool.false_ne_true), hchunk]
  rw [serve, hdrop, Incremental.drain_of_none hnone,
    if_neg (by rw [hclosed]; exact Bool.false_ne_true)]

/-- **Nothing is answered** any more. -/
theorem Unanswered.step {x y : Exchange.State PullConnection RtmpServing UInt8} (h : Unanswered m x)
    {d : Exchange.Delivery}
    (hstep : Exchange.step (puller order url) (serving order peerAddr) x d = some y) :
    Unanswered m y ∧ y.toServer.length < x.toServer.length := by
  cases d with
  | client n =>
    obtain ⟨⟨hpos, hn, -⟩, -⟩ := Option.ite_none_right_eq_some.mp hstep
    rw [h.toClient] at hn
    exact absurd hpos (Nat.not_lt.mpr hn)
  | server n =>
    obtain ⟨⟨hpos, hn, -⟩, hy⟩ := Option.ite_none_right_eq_some.mp hstep
    obtain rfl := Option.some.inj hy
    have hless : (x.toServer.drop n).length < x.toServer.length := by
      rw [List.length_drop]
      omega
    obtain ⟨front, hserver, hall⟩ := h.server.resolve_left fun hnil => by
      rw [hnil] at hn
      exact absurd hpos (Nat.not_lt.mpr hn)
    have hsplit : front ++ x.toServer.take n ++ x.toServer.drop n = c0c1 := by
      rw [List.append_assoc, List.take_append_drop]
      exact hall
    by_cases hlong : handshakeSize < (front ++ x.toServer.take n).length
    · -- all of C0 and C1 is there
      have hlen := congrArg List.length hsplit
      rw [List.length_append, c0c1, List.length_cons, List.length_replicate] at hlen
      have hnil : x.toServer.drop n = [] := List.length_eq_zero_iff.mp (by omega)
      rw [hnil, List.append_nil] at hsplit
      have hread : x.server.read order peerAddr (x.toServer.take n) =
          ((x.server.shaken.serve order peerAddr (c0c1.drop handshakeSize)).1,
            [] ++ (x.server.shaken.serve order peerAddr (c0c1.drop handshakeSize)).2) := by
        rw [hserver]
        refine RtmpServing.read_of_complete rfl rfl ?_
        rw [← hsplit]
        exact second_phase_long hlong
      refine ⟨⟨h.client, ?_, .inl hnil⟩, hless⟩
      change x.toClient ++ (x.server.read order peerAddr (x.toServer.take n)).2 = []
      have hclosed : x.server.closed = false := by rw [hserver, RtmpServing.new]
      have hlast := RtmpServing.serve_last order peerAddr x.server.shaken hclosed
      rw [hread, h.toClient, List.nil_append, List.nil_append, hlast]
    · have hread : x.server.read order peerAddr (x.toServer.take n) =
          ({ RtmpServing.new m with firstCall := false, buf := front ++ x.toServer.take n },
              []) := by
        rw [hserver]
        exact RtmpServing.read_of_incomplete rfl rfl
          (second_phase_short (Nat.lt_succ_of_le (Nat.not_lt.mp hlong)))
      refine ⟨⟨h.client, ?_, .inr ⟨front ++ x.toServer.take n, ?_, hsplit⟩⟩, hless⟩
      · change x.toClient ++ (x.server.read order peerAddr (x.toServer.take n)).2 = []
        rw [hread, h.toClient, List.append_nil]
      · change (x.server.read order peerAddr (x.toServer.take n)).1 = _
        rw [hread]

theorem Unanswered.run {x y : Exchange.State PullConnection RtmpServing UInt8} (h : Unanswered m x)
    {run : List Exchange.Delivery}
    (hrun : exec (Exchange.step (puller order url) (serving order peerAddr)) x run = some y) :
    Unanswered m y ∧ run.length + y.toServer.length ≤ x.toServer.length := by
  induction run generalizing x with
  | nil =>
    obtain rfl := Option.some.inj hrun
    exact ⟨h, (Nat.zero_add _).le⟩
  | cons d run ih =>
    obtain ⟨z, hstep, hrun⟩ := exec_cons_eq_some.mp hrun
    obtain ⟨hz, hless⟩ := h.step order peerAddr m hstep
    obtain ⟨hy, hle⟩ := ih hz hrun
    refine ⟨hy, ?_⟩
    rw [List.length_cons]
    omega

/-- A first read that brings too little. -/
theorem unanswered_of_short {n : ℕ} (hn : n < c0c1.length)
    {y : Exchange.State PullConnection RtmpServing UInt8}
    (hstep : Exchange.step (puller order url) (serving order peerAddr) (opening m) (.server n) =
    some y) :
    Unanswered m y := by
  obtain ⟨-, hy⟩ := Option.ite_none_right_eq_some.mp hstep
  obtain rfl := Option.some.inj hy
  have hread : (RtmpServing.new m).read order peerAddr (c0c1.take n) =
      ({ RtmpServing.new m with firstCall := false, buf := c0c1.take n }, []) := by
    refine RtmpServing.read_of_incomplete rfl rfl ?_
    rw [show (RtmpServing.new m).buf = [] from rfl, List.nil_append]
    refine if_pos ?_
    rw [List.length_take]
    exact lt_of_le_of_lt (Nat.min_le_left _ _)
      (by rw [c0c1, List.length_cons, List.length_replicate] at hn; exact hn)
  refine ⟨rfl, ?_, .inr ⟨c0c1.take n, ?_, List.take_append_drop n c0c1⟩⟩
  · change [] ++ ((RtmpServing.new m).read order peerAddr (c0c1.take n)).2 = []
    rw [hread]
    rfl
  · change ((RtmpServing.new m).read order peerAddr (c0c1.take n)).1 = _
    rw [hread]

/-! ## Runs -/

namespace PullConnection

/-- What has happened to the local stream is never taken back. -/
theorem events_respond (t : PullStage × List RtmpPullEvent) (msg : RtmpMessage) :
    t.2 <+: (respond url t msg).1.2 := by
  obtain ⟨stage, events⟩ := t
  rw [respond, onMessage]
  cases stage with
  | connect =>
    dsimp only
    split <;> exact List.prefix_rfl
  | createStream =>
    dsimp only
    split
    · exact List.prefix_append _ _
    · exact List.prefix_rfl
    · exact List.prefix_rfl
  | play serverStreamId =>
    dsimp only
    split <;> exact List.prefix_append _ _
  | handshake | started | failed => exact List.prefix_rfl

theorem Goes.events {target t : PullStage × List RtmpPullEvent}
    {chunks : List (List UInt8 × Option RtmpMessage)} (h : Goes url target t chunks) :
    t.2 <+: target.2 := by
  induction chunks generalizing t with
  | nil => exact (show t = target from h) ▸ List.prefix_rfl
  | cons chunk chunks ih =>
    obtain ⟨bytes, _ | msg⟩ := chunk
    · exact ih h.2
    · exact (events_respond t msg).trans (ih h.2)

theorem Goes.stage {target t : PullStage × List RtmpPullEvent}
    {chunks : List (List UInt8 × Option RtmpMessage)} (h : Goes url target t chunks) :
    t.1.waits = true ∨ t = target := by
  cases chunks with
  | nil => exact .inr h
  | cons chunk chunks =>
    obtain ⟨bytes, _ | msg⟩ := chunk
    · exact .inl h.1
    · exact .inl h.1

end PullConnection

/-- The dialogue goes on as it should. -/
structure Underway (order : MapOrder) (m : StreamManager) (url : RtmpUrl)
    (x : Exchange.State PullConnection RtmpServing UInt8) : Prop where
  closed : x.server.closed = false
  stage : x.client.stage = .handshake ∨ x.client.stage.waits = true ∨
    x.client.stage = pullOutcome m url.streamName
  events : x.client.events <+: (PullConnection.goal order m url).2

/-- The dialogue is over: the puller relays, or has failed because there is nothing to play, and the
server plays. -/
structure Over (order : MapOrder) (m : StreamManager) (url : RtmpUrl)
    (x : Exchange.State PullConnection RtmpServing UInt8) : Prop where
  stage : x.client.stage = pullOutcome m url.streamName
  events : x.client.events =
    [.created, .message ((playStatus m url.streamName).toMessage order 1).2]
  chunks : ∀ csId, x.client.chunks.Idle csId
  conn : x.server.conn = playing url
  manager : x.server.manager = m

theorem goal_not_waits (streamName : StreamId) :
    (pullOutcome m streamName).waits = false ∧ pullOutcome m streamName ≠ .handshake := by
  rw [pullOutcome]
  split
  · exact ⟨rfl, PullStage.noConfusion⟩
  · exact ⟨rfl, PullStage.noConfusion⟩

/-- Both parties keep to their parts. -/
theorem Underway.of_stands {x : Exchange.State PullConnection RtmpServing UInt8}
    {done left done' left' : List (Piece UInt8)} {front front' : List UInt8}
    (h : Exchange.Stands (PullConnection.Holds order url (PullConnection.goal order m url))
      (RtmpServing.Holds order peerAddr (playing url, m) m)
        c0c1 x done left done' left' front front') :
    Underway order m url x := by
  have hclosed : x.server.closed = false := by
    have hserver := h.server
    generalize x.server = s at hserver
    cases hserver with
    | first _ => rfl
    | second _ _ => rfl
    | running hexpects _ =>
      obtain ⟨_, hawaits, -⟩ := hexpects
      exact hawaits.closed
  have hclient := h.client
  generalize hc : x.client = c at hclient
  cases hclient with
  | handshake _ _ _ => exact ⟨hclosed, .inl (by rw [hc]; rfl), by rw [hc]; exact List.nil_prefix⟩
  | waits hexpects _ =>
    obtain ⟨_, hawaits, -⟩ := hexpects
    refine ⟨hclosed, .inr ?_, by rw [hc]; exact hawaits.goes.events⟩
    rw [hc]
    exact hawaits.goes.stage.imp_right fun heq => congrArg Prod.fst heq

/-- Nothing is left to either of them. -/
theorem Over.of_stands {x : Exchange.State PullConnection RtmpServing UInt8}
    {done done' : List (Piece UInt8)} {front front' : List UInt8}
    (h : Exchange.Stands (PullConnection.Holds order url (PullConnection.goal order m url))
      (RtmpServing.Holds order peerAddr (playing url, m) m) c0c1 x done [] done' [] front front') :
    Over order m url x := by
  obtain ⟨hgoal, hexpected⟩ : (x.client.stage, x.client.events) = PullConnection.goal order m url ∧
      Expected (x.client.chunkSize, x.client.chunks) [] := by
    have hclient := h.client
    generalize x.client = c at hclient
    cases hclient with
    | waits hexpects _ => exact hexpects.done
  have hserver : (x.server.conn, x.server.manager) = (playing url, m) := by
    have hserver := h.server
    generalize x.server = s at hserver
    cases hserver with
    | running hexpects _ => exact hexpects.done
  obtain ⟨hstage, hevents⟩ := Prod.mk.inj hgoal
  obtain ⟨hconn, hmanager⟩ := Prod.mk.inj hserver
  refine ⟨hstage, hevents, ?_, hconn, hmanager⟩
  obtain ⟨sent, -, hpos, ⟨hidle, -⟩ | ⟨csId, msg, rest, -, hrest, -, -, hnil⟩⟩ := hexpected
  · exact hidle
  · rw [pieces_of_ne_nil hpos hrest] at hnil
    cases hnil

/-- **A puller and its server**: if the first read of the server brings all of C0 and C1, then
however the bytes are cut from there on, and as long as no wait runs out of reads, neither of the
two fails on the way; when no delivery is possible any more, the puller is in its relay loop if the
stream is published, and has failed if not, and the server plays to it. If the first read brings
less, nothing is ever answered, and the puller waits for the handshake for good. In either case only
so many deliveries are possible. -/
theorem opened_run {parse : String → Except String ParsedUrl} {text : String}
    (hparse : parseRtmpUrl parse text = .ok url) (htcUrl : url.tcUrl.toByteArray.size < 65536)
    (hname : url.streamName.toByteArray.size < 65536) :
    ∃ bound, ∀ (n : ℕ) (run : List Exchange.Delivery)
      (y : Exchange.State PullConnection RtmpServing UInt8),
      exec (Exchange.step (puller order url) (serving order peerAddr)) (opening m)
      (.server n :: run) = some y →
      Always (Exchange.step (puller order url) (serving order peerAddr)) OnTime (opening m)
        (.server n :: run) →
      run.length < bound ∧
        if n < c0c1.length then y.client = .new ∧ y.toClient = []
        else Underway order m url y ∧
          (Still (puller order url) (serving order peerAddr) y → Over order m url y) := by
  have hfits := RtmpUrl.fits_of_parse hparse htcUrl hname
  refine ⟨c0c1.length + ((clientPieces order m url).flatMap Piece.writes).length +
    ((serverPieces order peerAddr m url).flatMap Piece.writes).length, fun n run y hrun htime => ?_⟩
  obtain ⟨z, hstep, hrest⟩ := exec_cons_eq_some.mp hrun
  by_cases hn : n < c0c1.length
  · rw [if_pos hn]
    obtain ⟨hy, hle⟩ := (unanswered_of_short order peerAddr m hn hstep).run order peerAddr m hrest
    obtain ⟨⟨hpos, -, -⟩, hz⟩ := Option.ite_none_right_eq_some.mp hstep
    obtain rfl := Option.some.inj hz
    rw [List.length_drop] at hle
    change run.length + y.toServer.length ≤ c0c1.length - n at hle
    exact ⟨by omega, hy.client, hy.toClient⟩
  · rw [if_neg hn]
    have hguard : Always (Exchange.step (puller order url) (serving order peerAddr))
        (Guarded PullConnection.OnTime RtmpServing.BringsAll) (opening m) (.server n :: run) := by
      refine ⟨fun _ _ => Nat.le_of_not_lt hn,
        fun z' hz' => guarded_of_begun order peerAddr ?_ (htime.2 z' hz')⟩
      obtain ⟨-, hz⟩ := Option.ite_none_right_eq_some.mp hz'
      obtain rfl := Option.some.inj hz
      exact RtmpServing.begun_read order peerAddr (.inl rfl) _
    obtain ⟨hwaits, hstage⟩ := goal_not_waits m url.streamName
    have hpuller : Takes (puller order url) PullConnection.OnTime
        (PullConnection.Holds order url (PullConnection.goal order m url))
        (behindPlay order m url) :=
      PullConnection.takes_puller order hwaits hstage _
    have hserving := RtmpServing.takes_serving order peerAddr (playing url, m) m
    have hturns := turns_opening order peerAddr m hfits
    have hclient : PullConnection.Holds order url (PullConnection.goal order m url)
      (opening m).client []
        (clientPieces order m url) :=
      .handshake List.nil_prefix (List.cons_ne_nil _ _).symm
        (PullConnection.expects_toPuller order m)
    have hserver : RtmpServing.Holds order peerAddr (playing url, m) m (opening m).server []
        (serverPieces order peerAddr m url) :=
      .first (RtmpServing.expects_toServing order peerAddr m hfits)
    obtain ⟨done, left, done', left', front, front', hl, hl', hstands, hle⟩ :=
      stands_run hpuller hserving hturns hclient hserver rfl rfl hguard hrun
    refine ⟨?_, .of_stands order peerAddr m hstands, fun hstill => ?_⟩
    · have hpending : (opening m).pending (clientPieces order m url)
        (serverPieces order peerAddr m url) =
          c0c1.length + ((clientPieces order m url).flatMap Piece.writes).length +
            ((serverPieces order peerAddr m url).flatMap Piece.writes).length := by
        rw [State.pending, opening, List.length_nil, Nat.zero_add]
      rw [hpending, List.length_cons] at hle
      omega
    · obtain ⟨rfl, rfl⟩ := hstands.still hpuller hserving (hl ▸ hl' ▸ hturns) hstill
      exact .of_stands order peerAddr m hstands

/-- A URL whose path has an application and a stream. -/
def liveUrl (_ : String) : Except String ParsedUrl :=
  .ok { scheme := "rtmp", host := some "cam.local", port := none, path := "/live/cam".toList }

/-- What it is parsed to. -/
def camUrl : RtmpUrl :=
  { host := "cam.local", port := 1935, app := "live", streamName := "cam",
    tcUrl := "rtmp://cam.local:1935/live" }

/-- The map that gives its entries as they were put in. -/
def putIn : MapOrder := ⟨id, fun _ => .refl _⟩

/-- The puller of it and its server. -/
abbrev camStep := Exchange.step (puller putIn camUrl) (serving putIn "10.0.0.2:4000")

/-- S0, S1 and S2 come in two reads, and so do the answers to `connect`. -/
def camRun : List Exchange.Delivery :=
  [.client 3000, .client 73, .server 1767, .client 100, .client 158, .server 37, .client 41,
    .server 44, .client 151]

instance (x : Exchange.State PullConnection RtmpServing UInt8) : DecidablePred (OnTime x)
  | .client _ => inferInstanceAs (Decidable (x.client.stage.waits = true → _ ≠ _))
  | .server _ => inferInstanceAs (Decidable True)

/-- A stream that is published, a first read of all of C0 and C1, and a run to the relay loop. -/
theorem opened_run_live : ∃ y bound, parseRtmpUrl liveUrl "rtmp://cam.local/live/cam" = .ok camUrl ∧
    exec camStep (opening RtmpPlay.camStreams) (.server 1537 :: camRun) = some y ∧
      camRun.length < bound ∧
      pullOutcome RtmpPlay.camStreams camUrl.streamName = .started ∧
          Over putIn RtmpPlay.camStreams camUrl y := by
  have hlength : c0c1.length = 1537 := by
    rw [c0c1, List.length_cons, List.length_replicate]
    rfl
  -- at the end nothing is on its way
  have hend : (exec camStep (opening RtmpPlay.camStreams) (.server 1537 :: camRun)).any
      (fun y => y.toClient.isEmpty && y.toServer.isEmpty) = true := by decide +kernel
  obtain ⟨y, hrun, hempty⟩ := (Option.any_eq_true _ _).mp hend
  obtain ⟨hclient, hserver⟩ := Bool.and_eq_true_iff.mp hempty
  rw [List.isEmpty_iff] at hclient hserver
  have htime : Always camStep OnTime (opening RtmpPlay.camStreams)
    (.server 1537 :: camRun) := by decide +kernel
  obtain ⟨bound, h⟩ := opened_run putIn "10.0.0.2:4000" RtmpPlay.camStreams
    (show parseRtmpUrl liveUrl "rtmp://cam.local/live/cam" = .ok camUrl from rfl)
    (by decide) (by decide)
  have hy := h 1537 camRun y hrun htime
  rw [if_neg (by rw [hlength]; decide)] at hy
  refine ⟨y, bound, rfl, hrun, hy.1, rfl, hy.2.2 fun d => ?_⟩
  cases d with
  | client n => exact if_neg fun hn => by simp [hclient] at hn; omega
  | server n => exact if_neg fun hn => by simp [hserver] at hn; omega

end VcpMediaServer
