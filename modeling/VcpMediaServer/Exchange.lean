import VcpMediaServer.Incremental
import VcpMediaServer.Lts

/-!
# Exchanges

Two parties that talk over two streams. A party reads some of what is on its way to it, and writes
what it has to say to that; how much it reads at a time is not up to it.

* `Party`, `State`, `step` — the parties, what is on its way, and a delivery.
* `Piece` — what a party takes at once, and what it writes then.
* `Turns` — a **script**: the parties take pieces in turns, and what one writes in its turn is what
  the other takes in the next.
* `Takes` — a party that keeps to its part of a script, as long as its reads meet a guard.
* `stands_run` — two such parties keep to the script along every run.
* `Stands.still` — when no delivery is possible any more, the script is at its end: the parties
  **never wait for each other**.
* `drain_pieces` — an incremental parser takes pieces.
-/

namespace Exchange

open Lts

universe u v w

/-- What a party takes at once. -/
structure Piece (β : Type w) where
  /-- What is taken. -/
  bytes : List β
  /-- What is written then. -/
  writes : List β
  /-- It is taken even if nothing of what follows is there. -/
  alone : Bool

/-- A party: what it reads changes its state, and makes it write. -/
structure Party (σ : Type u) (β : Type w) where
  /-- The most that it reads at once. -/
  room : σ → ℕ
  /-- A read. -/
  read : σ → List β → σ × List β

/-- Two parties, and what is on its way to each. -/
structure State (σ : Type u) (τ : Type v) (β : Type w) where
  /-- The one that speaks first. -/
  client : σ
  /-- The one that answers. -/
  server : τ
  /-- What the server has written and the client has not read. -/
  toClient : List β
  /-- What the client has written and the server has not read. -/
  toServer : List β

/-- A delivery: one of the parties reads so much. -/
inductive Delivery where
  | client (n : ℕ)
  | server (n : ℕ)
  deriving DecidableEq, Repr

variable {σ : Type u} {τ : Type v} {β : Type w}

/-- A delivery, if so much is there and is read at once. -/
def step (p : Party σ β) (q : Party τ β) (x : State σ τ β) : Delivery → Option (State σ τ β)
  | .client n =>
    if 0 < n ∧ n ≤ x.toClient.length ∧ n ≤ p.room x.client then
      let r := p.read x.client (x.toClient.take n)
      some { x with client := r.1, toClient := x.toClient.drop n, toServer := x.toServer ++ r.2 }
    else none
  | .server n =>
    if 0 < n ∧ n ≤ x.toServer.length ∧ n ≤ q.room x.server then
      let r := q.read x.server (x.toServer.take n)
      some { x with server := r.1, toServer := x.toServer.drop n, toClient := x.toClient ++ r.2 }
    else none

/-- No delivery is possible any more. -/
def Still (p : Party σ β) (q : Party τ β) (x : State σ τ β) : Prop := ∀ d, step p q x d = none

/-! ## Scripts -/

/-- A piece of which this is all that is there. -/
def Waiting (i : Piece β) (front : List β) : Prop :=
  front <+: i.bytes ∧ (front = i.bytes → i.alone = false)

/-- A turn: there is something in its pieces, and its last one is taken. -/
structure Turn (t : List (Piece β)) : Prop where
  bytes_ne_nil : ∀ i ∈ t, i.bytes ≠ []
  alone : ∀ before i, t = before ++ [i] → i.alone = true

/-- A piece in front of a turn. -/
theorem Turn.cons {i : Piece β} {t : List (Piece β)} (hi : i.bytes ≠ []) (ht : Turn t)
    (hne : t ≠ []) :
    Turn (i :: t) := by
  refine ⟨List.forall_mem_cons.mpr ⟨hi, ht.bytes_ne_nil⟩, fun before j heq => ?_⟩
  cases before with
  | nil => exact absurd (List.cons.inj heq).2 hne
  | cons k before => exact ht.alone before j (List.cons.inj heq).2

/-- The script from a turn on: what has been written for it, the pieces that this party takes, those
that the other one takes, and what is left to each of them behind its pieces. Only behind the last
turn something is left. -/
inductive Turns : List β → List (Piece β) → List (Piece β) → List β → List β → Prop
  | last {t : List (Piece β)} {rest : List β} (turn : Turn t)
    (writes : t.flatMap Piece.writes = []) :
      Turns (t.flatMap Piece.bytes ++ rest) t [] rest []
  | turn {t l l' : List (Piece β)} {rest rest' : List β} (turn : Turn t)
      (next : Turns (t.flatMap Piece.writes) l' l rest' rest) :
      Turns (t.flatMap Piece.bytes) (t ++ l) l' rest rest'

/-- A turn that is one piece. -/
theorem Turns.single {i : Piece β} {l l' : List (Piece β)} {rest rest' : List β} (hi : i.bytes ≠ [])
    (halone : i.alone = true) (next : Turns i.writes l' l rest' rest) :
    Turns i.bytes (i :: l) l' rest rest' := by
  have hturn : Turn [i] := by
    refine ⟨List.forall_mem_singleton.mpr hi, fun before j heq => ?_⟩
    have hlast := congrArg List.getLast? heq
    rw [List.getLast?_singleton, List.getLast?_concat] at hlast
    obtain rfl := Option.some.inj hlast
    exact halone
  have hsingle :=
    @Turns.turn β [i] l l' rest rest' hturn (by rw [List.flatMap_singleton]; exact next)
  rwa [List.flatMap_singleton] at hsingle

/-- A piece in front of a turn that is not empty. -/
theorem Turns.cons {written : List β} {i : Piece β} {l l' : List (Piece β)} {rest rest' : List β}
    (hi : i.bytes ≠ []) (hwrites : i.writes = []) (hwritten : written ≠ []) (hl : l ≠ [])
    (h : Turns written l l' rest rest') :
    Turns (i.bytes ++ written) (i :: l) l' rest rest' := by
  cases h with
  | @last t _ ht hnone =>
    rw [← List.append_assoc, ← List.flatMap_cons]
    refine .last (ht.cons hi hl) ?_
    rw [List.flatMap_cons, hwrites, List.nil_append, hnone]
  | @turn t _ _ _ _ ht next =>
    have hne : t ≠ [] := by
      rintro rfl
      exact hwritten rfl
    rw [← List.flatMap_cons, ← List.cons_append]
    refine .turn (ht.cons hi hne) ?_
    rw [List.flatMap_cons, hwrites, List.nil_append]
    exact next

/-- What is written is what is taken, and what is left. -/
theorem Turns.balance {written : List β} {l l' : List (Piece β)} {rest rest' : List β}
    (h : Turns written l l' rest rest') :
    written ++ l'.flatMap Piece.writes = l.flatMap Piece.bytes ++ rest ∧
      l.flatMap Piece.writes = l'.flatMap Piece.bytes ++ rest' := by
  induction h with
  | last _ hwrites => exact ⟨List.append_nil _, hwrites⟩
  | turn _ _ ih =>
    obtain ⟨hthere, hhere⟩ := ih
    rw [List.flatMap_append, List.flatMap_append, List.append_assoc, hhere, hthere]
    exact ⟨rfl, rfl⟩

/-- **Nobody waits**: if nothing is on its way, and neither of the parties can take its next piece,
there are no next pieces. -/
theorem Turns.quiet {written rest rest' : List β} {l l' done left done' left' : List (Piece β)}
    {front front' : List β} (h : Turns written l l' rest rest') (hl : l = done ++ left)
    (hl' : l' = done' ++ left') (hwaits : ∀ i next, left = i :: next → Waiting i front)
    (hwaits' : ∀ i next, left' = i :: next → Waiting i front')
    (hread : done.flatMap Piece.bytes ++ front = written ++ done'.flatMap Piece.writes)
    (hread' : done'.flatMap Piece.bytes ++ front' = done.flatMap Piece.writes) :
    left = [] ∧ left' = [] := by
  -- all of a turn is there: what is there of its first piece that is left is all of it, and more
  have hturn : ∀ {t before after : List (Piece β)} {front rest : List β}, Turn t →
    t = before ++ after →
      (∀ i next, after = i :: next → Waiting i front) →
      before.flatMap Piece.bytes ++ front = t.flatMap Piece.bytes ++ rest → after = [] := by
    intro t before after front rest ht heq hwaits hbytes
    cases after with
    | nil => rfl
    | cons i next =>
      obtain ⟨hbegins, halone⟩ := hwaits i next rfl
      rw [heq, List.flatMap_append, List.flatMap_cons, List.append_assoc, List.append_assoc]
        at hbytes
      have hfront : front = i.bytes ++ (next.flatMap Piece.bytes ++ rest) :=
        List.append_cancel_left hbytes
      have hnothing : next.flatMap Piece.bytes ++ rest = [] := by
        have hlen := hbegins.length_le
        rw [hfront, List.length_append] at hlen
        exact List.length_eq_zero_iff.mp (by omega)
      have hnext : next = [] := by
        cases next with
        | nil => rfl
        | cons j next =>
          rw [List.flatMap_cons, List.append_assoc] at hnothing
          have hmem : j ∈ t :=
            heq ▸ List.mem_append_right _ (List.mem_cons_of_mem _ List.mem_cons_self)
          exact absurd (List.append_eq_nil_iff.mp hnothing).1 (ht.bytes_ne_nil j hmem)
      rw [hnothing, List.append_nil] at hfront
      have hfalse := halone hfront
      rw [ht.alone before i (hnext ▸ heq)] at hfalse
      cases hfalse
  induction h generalizing done left done' left' front front' with
  | last ht _ =>
    obtain ⟨hdone', rfl⟩ := List.append_eq_nil_iff.mp hl'.symm
    rw [hdone', List.flatMap_nil, List.append_nil] at hread
    exact ⟨hturn ht hl hwaits hread, rfl⟩
  | @turn t l _ _ _ ht _ ih =>
    have hover : ∃ more, done = t ++ more ∧ l = more ++ left := by
      rcases List.append_eq_append_iff.mp hl with ⟨more, hdone, hleft⟩ | ⟨more, rfl, rfl⟩
      · exact ⟨more, hdone, hleft⟩
      · have hmore : more = [] := by
          refine hturn ht rfl (fun i next heq => ?_) hread
          rw [heq] at hwaits
          exact hwaits i (next ++ l) rfl
        rw [hmore, List.append_nil]
        exact ⟨[], (List.append_nil _).symm, rfl⟩
    obtain ⟨more, rfl, rfl⟩ := hover
    rw [List.flatMap_append, List.append_assoc] at hread
    rw [List.flatMap_append] at hread'
    obtain ⟨hleft', hleft⟩ := ih hl' rfl hwaits' hwaits hread' (List.append_cancel_left hread)
    exact ⟨hleft, hleft'⟩

/-! ## Parties that keep to a script -/

/-- A party that takes its pieces, as long as its reads meet the guard: `R` says what it has in hand
of the pieces that are still to come. -/
structure Takes (p : Party σ β) (G : σ → ℕ → Prop) (R : σ → List β → List (Piece β) → Prop)
    (rest : List β) : Prop where
  waiting : ∀ {s front i l}, R s front (i :: l) → Waiting i front
  room : ∀ {s front i l}, R s front (i :: l) → 0 < p.room s
  read : ∀ {s front l bytes tail}, R s front l → G s bytes.length → bytes.length ≤ p.room s →
    front ++ bytes ++ tail = l.flatMap Piece.bytes ++ rest →
    ∃ s' front' done left, l = done ++ left ∧ p.read s bytes = (s', done.flatMap Piece.writes) ∧
      R s' front' left ∧
      front' ++ tail = left.flatMap Piece.bytes ++ rest

/-- A read leads on in the script: it takes pieces, and answers them. -/
def Proceeds (p : Party σ β) (R : σ → List β → List (Piece β) → Prop) (rest : List β) (s : σ)
    (bytes tail : List β) (l : List (Piece β)) : Prop :=
  ∃ s' front' done left, l = done ++ left ∧ p.read s bytes = (s', done.flatMap Piece.writes) ∧
    R s' front' left ∧
    front' ++ tail = left.flatMap Piece.bytes ++ rest

/-- Where the parties stand in the script: what they have taken, and what is still to come. -/
structure Stands (R : σ → List β → List (Piece β) → Prop) (R' : τ → List β → List (Piece β) → Prop)
    (first : List β) (x : State σ τ β) (done left done' left' : List (Piece β))
    (front front' : List β) : Prop where
  client : R x.client front left
  server : R' x.server front' left'
  toClient : done.flatMap Piece.bytes ++ front ++ x.toClient = done'.flatMap Piece.writes
  toServer : done'.flatMap Piece.bytes ++ front' ++ x.toServer = first ++ done.flatMap Piece.writes

/-- What is still to be delivered. -/
def State.pending (x : State σ τ β) (left left' : List (Piece β)) : ℕ :=
  x.toClient.length + x.toServer.length + (left.flatMap Piece.writes).length +
    (left'.flatMap Piece.writes).length

variable {p : Party σ β} {q : Party τ β} {G : σ → ℕ → Prop} {G' : τ → ℕ → Prop}
  {R : σ → List β → List (Piece β) → Prop} {R' : τ → List β → List (Piece β) → Prop}
  {first rest rest' : List β} {l l' done left done' left' : List (Piece β)} {front front' : List β}
  {x y : State σ τ β}

/-- A delivery meets the guard of the party that reads. -/
def Guarded (G : σ → ℕ → Prop) (G' : τ → ℕ → Prop) (x : State σ τ β) : Delivery → Prop
  | .client n => G x.client n
  | .server n => G' x.server n

/-- **A delivery** leads on in the script. -/
theorem Stands.step (h : Stands R R' first x done left done' left' front front')
    (hp : Takes p G R rest') (hq : Takes q G' R' rest)
    (hturns : Turns first (done' ++ left') (done ++ left) rest rest') {d : Delivery}
    (hguard : Guarded G G' x d) (hstep : step p q x d = some y) :
    ∃ more left₁ more' left₁' front₁ front₁', left = more ++ left₁ ∧ left' = more' ++ left₁' ∧
      Stands R R' first y (done ++ more) left₁ (done' ++ more') left₁' front₁ front₁' ∧
      y.pending left₁ left₁' < x.pending left left' := by
  obtain ⟨hserver, hclient⟩ := hturns.balance
  simp only [List.flatMap_append] at hserver hclient
  cases d with
  | client n =>
    obtain ⟨⟨hpos, hn, hroom⟩, hy⟩ := Option.ite_none_right_eq_some.mp hstep
    obtain rfl := Option.some.inj hy
    have hlen : (x.toClient.take n).length = n := List.length_take_of_le hn
    -- what the server has still to write comes behind what is on its way
    have hall : front ++ x.toClient.take n ++ (x.toClient.drop n ++ left'.flatMap Piece.writes) =
        left.flatMap Piece.bytes ++ rest' := by
      have hsplit := h.toClient
      rw [← List.take_append_drop n x.toClient] at hsplit
      refine @List.append_cancel_left _ (done.flatMap Piece.bytes) _ _ ?_
      rw [← List.append_assoc (done.flatMap Piece.bytes) (left.flatMap Piece.bytes), ← hclient,
        ← hsplit]
      simp only [List.append_assoc]
    obtain ⟨s', front₁, more, left₁, rfl, hread, hR, hfront⟩ :=
      hp.read h.client (hlen.symm ▸ hguard) (hlen.symm ▸ hroom) hall
    refine ⟨more, left₁, [], left', front₁, front', rfl, rfl, ⟨?_, ?_, ?_, ?_⟩, ?_⟩
    · rw [hread]
      exact hR
    · exact h.server
    · dsimp only
      rw [List.append_nil]
      refine @List.append_cancel_right _ _ (left'.flatMap Piece.writes) _ ?_
      rw [hclient, List.flatMap_append, List.flatMap_append, List.append_assoc, List.append_assoc,
        hfront]
      simp only [List.append_assoc]
    · dsimp only
      rw [hread, List.append_nil, List.flatMap_append, ← List.append_assoc, h.toServer,
        List.append_assoc]
    · rw [State.pending, State.pending, hread, List.flatMap_append]
      dsimp only
      rw [List.length_append, List.length_append, List.length_drop]
      omega
  | server n =>
    obtain ⟨⟨hpos, hn, hroom⟩, hy⟩ := Option.ite_none_right_eq_some.mp hstep
    obtain rfl := Option.some.inj hy
    have hlen : (x.toServer.take n).length = n := List.length_take_of_le hn
    have hall : front' ++ x.toServer.take n ++ (x.toServer.drop n ++ left.flatMap Piece.writes) =
        left'.flatMap Piece.bytes ++ rest := by
      have hsplit := h.toServer
      rw [← List.take_append_drop n x.toServer] at hsplit
      refine @List.append_cancel_left _ (done'.flatMap Piece.bytes) _ _ ?_
      rw [← List.append_assoc (done'.flatMap Piece.bytes) (left'.flatMap Piece.bytes), ← hserver,
        ← List.append_assoc first, ← hsplit]
      simp only [List.append_assoc]
    obtain ⟨s', front₁, more, left₁, rfl, hread, hR, hfront⟩ :=
      hq.read h.server (hlen.symm ▸ hguard) (hlen.symm ▸ hroom) hall
    refine ⟨[], left, more, left₁, front, front₁, rfl, rfl, ⟨?_, ?_, ?_, ?_⟩, ?_⟩
    · exact h.client
    · rw [hread]
      exact hR
    · dsimp only
      rw [hread, List.append_nil, List.flatMap_append, ← List.append_assoc, h.toClient]
    · dsimp only
      rw [List.append_nil]
      refine @List.append_cancel_right _ _ (left.flatMap Piece.writes) _ ?_
      rw [List.append_assoc first, hserver, List.flatMap_append, List.flatMap_append,
        List.append_assoc, List.append_assoc, hfront]
      simp only [List.append_assoc]
    · rw [State.pending, State.pending, hread, List.flatMap_append]
      dsimp only
      rw [List.length_append, List.length_append, List.length_drop]
      omega

/-- **Along every run** whose reads meet the guards, the parties keep to the script, and there is
less and less to be delivered. -/
theorem stands_run (hp : Takes p G R rest') (hq : Takes q G' R' rest)
    (hturns : Turns first l' l rest rest') (hclient : R x.client [] l) (hserver : R' x.server [] l')
    (htoClient : x.toClient = []) (htoServer : x.toServer = first)
    {run : List Delivery} (hguard : Always (step p q) (Guarded G G') x run)
    (hrun : exec (step p q) x run = some y) :
    ∃ done left done' left' front front', l = done ++ left ∧ l' = done' ++ left' ∧
      Stands R R' first y done left done' left' front front' ∧
      run.length + y.pending left left' ≤ x.pending l l' := by
  have hstands : Stands R R' first x [] l [] l' [] [] :=
    ⟨hclient, hserver, htoClient, by rw [htoServer]; exact (List.append_nil _).symm⟩
  have hkeeps : ∀ {run x done left done' left' front front'}, l = done ++ left →
    l' = done' ++ left' →
      Stands R R' first x done left done' left' front front' →
        Always (step p q) (Guarded G G') x run →
      exec (step p q) x run = some y → ∃ done left₁ done' left₁' front front', l = done ++ left₁ ∧
        l' = done' ++ left₁' ∧
        Stands R R' first y done left₁ done' left₁' front front' ∧
        run.length + y.pending left₁ left₁' ≤ x.pending left left' := by
    intro run
    induction run with
    | nil =>
      intro x done left done' left' front front' hl hl' hx _ hrun
      obtain rfl := Option.some.inj hrun
      exact ⟨done, left, done', left', front, front', hl, hl', hx, Nat.le_of_eq (Nat.zero_add _)⟩
    | cons d run ih =>
      intro x done left done' left' front front' hl hl' hx hguard hrun
      obtain ⟨z, hstep, hrun⟩ := exec_cons_eq_some.mp hrun
      have hturns' := hturns
      rw [hl, hl'] at hturns'
      obtain ⟨more, left₁, more', left₁', front₁, front₁', rfl, rfl, hz, hless⟩ :=
        hx.step hp hq hturns' hguard.1 hstep
      have hl₁ : l = done ++ more ++ left₁ := by rw [hl, List.append_assoc]
      have hl₁' : l' = done' ++ more' ++ left₁' := by rw [hl', List.append_assoc]
      obtain ⟨done₂, left₂, done₂', left₂', front₂, front₂', hl₂, hl₂', hy, hle⟩ :=
        ih hl₁ hl₁' hz (hguard.2 z hstep) hrun
      refine ⟨done₂, left₂, done₂', left₂', front₂, front₂', hl₂, hl₂', hy, ?_⟩
      rw [List.length_cons]
      omega
  exact hkeeps rfl rfl hstands hguard hrun

/-- When no delivery is possible any more, there is **nothing left** to take. -/
theorem Stands.still (h : Stands R R' first x done left done' left' front front')
    (hp : Takes p G R rest') (hq : Takes q G' R' rest)
    (hturns : Turns first (done' ++ left') (done ++ left) rest rest') (hstill : Still p q x) :
    left = [] ∧ left' = [] := by
  -- who has something to take would read
  have hclient : ∀ i next, left = i :: next → Waiting i (front ++ x.toClient) := by
    intro i next heq
    have hR := heq ▸ h.client
    have hnil : x.toClient = [] := by
      have hnone := hstill (.client 1)
      rw [Exchange.step, ite_eq_right_iff] at hnone
      by_contra hne
      have hlen : 0 < x.toClient.length := List.length_pos_of_ne_nil hne
      cases hnone ⟨Nat.one_pos, hlen, hp.room hR⟩
    rw [hnil, List.append_nil]
    exact hp.waiting hR
  have hserver : ∀ i next, left' = i :: next → Waiting i (front' ++ x.toServer) := by
    intro i next heq
    have hR := heq ▸ h.server
    have hnil : x.toServer = [] := by
      have hnone := hstill (.server 1)
      rw [Exchange.step, ite_eq_right_iff] at hnone
      by_contra hne
      have hlen : 0 < x.toServer.length := List.length_pos_of_ne_nil hne
      cases hnone ⟨Nat.one_pos, hlen, hq.room hR⟩
    rw [hnil, List.append_nil]
    exact hq.waiting hR
  obtain ⟨hleft', hleft⟩ :=
    hturns.quiet rfl rfl hserver hclient (by rw [← List.append_assoc]; exact h.toServer)
    (by rw [← List.append_assoc]; exact h.toClient)
  exact ⟨hleft, hleft'⟩

/-! ## Parsers that take pieces -/

section Parsers

variable {ρ : Type u} {parse : ρ → List β → Option (ρ × List β × List β)}
    {E : ρ → List (Piece β) → Prop}
  {s s₁ : ρ} {i : Piece β} {part tail more : List β}

/-- What a parser makes of a part of the pieces: it takes some of them, and waits for the next. -/
def Drains (parse : ρ → List β → Option (ρ × List β × List β)) (E : ρ → List (Piece β) → Prop)
    (rest : List β) (s : ρ) (l : List (Piece β)) (part tail : List β) : Prop :=
  ∃ s' done left front, l = done ++ left ∧
    Incremental.drain parse s part = (done.flatMap Piece.writes, s', front) ∧
    E s' left ∧ front ++ tail = left.flatMap Piece.bytes ++ rest ∧ ∀ i next, left = i :: next →
      Waiting i front

/-- A piece is taken, with what is behind it. -/
theorem Drains.cons (hc : Incremental.Consumes parse)
    (htaken : parse s (i.bytes ++ more) = some (s₁, more, i.writes))
    (h : Drains parse E rest s₁ l more tail) :
    Drains parse E rest s (i :: l) (i.bytes ++ more) tail := by
  obtain ⟨s', done, left, front, rfl, hdrain, hE, hfront, hwaits⟩ := h
  refine ⟨s', i :: done, left, front, rfl, ?_, hE, hfront, hwaits⟩
  rw [Incremental.drain_of_some hc htaken, hdrain, List.flatMap_cons]

/-- The parser waits for the rest of a piece. -/
theorem Drains.stay (h : E s (i :: l)) (hpart : part ++ tail = (i :: l).flatMap Piece.bytes ++ rest)
    (hwaiting : Waiting i part) (hnone : parse s part = none) :
    Drains parse E rest s (i :: l) part tail := by
  refine ⟨s, [], i :: l, part, rfl, Incremental.drain_of_none hnone, h, hpart, fun j next heq => ?_⟩
  obtain ⟨rfl, -⟩ := List.cons.inj heq
  exact hwaiting

/-- An incremental parser takes pieces, and what is left is a part of the next. What it writes is
what it puts out. -/
theorem drain_pieces (hc : Incremental.Consumes parse)
    (htake : ∀ s i l, E s (i :: l) → ∃ s', E s' l ∧ ∀ more, parse s (i.bytes ++ more) =
      some (s', more, i.writes))
    (hshort : ∀ s i l part, E s (i :: l) → part <+: i.bytes → part ≠ i.bytes → parse s part = none)
    (hstop : ∀ s part, E s [] → part <+: rest → parse s part = none) (h : E s l)
    (hpart : part ++ tail = l.flatMap Piece.bytes ++ rest) : Drains parse E rest s l part tail := by
  induction l generalizing s part with
  | nil =>
    exact ⟨s, [], [], part, rfl, Incremental.drain_of_none (hstop s part h ⟨tail, hpart⟩), h, hpart,
      fun _ _ heq => absurd heq.symm (List.cons_ne_nil _ _)⟩
  | cons i l ih =>
    obtain ⟨s₁, h₁, hmore⟩ := htake s i l h
    have hsplit := hpart
    rw [List.flatMap_cons, List.append_assoc] at hsplit
    by_cases hwhole : i.bytes <+: part
    · obtain ⟨more, rfl⟩ := hwhole
      rw [List.append_assoc] at hsplit
      exact Drains.cons hc (hmore more) (ih h₁ (List.append_cancel_left hsplit))
    · have hbegins := (List.prefix_or_prefix_of_prefix ⟨tail, hsplit⟩
        (List.prefix_append i.bytes _)).resolve_right hwhole
      have hne : part ≠ i.bytes := fun heq => hwhole (heq ▸ List.prefix_rfl)
      exact Drains.stay h hpart ⟨hbegins, fun heq => absurd heq hne⟩
        (hshort s i l part h hbegins hne)

end Parsers

/-! ## Answers -/

section Answers

universe x y

variable {ρ : Type x} {μ : Type y} (react : ρ → μ → ρ × List β)

/-- The answers to messages, and the state after them. -/
def answers : ρ → List μ → ρ × List β
  | r, [] => (r, [])
  | r, m :: ms => ((answers (react r m).1 ms).1, (react r m).2 ++ (answers (react r m).1 ms).2)

/-- Chunks, each with the message that it completes, as the pieces of a party that answers messages.
-/
def answered : ρ → List (List β × Option μ) → List (Piece β)
  | _, [] => []
  | r, (bytes, none) :: chunks => ⟨bytes, [], true⟩ :: answered r chunks
  | r, (bytes, some m) :: chunks => ⟨bytes, (react r m).2, true⟩ :: answered (react r m).1 chunks

/-- All goes well up to the last of the messages, and then this is the state. -/
def Follows (ok : ρ → μ → Prop) (target : ρ) : ρ → List μ → Prop
  | r, [] => r = target
  | r, m :: ms => ok r m ∧ Follows ok target (react r m).1 ms

/-- The messages that chunks complete. -/
def completed (chunks : List (List β × Option μ)) : List μ := chunks.filterMap Prod.snd

variable {react} {r : ρ} {chunks chunks' : List (List β × Option μ)}

theorem bytes_answered : (answered react r chunks).flatMap Piece.bytes =
    chunks.flatMap Prod.fst := by
  induction chunks generalizing r with
  | nil => rfl
  | cons chunk chunks ih =>
    obtain ⟨bytes, _ | m⟩ := chunk
    · rw [answered, List.flatMap_cons, ih, List.flatMap_cons]
    · rw [answered, List.flatMap_cons, ih, List.flatMap_cons]

theorem writes_answered : (answered react r chunks).flatMap Piece.writes =
    (answers react r (completed chunks)).2 := by
  induction chunks generalizing r with
  | nil => rfl
  | cons chunk chunks ih =>
    obtain ⟨bytes, _ | m⟩ := chunk
    · rw [answered, List.flatMap_cons, ih]
      rfl
    · rw [answered, List.flatMap_cons, ih]
      rfl

theorem answered_append : answered react r (chunks ++ chunks') =
    answered react r chunks ++ answered react (answers react r (completed chunks)).1 chunks' := by
  induction chunks generalizing r with
  | nil => rfl
  | cons chunk chunks ih =>
    obtain ⟨bytes, _ | m⟩ := chunk
    · rw [List.cons_append, answered, ih]
      rfl
    · rw [List.cons_append, answered, ih]
      rfl

/-- These messages are completed by the chunks, and the last chunk of all completes the last of
them. -/
inductive Completes : List μ → List (List β × Option μ) → Prop
  | nil : Completes [] []
  | part {bytes : List β} {ms : List μ} {chunks : List (List β × Option μ)}
    (bytes_ne_nil : bytes ≠ []) (later : ms ≠ [])
      (h : Completes ms chunks) : Completes ms ((bytes, none) :: chunks)
  | message {bytes : List β} {m : μ} {ms : List μ} {chunks : List (List β × Option μ)}
    (bytes_ne_nil : bytes ≠ [])
      (h : Completes ms chunks) : Completes (m :: ms) ((bytes, some m) :: chunks)

variable {ms ms' : List μ}

theorem Completes.append (h : Completes ms chunks) (h' : Completes ms' chunks') :
    Completes (ms ++ ms') (chunks ++ chunks') := by
  induction h with
  | nil => exact h'
  | part hne hlater _ ih => exact .part hne (List.append_ne_nil_of_left_ne_nil hlater _) ih
  | message hne _ ih => exact .message hne ih

theorem Completes.completed (h : Completes ms chunks) : completed chunks = ms := by
  induction h with
  | nil => rfl
  | part _ _ _ ih => exact ih
  | message _ _ ih => exact congrArg (_ :: ·) ih

/-- They are a turn. -/
theorem Completes.turn (h : Completes ms chunks) : Turn (answered react r chunks) := by
  have hall : ∀ (r : ρ), ∀ i ∈ answered react r chunks, i.bytes ≠ [] ∧ i.alone = true := by
    induction h with
    | nil => exact fun _ i hi => absurd hi List.not_mem_nil
    | part hne _ _ ih => exact fun r => List.forall_mem_cons.mpr ⟨⟨hne, rfl⟩, ih r⟩
    | message hne _ ih => exact fun r => List.forall_mem_cons.mpr ⟨⟨hne, rfl⟩, ih _⟩
  refine ⟨fun i hi => (hall r i hi).1, fun before i heq => (hall r i ?_).2⟩
  rw [heq]
  exact List.mem_append_right _ List.mem_cons_self

theorem Completes.bytes_ne_nil (h : Completes ms chunks) (hms : ms ≠ []) :
    chunks.flatMap Prod.fst ≠ [] := by
  cases h with
  | nil => exact absurd rfl hms
  | part hne _ _ => exact List.append_ne_nil_of_left_ne_nil hne _
  | message hne _ => exact List.append_ne_nil_of_left_ne_nil hne _

theorem Completes.answered_ne_nil (h : Completes ms chunks) (hms : ms ≠ []) :
    answered react r chunks ≠ [] := by
  cases h with
  | nil => exact absurd rfl hms
  | part _ _ _ => exact List.cons_ne_nil _ _
  | message _ _ => exact List.cons_ne_nil _ _

/-- A turn of a party that answers messages. -/
theorem Turns.answers {l' : List (Piece β)} {rest rest' : List β} (h : Completes ms chunks)
    (next : Turns (answers react r ms).2 l' (answered react (answers react r ms).1 chunks')
      rest' rest) :
    Turns (chunks.flatMap Prod.fst) (answered react r (chunks ++ chunks')) l' rest rest' := by
  have hbytes : (answered react r chunks).flatMap Piece.bytes =
    chunks.flatMap Prod.fst := bytes_answered
  rw [answered_append, h.completed, ← hbytes]
  refine .turn h.turn ?_
  rw [writes_answered, h.completed]
  exact next

end Answers

end Exchange
