import VcpMediaServer.ReaderProgress

/-!
# Joining at the live edge

A `LiveSequential` reader begins behind `latest_seq`, the number of the frame pushed last. A ring
that no frame has been pushed to gives the **same number** as one that holds the first frame, and
there the reader begins behind a frame that is yet to come.

* `span_framesFrom` — a range of which all is stored.
* `LiveEdge` — a hub, its history since the last reset, and a reader that joins.
* `LiveEdge.exact_iff` — along every run the reader is delivered the frames published since it
  joined, each once and in order, **exactly if** the ring was not empty and what is read is still
  stored.
* `LiveEdge.exact_iff_in_room` — where every publish finds room, the first is all that is needed.
-/

namespace VcpMediaServer

open FrameRing Lts

/-! ## A stored range -/

/-- The frames of a history with numbers from `lo` up to but not including `hi`. -/
def publishedFrom (fs : List MediaFrame) (lo hi : ℕ) : List StoredFrame :=
  ((stamped fs).drop lo).take (hi - lo)

variable {fs : List MediaFrame}

theorem mem_publishedFrom {lo hi : ℕ} {f : StoredFrame} :
    f ∈ publishedFrom fs lo hi ↔ f ∈ stamped fs ∧ lo ≤ f.seq ∧ f.seq < hi := by
  rw [publishedFrom, List.mem_take_iff_getElem]
  constructor
  · rintro ⟨i, hi', rfl⟩
    have hget : (stamped fs)[lo + i]? = some (((stamped fs).drop lo)[i]) := by
      rw [← List.getElem?_drop, List.getElem?_eq_getElem]
    rw [seq_of_stamped_getElem? hget]
    refine ⟨List.mem_of_getElem? hget, ?_, ?_⟩ <;> omega
  · rintro ⟨hf, hlo, hhi⟩
    have hget := stamped_getElem?_seq hf
    have hlt := (List.getElem?_eq_some_iff.mp hget).1
    refine ⟨f.seq - lo, by rw [List.length_drop]; omega, ?_⟩
    rw [List.getElem_drop]
    have heq : lo + (f.seq - lo) = f.seq := Nat.add_sub_cancel' hlo
    simp only [heq]
    exact (List.getElem?_eq_some_iff.mp hget).2

theorem length_publishedFrom {lo hi : ℕ} (h : hi ≤ fs.length) :
    (publishedFrom fs lo hi).length = hi - lo := by
  rw [publishedFrom, List.length_take, List.length_drop, stamped_length]
  omega

/-- What was published up to one number and from there on. -/
theorem publishedFrom_append {lo mid hi : ℕ} (hlo : lo ≤ mid) (hhi : mid ≤ hi) :
    publishedFrom fs lo mid ++ publishedFrom fs mid hi = publishedFrom fs lo hi := by
  have hsplit : hi - lo = (mid - lo) + (hi - mid) := by omega
  rw [publishedFrom, publishedFrom, publishedFrom, hsplit, List.take_add, List.drop_drop,
    Nat.add_sub_cancel' hlo]

/-- Later publishes do not change what was published before. -/
theorem publishedFrom_concat {lo hi : ℕ} (h : hi ≤ fs.length) (f : MediaFrame) :
    publishedFrom (fs ++ [f]) lo hi = publishedFrom fs lo hi := by
  rw [publishedFrom, publishedFrom, stamped_concat]
  by_cases hlo : lo ≤ fs.length
  · rw [List.drop_append_of_le_length (by rwa [stamped_length]), List.take_append_of_le_length]
    rw [List.length_drop, stamped_length]
    omega
  · rw [show hi - lo = 0 by omega, List.take_zero, List.take_zero]

/-- A range of which all is stored is what was published in it. -/
theorem framesFrom_of_stored {r : FrameRing} (hinv : RingInv fs r) {a b : ℕ}
    (hall : ∀ n, a ≤ n → n ≤ b → ∃ f ∈ r.slots, f.seq = n) :
    r.framesFrom a b = publishedFrom fs a (b + 1) := by
  refine List.Pairwise.eq_of_mem_iff (r := fun f g => f.seq < g.seq)
    (hinv.slots_pairwise.sublist List.filter_sublist)
    ((stamped_pairwise fs).sublist ((List.take_sublist _ _).trans (List.drop_sublist _ _))) fun f =>
      ?_
  rw [mem_framesFrom, mem_publishedFrom]
  constructor
  · rintro ⟨hf, hlo, hhi⟩
    exact ⟨hinv.mem_stamped hf, hlo, Nat.lt_succ_of_le hhi⟩
  · rintro ⟨hf, hlo, hhi⟩
    obtain ⟨g, hg, hseq⟩ := hall f.seq hlo (Nat.le_of_lt_succ hhi)
    have hget := stamped_getElem?_seq hf
    rw [← hseq, stamped_getElem?_seq (hinv.mem_stamped hg)] at hget
    obtain rfl := Option.some.inj hget
    exact ⟨hg, hlo, Nat.le_of_lt_succ hhi⟩

/-- A range holds no more frames than numbers, and as many **only if** all of it is stored. -/
theorem stored_of_length {r : FrameRing} (hinv : RingInv fs r) {a b : ℕ}
    (hlen : b + 1 - a ≤ (r.framesFrom a b).length) :
    ∀ n, a ≤ n → n ≤ b → ∃ f ∈ r.slots, f.seq = n := by
  intro n hlo hhi
  have hsub : seqsOf (r.framesFrom a b) ⊆ span a b := fun m hm => by
    obtain ⟨f, hf, rfl⟩ := List.mem_map.mp hm
    exact mem_span.mpr (mem_framesFrom.mp hf).2
  have hnodup : (seqsOf (r.framesFrom a b)).Nodup :=
    (hinv.framesFrom_pairwise a b).imp fun hlt => hlt.ne
  have hperm := List.subperm_of_subset hnodup hsub
  have hle : (span a b).length ≤ (seqsOf (r.framesFrom a b)).length := by
    rw [span, List.length_range', seqsOf, List.length_map]
    exact hlen
  have hmem : n ∈ seqsOf (r.framesFrom a b) :=
    (hperm.perm_of_length_le hle).mem_iff.mpr (mem_span.mpr ⟨hlo, hhi⟩)
  obtain ⟨f, hf, hseq⟩ := List.mem_map.mp hmem
  exact ⟨f, (mem_framesFrom.mp hf).1, hseq⟩

namespace DispatchReader

variable {h : StreamHub} {r : DispatchReader}

/-- All of the range that a batch would be made of is stored. -/
def RangeStored (h : StreamHub) (r : DispatchReader) : Prop :=
  ∀ n, r.cursor ≤ n → n ≤ r.batchEnd h → ∃ f ∈ h.ring.slots, f.seq = n

theorem batchEnd_bounds (hp : r.policy = .liveSequential) (hle : r.cursor ≤ h.latestSeq) :
    r.cursor ≤ r.batchEnd h ∧ r.batchEnd h ≤ h.latestSeq := by
  rw [batchEnd, hp]
  exact ⟨le_min hle (Nat.le_add_right _ _), Nat.min_le_left _ _⟩

/-- A reader behind the live edge has nothing to read, and its range is stored. -/
theorem rangeStored_of_lt (hp : r.policy = .liveSequential) (hlt : h.latestSeq < r.cursor) :
    r.RangeStored h := by
  intro n hlo hhi
  rw [batchEnd, hp] at hhi
  exact absurd (hhi.trans (Nat.min_le_left _ _)) (Nat.not_le.mpr (hlt.trans_le hlo))

theorem recvBatch_of_lt (hp : r.policy = .liveSequential) (hlt : h.latestSeq < r.cursor) :
    r.recvBatch h = ([], r) := by
  rw [recvBatch_of_isSequential (by rw [hp]; rfl), if_pos hlt]

/-- A range of which all is stored is delivered as it was published. -/
theorem recvBatch_of_rangeStored (hinv : RingInv fs h.ring) (hp : r.policy = .liveSequential)
    (hle : r.cursor ≤ h.latestSeq) (hstored : r.RangeStored h) :
    r.recvBatch h =
      (publishedFrom fs r.cursor (r.batchEnd h + 1), { r with cursor := r.batchEnd h + 1 }) := by
  obtain ⟨hlo, hhi⟩ := batchEnd_bounds hp hle
  have hframes : h.framesFrom r.cursor (r.batchEnd h) =
      publishedFrom fs r.cursor (r.batchEnd h + 1) :=
    framesFrom_of_stored hinv hstored
  have hne : h.framesFrom r.cursor (r.batchEnd h) ≠ [] := by
    obtain ⟨f, hf, hseq⟩ := hstored r.cursor le_rfl hlo
    exact List.ne_nil_of_mem (mem_framesFrom.mpr ⟨hf, hseq.ge, hseq.trans_le hlo⟩)
  rw [recvBatch_of_isSequential (by rw [hp]; rfl), if_neg (Nat.not_lt.mpr hle)]
  dsimp only
  rw [if_neg hne, hframes]

/-- A batch that is what was published from the cursor on has been made of a stored range: it holds
as many frames as the cursor has moved on by. -/
theorem rangeStored_of_recvBatch (hinv : RingInv fs h.ring) (hp : r.policy = .liveSequential)
    (hle : r.cursor ≤ h.latestSeq) (hne : (r.recvBatch h).1 ≠ [])
    (hlen : (r.recvBatch h).1.length = (r.recvBatch h).2.cursor - r.cursor) : r.RangeStored h := by
  rw [recvBatch_of_isSequential (by rw [hp]; rfl), if_neg (Nat.not_lt.mpr hle)] at hne hlen
  dsimp only at hne hlen
  split at hlen
  · next hnil =>
    rw [if_pos hnil] at hne
    obtain hstay | ⟨lo, hi, hlohi, hlt, hseqs, hreader⟩ := jumpToIdr_cases (r := r) hinv
    · rw [hstay] at hne
      exact absurd rfl hne
    · -- the jump has passed the frame under the cursor
      have hcount : (r.jumpToIdr h).1.length = hi + 1 - lo := by
        rw [← List.length_map, ← seqsOf, hseqs, span, List.length_range']
      rw [hcount, hreader] at hlen
      dsimp only at hlen
      omega
  · refine stored_of_length hinv ?_
    change r.batchEnd h + 1 - r.cursor ≤ (h.framesFrom r.cursor (r.batchEnd h)).length
    exact hlen.ge

end DispatchReader

/-! ## Runs -/

/-- A hub, and a reader of the policy `LiveSequential`. -/
structure LiveEdge where
  /-- The hub. -/
  hub : StreamHub
  /-- The frames published since the ring was last emptied, oldest first. -/
  published : List MediaFrame
  /-- The reader, once it has joined. -/
  reader : Option Subscriber
  /-- How many frames had been published when it joined. -/
  joinedAt : ℕ
  /-- The frames delivered so far. -/
  delivered : List StoredFrame
  deriving DecidableEq, Repr

/-- A call on the hub, the coming of the reader, or a step of its receiving. -/
inductive LiveEdgeStep where
  | publish (frame : MediaFrame)
  /-- `reset`, before the reader comes. -/
  | reset
  /-- `DispatchReader::new`. -/
  | join
  /-- `recv_batch` is called. -/
  | recv
  /-- A waiting `recv_batch` finds the watch channel changed. -/
  | wake
  deriving DecidableEq, Repr

namespace LiveEdge

/-- A new hub, without a reader. -/
def init (stream : Stream) : LiveEdge := ⟨StreamHub.withStream stream, [], none, 0, []⟩

/-- The reader that asks for a batch in the step. -/
def reading (s : LiveEdge) : LiveEdgeStep → Option DispatchReader
  | .recv => s.reader.map Subscriber.reader
  | .wake => s.reader.bind fun u =>
    if u.waiting && u.reader.wake != s.hub.seqTx then some (u.reader.seen s.hub.seqTx) else none
  | _ => none

/-- The batch that the reader makes is delivered. -/
def take (s : LiveEdge) (r : DispatchReader) : LiveEdge :=
  { s with
    reader := some (Subscriber.at' (r.recvBatch s.hub).2)
    delivered := s.delivered ++ (r.recvBatch s.hub).1 }

/-- One step. -/
def step (s : LiveEdge) : LiveEdgeStep → Option LiveEdge
  | .publish f => (s.hub.publish f).map fun hub => { s with hub, published := s.published ++ [f] }
  | .reset => if s.reader = none then some { s with hub := s.hub.reset, published := [] } else none
  | .join =>
    if s.reader = none then
      some { s with
        reader := some (Subscriber.at' (DispatchReader.new s.hub .liveSequential))
        joinedAt := s.published.length }
    else none
  | .recv => s.reader.map fun u =>
    if u.reader.ensureReady s.hub then s.take u.reader
    else { s with reader := some ⟨u.reader, true⟩ }
  | .wake => (s.reading .wake).map s.take

/-- What has been delivered is what was published since the reader joined, up to its cursor. -/
def Exact (s : LiveEdge) : Prop :=
  ∀ u, s.reader = some u → s.delivered = publishedFrom s.published s.joinedAt u.reader.cursor

/-- After the step the delivery is exact, and if there was something to deliver it has gone on. -/
def StaysExact (s : LiveEdge) (l : LiveEdgeStep) : Prop :=
  ∀ s', s.step l = some s' → s'.Exact ∧
    ∀ r, s.reading l = some r → r.cursor ≤ s.hub.latestSeq → s'.delivered ≠ s.delivered

/-- The condition on a step: with a reader, nothing is published to a ring that has had no frame,
and what is read is still stored. -/
def ReadsWhole (s : LiveEdge) : LiveEdgeStep → Prop
  | .publish _ => s.reader ≠ none → s.published ≠ []
  | l => ∀ r, s.reading l = some r → r.RangeStored s.hub

/-- Where a reader stands: it began at the end of the history, or **one too far**, and all from
there to its cursor has been delivered. -/
structure Stands (s : LiveEdge) (r : DispatchReader) : Prop where
  policy : r.policy = .liveSequential
  le : s.joinedAt ≤ r.cursor
  cursor : if s.published = [] then s.joinedAt = 0 ∧ r.cursor = 1 else r.cursor ≤ s.published.length
  delivered : s.delivered = publishedFrom s.published s.joinedAt r.cursor

/-- What holds between two steps. -/
structure Inv (s : LiveEdge) : Prop where
  /-- The ring is the one that the published frames lead to. -/
  ring : RingInv s.published s.hub.ring
  /-- Nothing is delivered to nobody. -/
  none : s.reader = none → s.delivered = []
  stands : ∀ u, s.reader = some u → s.Stands u.reader

theorem Inv.init (stream : Stream) : (LiveEdge.init stream).Inv where
  ring := RingInv.withCapacity _ _
  none := fun _ => rfl
  stands := fun u hu => by cases hu

variable {s s' : LiveEdge} {r : DispatchReader}

theorem Inv.exact (hi : s.Inv) : s.Exact := fun u hu => (hi.stands u hu).delivered

/-- A reader that has read to the live edge has been delivered **all** that was published since it
joined. -/
theorem Inv.delivered_of_caughtUp (hi : s.Inv) {u : Subscriber} (hu : s.reader = some u)
    (hne : s.published ≠ []) (hlt : s.hub.latestSeq < u.reader.cursor) :
    s.delivered = (stamped s.published).drop s.joinedAt := by
  have hs := hi.stands u hu
  have hcursor := hs.cursor
  rw [if_neg hne] at hcursor
  have hwrite := hi.ring.writeSeq_eq
  rw [StreamHub.latestSeq, latestSeq, hwrite] at hlt
  rw [hs.delivered, publishedFrom, List.take_of_length_le]
  rw [List.length_drop, stamped_length]
  omega

/-- The reader that asks for a batch is that of the state, with a version of the watch channel seen.
-/
theorem Inv.reading (hi : s.Inv) {l : LiveEdgeStep} (hr : s.reading l = some r) : s.Stands r := by
  cases l with
  | recv =>
    obtain ⟨u, hu, rfl⟩ := Option.map_eq_some_iff.mp hr
    exact hi.stands u hu
  | wake =>
    obtain ⟨u, hu, hr⟩ := Option.bind_eq_some_iff.mp hr
    rw [Option.ite_none_right_eq_some] at hr
    obtain rfl := Option.some.inj hr.2
    have hs := hi.stands u hu
    exact ⟨hs.policy, hs.le, hs.cursor, hs.delivered⟩
  | _ => cases hr

/-- Something has been published where a cursor is not behind the live edge. -/
theorem Stands.published_ne_nil (hs : s.Stands r) (hi : s.Inv) (hle : r.cursor ≤ s.hub.latestSeq) :
    s.published ≠ [] := by
  intro hnil
  have hcursor := hs.cursor
  have hwrite := hi.ring.writeSeq_eq
  rw [if_pos hnil] at hcursor
  rw [hnil, List.length_nil] at hwrite
  rw [hcursor.2, StreamHub.latestSeq, latestSeq, hwrite] at hle
  omega

/-- A batch of a stored range leaves the reader where it should be. -/
theorem Stands.take (hs : s.Stands r) (hi : s.Inv) (hstored : r.RangeStored s.hub) :
    (s.take r).Stands (r.recvBatch s.hub).2 := by
  by_cases hle : r.cursor ≤ s.hub.latestSeq
  · have hne := hs.published_ne_nil hi hle
    have hcursor := hs.cursor
    rw [if_neg hne] at hcursor
    have hwrite :=
      DispatchReader.recvBatch_cursor_le hi.ring (hcursor.trans_eq hi.ring.writeSeq_eq.symm)
    rw [hi.ring.writeSeq_eq, DispatchReader.recvBatch_of_rangeStored hi.ring hs.policy hle hstored]
      at hwrite
    obtain ⟨hlo, -⟩ := DispatchReader.batchEnd_bounds hs.policy hle
    rw [LiveEdge.take, DispatchReader.recvBatch_of_rangeStored hi.ring hs.policy hle hstored]
    refine ⟨hs.policy, hs.le.trans (hlo.trans (Nat.le_succ _)), ?_, ?_⟩
    · change if s.published = [] then _ else _
      rw [if_neg hne]
      exact hwrite
    · change s.delivered ++ _ = publishedFrom s.published s.joinedAt (r.batchEnd s.hub + 1)
      rw [hs.delivered, publishedFrom_append hs.le (hlo.trans (Nat.le_succ _))]
  · rw [LiveEdge.take, DispatchReader.recvBatch_of_lt hs.policy (Nat.lt_of_not_le hle)]
    exact ⟨hs.policy, hs.le, hs.cursor, by rw [List.append_nil]; exact hs.delivered⟩

/-- A batch is exact and not empty **exactly if** its range is stored. -/
theorem Stands.take_iff (hs : s.Stands r) (hi : s.Inv) :
    ((s.take r).Exact ∧ (r.cursor ≤ s.hub.latestSeq → (s.take r).delivered ≠ s.delivered)) ↔
      r.RangeStored s.hub := by
  constructor
  · rintro ⟨hexact, hgoes⟩
    by_cases hle : r.cursor ≤ s.hub.latestSeq
    · have hnil : (r.recvBatch s.hub).1 ≠ [] :=
        fun hnil => hgoes hle (by simp [LiveEdge.take, hnil])
      refine DispatchReader.rangeStored_of_recvBatch hi.ring hs.policy hle hnil ?_
      have hcursor := hs.cursor
      rw [if_neg (hs.published_ne_nil hi hle)] at hcursor
      have hwrite :=
        DispatchReader.recvBatch_cursor_le hi.ring (hcursor.trans_eq hi.ring.writeSeq_eq.symm)
      rw [hi.ring.writeSeq_eq] at hwrite
      have hdel : s.delivered ++ (r.recvBatch s.hub).1
          = publishedFrom s.published s.joinedAt (r.recvBatch s.hub).2.cursor := hexact _ rfl
      have hlen := congrArg List.length hdel
      rw [List.length_append, hs.delivered, length_publishedFrom hcursor,
        length_publishedFrom hwrite] at hlen
      have hle' := hs.le
      omega
    · exact DispatchReader.rangeStored_of_lt hs.policy (Nat.lt_of_not_le hle)
  · intro hstored
    refine ⟨fun u hu => ?_, fun hle => ?_⟩
    · obtain rfl := Option.some.inj hu
      exact (hs.take hi hstored).delivered
    · obtain ⟨hlo, -⟩ := DispatchReader.batchEnd_bounds hs.policy hle
      obtain ⟨f, hf, hseq⟩ := hstored r.cursor le_rfl hlo
      have hmem : f ∈ publishedFrom s.published r.cursor (r.batchEnd s.hub + 1) :=
        mem_publishedFrom.mpr ⟨hi.ring.mem_stamped hf, hseq.ge,
          Nat.lt_succ_of_le (hseq.trans_le hlo)⟩
      rw [LiveEdge.take, DispatchReader.recvBatch_of_rangeStored hi.ring hs.policy hle hstored]
      intro heq
      have hnil : publishedFrom s.published r.cursor (r.batchEnd s.hub + 1) = [] :=
        List.append_cancel_left (heq.trans (List.append_nil _).symm)
      rw [hnil] at hmem
      cases hmem

/-- A batch of a stored range keeps the invariant. -/
theorem Inv.take (hi : s.Inv) (hs : s.Stands r) (hstored : r.RangeStored s.hub) :
    (s.take r).Inv := by
  refine ⟨hi.ring, fun hn => absurd hn (Option.some_ne_none _), fun u hu => ?_⟩
  obtain rfl := Option.some.inj hu
  exact hs.take hi hstored

/-- A reader that waits stands where it did. -/
theorem Inv.wait (hi : s.Inv) {u : Subscriber} (hu : s.reader = some u) :
    ({ s with reader := some ⟨u.reader, true⟩ } : LiveEdge).Inv := by
  refine ⟨hi.ring, fun hn => absurd hn (Option.some_ne_none _), fun u' hu' => ?_⟩
  obtain rfl := Option.some.inj hu'
  have hs := hi.stands u hu
  exact ⟨hs.policy, hs.le, hs.cursor, hs.delivered⟩

/-- A new reader stands at the end of the history. -/
theorem Inv.join (hi : s.Inv) (hnone : s.reader = .none) :
    ({ s with
        reader := some (Subscriber.at' (DispatchReader.new s.hub .liveSequential))
        joinedAt := s.published.length } : LiveEdge).Inv := by
  have hcursor : (DispatchReader.new s.hub .liveSequential).cursor =
      s.published.length - 1 + 1 := by
    rw [← hi.ring.writeSeq_eq]
    rfl
  refine ⟨hi.ring, fun hn => absurd hn (Option.some_ne_none _), fun u hu => ?_⟩
  obtain rfl := Option.some.inj hu
  refine ⟨rfl, ?_, ?_, ?_⟩
  · change s.published.length ≤ (DispatchReader.new s.hub .liveSequential).cursor
    rw [hcursor]
    omega
  · change if s.published = [] then s.published.length = 0 ∧
        (DispatchReader.new s.hub .liveSequential).cursor = 1 else
      (DispatchReader.new s.hub .liveSequential).cursor ≤ _
    rw [hcursor]
    split
    · next hnil =>
      rw [hnil]
      exact ⟨rfl, rfl⟩
    · next hne =>
      have hpos : 0 < s.published.length := List.length_pos_iff.mpr hne
      change s.published.length - 1 + 1 ≤ s.published.length
      omega
  · change s.delivered = publishedFrom s.published s.published.length _
    rw [hi.none hnone, publishedFrom, List.drop_of_length_le (stamped_length _).le, List.take_nil]

/-- A publish leaves the reader where it is, if it is not the **first frame** of the ring. -/
theorem Inv.publish (hi : s.Inv) {f : MediaFrame} (hmeets : s.reader ≠ .none → s.published ≠ [])
    {hub : StreamHub} (hp : s.hub.publish f = some hub) :
    ({ s with hub, published := s.published ++ [f] } : LiveEdge).Inv := by
  obtain ⟨ring, hring, rfl⟩ := StreamHub.publish_eq_some.mp hp
  refine ⟨hi.ring.push hring, hi.none, fun u hu => ?_⟩
  have hs := hi.stands u hu
  have hcursor := hs.cursor
  rw [if_neg (hmeets (by rw [show s.reader = some u from hu]; exact Option.some_ne_none u))]
    at hcursor
  refine ⟨hs.policy, hs.le, ?_, ?_⟩
  · change if s.published ++ [f] = [] then _ else _
    rw [if_neg (List.concat_ne_nil f s.published), List.length_append]
    exact hcursor.trans (Nat.le_add_right _ _)
  · change s.delivered = publishedFrom (s.published ++ [f]) s.joinedAt u.reader.cursor
    rw [hs.delivered, publishedFrom_concat hcursor]

/-- The first frame of a ring that has a reader is behind its cursor and has **not** been delivered.
-/
theorem Inv.not_exact_publish (hi : s.Inv) {u : Subscriber} (hu : s.reader = some u)
    (hnil : s.published = []) {f : MediaFrame} {hub : StreamHub} :
    ¬ ({ s with hub, published := s.published ++ [f] } : LiveEdge).Exact := by
  intro hexact
  have hs := hi.stands u hu
  have hcursor := hs.cursor
  rw [if_pos hnil] at hcursor
  have hdel : s.delivered = publishedFrom (s.published ++ [f]) s.joinedAt u.reader.cursor :=
    hexact u hu
  rw [hs.delivered, hcursor.1, hcursor.2, hnil] at hdel
  have hlen : (publishedFrom ([] ++ [f]) 0 1).length = 1 - 0 := length_publishedFrom le_rfl
  rw [← hdel] at hlen
  exact Nat.zero_ne_one hlen

/-- A push to a ring that has had no frame returns: a GOP of one frame can be held. -/
theorem Inv.exists_publish (hi : s.Inv) (hnil : s.published = []) (f : MediaFrame) :
    ∃ hub, s.hub.publish f = some hub := by
  have happend := hi.ring.append f
  rw [hnil, List.nil_append] at happend
  have hfit : NewestGopFits (s.hub.ring.append f).capacityFrames (s.hub.ring.append f).capacityBytes
      [f] := by
    refine .inl ?_
    rw [newestGop]
    split
    · exact Nat.zero_le _
    · rw [List.length_drop]
      exact Nat.sub_le _ _
  obtain ⟨ring, hring⟩ := Option.isSome_iff_exists.mp
    ((evictIfNeeded_isSome_iff _).mpr ((halts_evictStep_iff happend).mpr hfit))
  exact ⟨_, StreamHub.publish_eq_some.mpr ⟨ring, hring, rfl⟩⟩

/-- A step that makes a batch stays exact **exactly if** the range of the batch is stored. -/
theorem Inv.staysExact_take (hi : s.Inv) {l : LiveEdgeStep} (hr : s.reading l = some r)
    (h : s.step l = some (s.take r)) : s.StaysExact l ↔ r.RangeStored s.hub := by
  rw [← (hi.reading hr).take_iff hi]
  constructor
  · intro hstays
    obtain ⟨hexact, hgoes⟩ := hstays _ h
    exact ⟨hexact, hgoes r hr⟩
  · rintro ⟨hexact, hgoes⟩ s' h'
    obtain rfl := Option.some.inj (h.symm.trans h')
    refine ⟨hexact, fun r' hr' => ?_⟩
    obtain rfl := Option.some.inj (hr.symm.trans hr')
    exact hgoes

/-- A call that has to wait: nothing is left to deliver, or **all** that is has been evicted. -/
theorem Inv.staysExact_wait (hi : s.Inv) {u : Subscriber} (hu : s.reader = some u)
    (hready : ¬ u.reader.ensureReady s.hub = true) :
    s.StaysExact .recv ↔ u.reader.RangeStored s.hub := by
  have hs := hi.stands u hu
  have hreading : s.reading .recv = some u.reader := by simp [LiveEdge.reading, hu]
  have hstep : s.step .recv = some { s with reader := some ⟨u.reader, true⟩ } := by
    simp [LiveEdge.step, hu, hready]
  by_cases hle : u.reader.cursor ≤ s.hub.latestSeq
  · have hnil : s.hub.ring.slots = [] := by
      by_contra hne
      exact hready (DispatchReader.ensureReady_iff.mpr ⟨hne, hle⟩)
    refine iff_of_false (fun hstays => ?_) fun hstored => ?_
    · exact (hstays _ hstep).2 _ hreading hle rfl
    · obtain ⟨hlo, -⟩ := DispatchReader.batchEnd_bounds hs.policy hle
      obtain ⟨f, hf, -⟩ := hstored _ le_rfl hlo
      rw [hnil] at hf
      cases hf
  · refine iff_of_true (fun s' h => ?_)
      (DispatchReader.rangeStored_of_lt hs.policy (Nat.lt_of_not_le hle))
    obtain rfl := Option.some.inj (hstep.symm.trans h)
    refine ⟨(hi.wait hu).exact, fun r hr hle' => ?_⟩
    obtain rfl := Option.some.inj (hreading.symm.trans hr)
    exact absurd hle' hle

/-- With a reader the condition on a step that makes a batch is about that. -/
theorem readsWhole_iff {l : LiveEdgeStep} (hl : l = .recv ∨ l = .wake) (hr : s.reading l = some r) :
    s.ReadsWhole l ↔ r.RangeStored s.hub := by
  have hall : (∀ r, s.reading l = some r → r.RangeStored s.hub) ↔ r.RangeStored s.hub := by
    rw [hr]
    constructor
    · exact fun h => h r rfl
    · rintro h r' hr'
      obtain rfl := Option.some.inj hr'
      exact h
  rcases hl with rfl | rfl
  · exact hall
  · exact hall

/-- The delivery stays exact, and goes on, **exactly if** the step meets the condition. -/
theorem Inv.staysExact_iff (hi : s.Inv) (l : LiveEdgeStep) : s.StaysExact l ↔ s.ReadsWhole l := by
  cases l with
  | publish f =>
    constructor
    · intro hstays hreader hnil
      obtain ⟨u, hu⟩ := Option.ne_none_iff_exists'.mp hreader
      obtain ⟨hub, hp⟩ := hi.exists_publish hnil f
      have hstep : s.step (.publish f) = some { s with hub, published := s.published ++ [f] } := by
        simp [LiveEdge.step, hp]
      exact hi.not_exact_publish hu hnil (hstays _ hstep).1
    · intro hmeets s' h
      obtain ⟨hub, hp, rfl⟩ := Option.map_eq_some_iff.mp h
      exact ⟨(hi.publish hmeets hp).exact, fun r hr => by cases hr⟩
  | reset =>
    refine iff_of_true (fun s' h => ?_) fun r hr => by cases hr
    rw [LiveEdge.step, Option.ite_none_right_eq_some] at h
    obtain ⟨hnone, h⟩ := h
    obtain rfl := Option.some.inj h
    refine ⟨fun u hu => ?_, fun r hr => by cases hr⟩
    rw [show s.reader = some u from hu] at hnone
    cases hnone
  | join =>
    refine iff_of_true (fun s' h => ?_) fun r hr => by cases hr
    rw [LiveEdge.step, Option.ite_none_right_eq_some] at h
    obtain ⟨hnone, h⟩ := h
    obtain rfl := Option.some.inj h
    exact ⟨(hi.join hnone).exact, fun r hr => by cases hr⟩
  | recv =>
    rcases hu : s.reader with _ | u
    · refine iff_of_true (fun s' h => ?_) fun r hr => ?_
      · simp [LiveEdge.step, hu] at h
      · simp [LiveEdge.reading, hu] at hr
    · have hreading : s.reading .recv = some u.reader := by simp [LiveEdge.reading, hu]
      rw [readsWhole_iff (.inl rfl) hreading]
      by_cases hready : u.reader.ensureReady s.hub = true
      · exact hi.staysExact_take hreading (by simp [LiveEdge.step, hu, hready])
      · exact hi.staysExact_wait hu hready
  | wake =>
    rcases hreading : s.reading .wake with _ | r
    · refine iff_of_true (fun s' h => ?_) fun r hr => ?_
      · simp [LiveEdge.step, hreading] at h
      · rw [hreading] at hr
        cases hr
    · rw [readsWhole_iff (.inr rfl) hreading]
      exact hi.staysExact_take hreading (by simp [LiveEdge.step, hreading])

/-- A step that meets the condition keeps the invariant. -/
theorem Inv.step (hi : s.Inv) {l : LiveEdgeStep} (hmeets : s.ReadsWhole l)
    (h : s.step l = some s') :
    s'.Inv := by
  cases l with
  | publish f =>
    obtain ⟨hub, hp, rfl⟩ := Option.map_eq_some_iff.mp h
    exact hi.publish hmeets hp
  | reset =>
    rw [LiveEdge.step, Option.ite_none_right_eq_some] at h
    obtain ⟨hnone, h⟩ := h
    obtain rfl := Option.some.inj h
    refine ⟨RingInv.withCapacity _ _, hi.none, fun u hu => ?_⟩
    rw [show s.reader = some u from hu] at hnone
    cases hnone
  | join =>
    rw [LiveEdge.step, Option.ite_none_right_eq_some] at h
    obtain ⟨hnone, h⟩ := h
    obtain rfl := Option.some.inj h
    exact hi.join hnone
  | recv =>
    obtain ⟨u, hu, rfl⟩ := Option.map_eq_some_iff.mp h
    have hreading : s.reading .recv = some u.reader := by simp [LiveEdge.reading, hu]
    split
    · exact hi.take (hi.reading hreading) (hmeets _ hreading)
    · exact hi.wait hu
  | wake =>
    obtain ⟨r, hr, rfl⟩ := Option.map_eq_some_iff.mp h
    exact hi.take (hi.reading hr) (hmeets _ hr)

/-- Along every run the reader is delivered exactly what is published since it joined, each frame
once and in order, **exactly if** nothing is published to a ring that has had no frame, and each
batch is made of a range that is still stored. -/
theorem exact_iff (stream : Stream) (ls : List LiveEdgeStep) :
    Always LiveEdge.step StaysExact (LiveEdge.init stream) ls ↔
      Always LiveEdge.step ReadsWhole (LiveEdge.init stream) ls :=
  always_iff_of_inv (fun _ l hi => hi.staysExact_iff l) (fun _ _ _ hi hmeets h => hi.step hmeets h)
    (Inv.init stream)

/-- A new hub, a reader and a first frame: the cursor is **behind** it. -/
theorem not_staysExact_first_frame :
    ¬ Always LiveEdge.step StaysExact (LiveEdge.init (StreamHub.new "live").stream)
      [.join, .publish (testFrame true)] := by
  intro h
  obtain ⟨s, hs⟩ : ∃ s, exec LiveEdge.step (LiveEdge.init (StreamHub.new "live").stream) [.join] =
      some s :=
    ⟨_, rfl⟩
  have hstays := always_iff.mp h _ (.publish (testFrame true)) (List.prefix_refl _) s hs
  obtain rfl := Option.some.inj hs
  exact absurd ((hstays _ rfl).1 _ rfl) (by decide)

/-! ## Within the capacity -/

/-- A publish with a reader finds room, so that nothing is evicted. -/
def InRoom (s : LiveEdge) : LiveEdgeStep → Prop
  | .publish f => s.reader ≠ none → s.hub.ring.slots.length < s.hub.ring.capacityFrames ∧
      s.hub.ring.bytesUsed + f.data.length ≤ s.hub.ring.capacityBytes
  | _ => True

/-- With a reader, nothing is published to a ring that has had no frame. -/
def NotFirst (s : LiveEdge) : LiveEdgeStep → Prop
  | .publish _ => s.reader ≠ none → s.published ≠ []
  | _ => True

/-- All that was published since the reader joined is stored. -/
def KeepsAll (s : LiveEdge) : Prop :=
  s.reader ≠ none → ∀ n, s.joinedAt ≤ n → n < s.published.length → ∃ f ∈ s.hub.ring.slots, f.seq = n

/-- What was published since the reader joined makes its range stored. -/
theorem Inv.rangeStored (hi : s.Inv) (hk : s.KeepsAll) (hreader : s.reader ≠ .none)
    (hs : s.Stands r) :
    r.RangeStored s.hub := by
  by_cases hle : r.cursor ≤ s.hub.latestSeq
  · intro n hlo hhi
    obtain ⟨-, hend⟩ := DispatchReader.batchEnd_bounds hs.policy hle
    refine hk hreader n (hs.le.trans hlo) ?_
    have hpos : 0 < s.published.length := List.length_pos_iff.mpr (hs.published_ne_nil hi hle)
    have hwrite := hi.ring.writeSeq_eq
    rw [StreamHub.latestSeq, latestSeq] at hend
    omega
  · exact DispatchReader.rangeStored_of_lt hs.policy (Nat.lt_of_not_le hle)

/-- Where nothing is evicted the condition is that no first frame comes. -/
theorem Inv.readsWhole_iff_notFirst (hi : s.Inv) (hk : s.KeepsAll) (l : LiveEdgeStep) :
    s.ReadsWhole l ↔ s.NotFirst l := by
  have hstored : ∀ l r, s.reading l = some r → r.RangeStored s.hub := by
    intro l r hr
    refine hi.rangeStored hk (fun hnone => ?_) (hi.reading hr)
    cases l with
    | recv => simp [LiveEdge.reading, hnone] at hr
    | wake => simp [LiveEdge.reading, hnone] at hr
    | _ => cases hr
  cases l with
  | publish f => exact Iff.rfl
  | reset => exact iff_of_true (hstored .reset) trivial
  | join => exact iff_of_true (hstored .join) trivial
  | recv => exact iff_of_true (hstored .recv) trivial
  | wake => exact iff_of_true (hstored .wake) trivial

/-- A step in room keeps all. -/
theorem KeepsAll.step (hk : s.KeepsAll) (hi : s.Inv) {l : LiveEdgeStep} (hroom : s.InRoom l)
    (h : s.step l = some s') : s'.KeepsAll := by
  cases l with
  | publish f =>
    obtain ⟨hub, hp, rfl⟩ := Option.map_eq_some_iff.mp h
    obtain ⟨ring, hring, rfl⟩ := StreamHub.publish_eq_some.mp hp
    intro hreader n hlo hhi
    obtain ⟨hframes, hbytes⟩ := hroom hreader
    obtain rfl := Option.some.inj ((push_of_room hframes hbytes).symm.trans hring)
    change ∃ g ∈ s.hub.ring.slots ++ [StoredFrame.ofMediaFrame s.hub.ring.writeSeq f], g.seq = n
    rw [List.length_append, List.length_singleton] at hhi
    by_cases hold : n < s.published.length
    · obtain ⟨g, hg, hseq⟩ := hk hreader n hlo hold
      exact ⟨g, List.mem_append_left _ hg, hseq⟩
    · refine ⟨_, List.mem_append_right _ (List.mem_singleton_self _), ?_⟩
      rw [StoredFrame.ofMediaFrame_seq, hi.ring.writeSeq_eq]
      omega
  | reset =>
    rw [LiveEdge.step, Option.ite_none_right_eq_some] at h
    obtain ⟨hnone, h⟩ := h
    obtain rfl := Option.some.inj h
    exact fun hreader => absurd hnone hreader
  | join =>
    rw [LiveEdge.step, Option.ite_none_right_eq_some] at h
    obtain ⟨-, h⟩ := h
    obtain rfl := Option.some.inj h
    intro _ n hlo hhi
    change s.published.length ≤ n at hlo
    exact absurd hhi (Nat.not_lt.mpr hlo)
  | recv =>
    obtain ⟨u, hu, rfl⟩ := Option.map_eq_some_iff.mp h
    have hreader : s.reader ≠ none := by
      rw [hu]
      exact Option.some_ne_none u
    split
    · exact fun _ => hk hreader
    · exact fun _ => hk hreader
  | wake =>
    obtain ⟨r, hr, rfl⟩ := Option.map_eq_some_iff.mp h
    refine fun _ => hk fun hnone => ?_
    simp [LiveEdge.reading, hnone] at hr

/-- Along every run in which the publishes find room, the delivery is exact **exactly if** no reader
sees a ring's first frame come. -/
theorem exact_iff_in_room {stream : Stream} {ls : List LiveEdgeStep}
    (hroom : Always LiveEdge.step InRoom (LiveEdge.init stream) ls) :
    Always LiveEdge.step StaysExact (LiveEdge.init stream) ls ↔
      Always LiveEdge.step NotFirst (LiveEdge.init stream) ls := by
  refine always_iff_of_always (I := fun s => s.Inv ∧ s.KeepsAll) (fun s l hi _ => ?_)
    (fun s l s' hi hr hfirst h => ?_) ⟨Inv.init stream, fun hreader => absurd rfl hreader⟩ hroom
  · rw [hi.1.staysExact_iff, hi.1.readsWhole_iff_notFirst hi.2]
  · exact ⟨hi.1.step ((hi.1.readsWhole_iff_notFirst hi.2 l).mpr hfirst) h, hi.2.step hi.1 hr h⟩

end LiveEdge

end VcpMediaServer
