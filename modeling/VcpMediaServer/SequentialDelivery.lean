import VcpMediaServer.ReaderCursor
import Mathlib.Data.List.Sort

/-!
# Sequential delivery

One reader with a sequential policy, and the publishes on its hub. Between two
receives eviction may take out what the reader has not read yet. `recv_batch`
notices that where **everything** in its range is gone, and then flags a resync;
where a part of the range is left it delivers that part and flags nothing.

* `RingInv.stored_after_jump` — behind the jump to the latest key frame nothing
  is missing.
* `Delivery.Announced` — a batch is in order, and comes with the flag if a number
  was left out.
* `Delivery.RangeWhole` — the condition: eviction has taken all of the range that
  is read, or nothing.
* `delivery_announced` — under that condition every batch of every run is.
-/

namespace VcpMediaServer

open Lts

/-- The numbers of frames. -/
def seqsOf (frames : List StoredFrame) : List ℕ := frames.map StoredFrame.seq

/-- Each number is the one after the number before it. -/
def Gapless (l : List ℕ) : Prop := l.IsChain fun a b => b = a + 1

instance (l : List ℕ) : Decidable (Gapless l) :=
  inferInstanceAs (Decidable (l.IsChain fun a b => b = a + 1))

/-- The numbers from `lo` to `hi`. -/
def span (lo hi : ℕ) : List ℕ := List.range' lo (hi + 1 - lo)

theorem mem_span {lo hi n : ℕ} : n ∈ span lo hi ↔ lo ≤ n ∧ n ≤ hi := by
  rw [span, List.mem_range'_1]
  omega

theorem span_pairwise (lo hi : ℕ) : (span lo hi).Pairwise (· < ·) := List.pairwise_lt_range'

theorem gapless_span (lo hi : ℕ) : Gapless (span lo hi) := List.isChain_range' _ _ 1

/-- A span begins with its lower end. -/
theorem span_cons {lo hi : ℕ} (h : lo ≤ hi) : span lo hi = lo :: span (lo + 1) hi := by
  rw [span, span, show hi + 1 - lo = (hi + 1 - (lo + 1)) + 1 by omega, List.range'_succ]

/-- A span ends with its upper end. -/
theorem getLast?_span {lo hi : ℕ} (h : lo ≤ hi) : (span lo hi).getLast? = some hi := by
  rw [span, show hi + 1 - lo = (hi - lo) + 1 by omega, List.range'_concat, List.getLast?_concat]
  congr 1
  omega

/-- A span goes on from the number before it without a gap. -/
theorem gapless_cons_span {a hi : ℕ} (h : a < hi) : Gapless (a :: span (a + 1) hi) := by
  rw [← span_cons (Nat.le_of_lt h)]
  exact gapless_span a hi

/-- Spans with the same upper end have the same lower end, unless they are empty. -/
theorem span_left_injective {lo lo' hi : ℕ} (h : lo ≤ hi) (heq : span lo hi = span lo' hi) :
    lo = lo' := by
  have hlo : lo ∈ span lo' hi := by
    rw [← heq]
    exact mem_span.mpr ⟨le_rfl, h⟩
  have hle := (mem_span.mp hlo).1
  have hlo' : lo' ∈ span lo hi := by
    rw [heq]
    exact mem_span.mpr ⟨le_rfl, hle.trans h⟩
  exact le_antisymm (mem_span.mp hlo').1 hle

/-- Rising numbers that are exactly those of a span are the span. -/
theorem eq_span {l : List ℕ} {lo hi : ℕ} (hl : l.Pairwise (· < ·))
    (hmem : ∀ n, n ∈ l ↔ lo ≤ n ∧ n ≤ hi) : l = span lo hi :=
  hl.eq_of_mem_iff (span_pairwise lo hi) fun n => (hmem n).trans mem_span.symm

namespace RingInv

open FrameRing

variable {fs : List MediaFrame} {r : FrameRing}

/-- A range is read in the order of its numbers. -/
theorem framesFrom_pairwise (h : RingInv fs r) (a b : ℕ) :
    (seqsOf (r.framesFrom a b)).Pairwise (· < ·) := by
  rw [seqsOf, List.pairwise_map]
  exact ((stamped_pairwise fs).sublist h.slots_sublist).sublist List.filter_sublist

/-- The numbers of a range all of whose numbers are stored. -/
theorem seqsOf_framesFrom (h : RingInv fs r) {a b : ℕ}
    (hall : ∀ n, a ≤ n → n ≤ b → ∃ f ∈ r.slots, f.seq = n) :
    seqsOf (r.framesFrom a b) = span a b := by
  refine eq_span (h.framesFrom_pairwise a b) fun n => ?_
  rw [seqsOf, List.mem_map]
  constructor
  · rintro ⟨f, hf, rfl⟩
    exact (mem_framesFrom.mp hf).2
  · rintro ⟨ha, hb⟩
    obtain ⟨f, hf, rfl⟩ := hall n ha hb
    exact ⟨f, mem_framesFrom.mpr ⟨hf, ha, hb⟩, rfl⟩

/-- From the place the gap branch jumps to, **every** number up to the live edge
is stored. -/
theorem stored_after_jump (h : RingInv fs r) {oldest : ℕ} (hold : r.oldestSeq = some oldest)
    {n : ℕ} (hn : max (r.snap .latestIdr) oldest ≤ n) (hlatest : n ≤ r.latestSeq) :
    ∃ f ∈ r.slots, f.seq = n := by
  obtain ⟨pre, t, hslots, hkt, -, hpre, hnil, -⟩ := h.tail
  -- it is enough that the jump is not before the whole part of the slots
  have hstored : t ≤ n → ∃ f ∈ r.slots, f.seq = n := by
    intro htn
    obtain ⟨g, hg, -⟩ := mem_of_oldestSeq hold
    have hlen := h.latestSeq_succ hg
    rw [h.writeSeq_eq] at hlen
    have hlt : n < (stamped fs).length := by
      rw [stamped_length]
      omega
    refine ⟨(stamped fs)[n], ?_, seq_of_stamped_getElem? (List.getElem?_eq_getElem hlt)⟩
    rw [hslots]
    refine List.mem_append_right _ (mem_stamped_drop.mpr ⟨List.getElem_mem hlt, ?_⟩)
    rwa [seq_of_stamped_getElem? (List.getElem?_eq_getElem hlt)]
  rcases pre with _ | ⟨f, pre⟩
  · -- the whole part is all there is, and it begins with the oldest frame
    apply hstored
    obtain ⟨g, hg, rfl⟩ := mem_of_oldestSeq hold
    rw [hslots] at hg
    exact ((mem_stamped_drop.mp hg).2.trans (Nat.le_max_right _ _)).trans hn
  · -- older frames are left, so the whole part begins with the newest key frame
    apply hstored
    have ht : t = newestKey fs := by
      by_contra hne
      cases hnil (by omega)
    have hkey : r.snap .latestIdr = newestKey fs := by
      have hlt := hpre f List.mem_cons_self
      rcases hk : (keySeqs fs).getLast? with _ | k
      · rw [newestKey, hk] at hlt
        cases hlt
      · rw [snap, h.latestIdrSeq_eq, newestKey, hk]
        rfl
    rw [ht, ← hkey]
    exact (Nat.le_max_left _ _).trans hn

/-- The jump does not go beyond the live edge. -/
theorem jump_le_latestSeq (h : RingInv fs r) {oldest : ℕ} (hold : r.oldestSeq = some oldest) :
    max (r.snap .latestIdr) oldest ≤ r.latestSeq := by
  obtain ⟨f, hf, rfl⟩ := mem_of_oldestSeq hold
  have hseq := h.latestSeq_succ hf
  have hlt := h.seq_lt_writeSeq hf
  have hsnap := h.snap_latestIdr_le
  omega

end RingInv

namespace DispatchReader

variable {fs : List MediaFrame} {h : StreamHub} {r : DispatchReader}

/-- A reader with a sequential policy only reads ranges. -/
theorem recvBatch_of_isSequential (hr : r.policy.isSequential = true) :
    r.recvBatch h =
      if h.latestSeq < r.cursor then ([], r)
      else
        let frames := h.framesFrom r.cursor (r.batchEnd h)
        if frames = [] then r.jumpToIdr h
        else (frames, { r with cursor := r.batchEnd h + 1 }) := by
  rcases hp : r.policy with _ | _ | _ | _
  · rw [hp] at hr
    cases hr
  · simp [recvBatch, recvRange, snapOnLag, deliver, hp]
  · rw [hp] at hr
    cases hr
  · simp [recvBatch, recvRange, snapOnLag, deliver, hp]

/-- The gap branch leaves the reader where it is, or **flags** the resync and
delivers a span. -/
theorem jumpToIdr_cases (hinv : RingInv fs h.ring) :
    r.jumpToIdr h = ([], r) ∨
      ∃ lo hi, lo ≤ hi ∧ r.cursor < lo ∧ seqsOf (r.jumpToIdr h).1 = span lo hi ∧
        (r.jumpToIdr h).2 = { r with pendingMuxerResync := true, cursor := hi + 1 } := by
  rw [jumpToIdr]
  split
  · exact .inl rfl
  · next oldest hold =>
    split
    · next hlt =>
      right
      let lo := max (h.snap .latestIdr) oldest
      let hi := min h.latestSeq (lo + (MAX_SEQUENTIAL_BATCH - 1))
      have hle : lo ≤ h.latestSeq := hinv.jump_le_latestSeq hold
      have hlohi : lo ≤ hi := by
        simp only [hi, MAX_SEQUENTIAL_BATCH]
        omega
      have hspan : seqsOf (h.framesFrom lo hi) = span lo hi :=
        hinv.seqsOf_framesFrom fun n hn hn' =>
          hinv.stored_after_jump hold hn (hn'.trans (Nat.min_le_left _ _))
      have hne : h.framesFrom lo hi ≠ [] := by
        intro hnil
        rw [hnil, span_cons hlohi] at hspan
        cases hspan
      refine ⟨lo, hi, hlohi, lt_of_lt_of_le hlt (Nat.le_max_right _ _), ?_⟩
      change seqsOf (if lo ≤ h.latestSeq then _ else _ : List StoredFrame × DispatchReader).1 = _ ∧
        (if lo ≤ h.latestSeq then _ else _ : List StoredFrame × DispatchReader).2 = _
      rw [if_pos hle]
      change seqsOf (if h.framesFrom lo hi = [] then _ else _ :
        List StoredFrame × DispatchReader).1 = _ ∧
        (if h.framesFrom lo hi = [] then _ else _ : List StoredFrame × DispatchReader).2 = _
      rw [if_neg hne]
      exact ⟨hspan, rfl⟩
    · exact .inl rfl

/-- The range that the next batch takes in is **whole from `lo` on**, and nothing
of it is stored before. -/
def WholeFrom (r : DispatchReader) (h : StreamHub) (lo : ℕ) : Prop :=
  r.cursor ≤ lo ∧
    seqsOf (h.framesFrom r.cursor (r.batchEnd h)) = span lo (r.batchEnd h)

/-- What a sequential reader delivers from a range that is whole from some number
on, or gone. -/
theorem recvBatch_cases (hinv : RingInv fs h.ring) (hr : r.policy.isSequential = true)
    (hwhole : h.framesFrom r.cursor (r.batchEnd h) = [] ∨ ∃ lo, r.WholeFrom h lo) :
    r.recvBatch h = ([], r) ∨
      ∃ lo hi, lo ≤ hi ∧ r.cursor ≤ lo ∧ seqsOf (r.recvBatch h).1 = span lo hi ∧
        ((hi = r.batchEnd h ∧ r.WholeFrom h lo ∧
            (r.recvBatch h).2 = { r with cursor := hi + 1 }) ∨
          (r.recvBatch h).2 = { r with pendingMuxerResync := true, cursor := hi + 1 }) := by
  rw [recvBatch_of_isSequential hr]
  split
  · exact .inl rfl
  · dsimp only
    split
    · obtain hnone | ⟨lo, hi, hle, hlt, hseqs, hreader⟩ := jumpToIdr_cases (r := r) hinv
      · exact .inl hnone
      · exact .inr ⟨lo, hi, hle, Nat.le_of_lt hlt, hseqs, .inr hreader⟩
    · next hne =>
      obtain ⟨lo, hlo⟩ := hwhole.resolve_left hne
      refine .inr ⟨lo, r.batchEnd h, ?_, hlo.1, hlo.2, .inl ⟨rfl, hlo, rfl⟩⟩
      -- a span of a frame is not empty
      obtain ⟨f, hf⟩ := List.exists_mem_of_ne_nil _ hne
      have hmem : f.seq ∈ span lo (r.batchEnd h) := by
        rw [← hlo.2]
        exact List.mem_map_of_mem hf
      have hbounds := mem_span.mp hmem
      omega

end DispatchReader

/-! ## Runs -/

/-- A hub, one sequential reader of it, and what that has delivered. -/
structure Delivery where
  /-- The hub. -/
  hub : StreamHub
  /-- The reader, once it has subscribed. -/
  reader : Option Subscriber
  /-- The numbers delivered so far. -/
  delivered : List ℕ
  deriving DecidableEq, Repr

/-- A publish, the creation of the reader, or a step of its receiving. -/
inductive DeliveryStep where
  | publish (frame : MediaFrame)
  | subscribe (policy : DispatchPolicy)
  /-- `recv_batch` is called. -/
  | recv
  /-- A waiting `recv_batch` finds the watch channel changed. -/
  | wake
  deriving DecidableEq, Repr

namespace Delivery

/-- A new hub, without a reader. -/
def init (stream : Stream) : Delivery := ⟨StreamHub.withStream stream, none, []⟩

/-- The batch that the step hands to the consumer, and the reader as the consumer
then finds it; `none` if the step hands over none. -/
def received (s : Delivery) : DeliveryStep → Option (List StoredFrame × DispatchReader)
  | .recv => s.reader.bind fun u =>
    if u.reader.ensureReady s.hub then some (u.reader.recvBatch s.hub) else none
  | .wake => s.reader.bind fun u =>
    if u.waiting && u.reader.wake != s.hub.seqTx then
      some ((u.reader.seen s.hub.seqTx).recvBatch s.hub)
    else none
  | _ => none

/-- The consumer takes a batch, and the resync flag with it. -/
def take (s : Delivery) (batch : List StoredFrame) (r : DispatchReader) : Delivery :=
  { s with
    reader := some (Subscriber.at' r.takeMuxerResync.2)
    delivered := s.delivered ++ seqsOf batch }

/-- One step. -/
def step (s : Delivery) : DeliveryStep → Option Delivery
  | .publish f => (s.hub.publish f).map fun hub => { s with hub }
  | .subscribe policy =>
    if s.reader.isNone && policy.isSequential then
      some { s with reader := some (Subscriber.at' (DispatchReader.new s.hub policy)) }
    else none
  | .recv => s.reader.map fun u =>
    match s.received .recv with
    | some (batch, r) => s.take batch r
    | none => { s with reader := some ⟨u.reader, true⟩ }
  | .wake => (s.received .wake).map fun p => s.take p.1 p.2

/-- The batch of the step keeps the delivered numbers rising, and it comes with
the resync flag if a number was left out before one of its frames. -/
def Announced (s : Delivery) (l : DeliveryStep) : Prop :=
  ∀ batch r, s.received l = some (batch, r) →
    (s.delivered ++ seqsOf batch).Pairwise (· < ·) ∧
      (¬ Gapless (s.delivered.getLast?.toList ++ seqsOf batch) → r.takeMuxerResync.1 = true)

/-- The condition: of the range that a receive reads, eviction has left nothing,
or all from the cursor on. Before the first delivery it is enough that what is
left goes on to the end of the range. -/
def RangeWhole (s : Delivery) : DeliveryStep → Prop
  | .recv => ∀ u, s.reader = some u →
    s.hub.framesFrom u.reader.cursor (u.reader.batchEnd s.hub) = [] ∨
      ∃ lo, u.reader.WholeFrom s.hub lo ∧ (s.delivered ≠ [] → lo = u.reader.cursor)
  | .wake => ∀ u, s.reader = some u →
    s.hub.framesFrom u.reader.cursor (u.reader.batchEnd s.hub) = [] ∨
      ∃ lo, u.reader.WholeFrom s.hub lo ∧ (s.delivered ≠ [] → lo = u.reader.cursor)
  | _ => True

/-- What holds of the reader between two steps. -/
structure Inv (s : Delivery) : Prop where
  /-- The ring is one that pushes lead to. -/
  ring : ∃ fs, RingInv fs s.hub.ring
  /-- The reader is sequential and has no flag up. -/
  reader : ∀ u, s.reader = some u →
    u.reader.policy.isSequential = true ∧ u.reader.pendingMuxerResync = false
  /-- The delivered numbers rise. -/
  rising : s.delivered.Pairwise (· < ·)
  /-- The cursor is behind the last of them. -/
  last : ∀ u a, s.reader = some u → s.delivered.getLast? = some a → u.reader.cursor = a + 1
  /-- Nothing is delivered to nobody. -/
  none : s.reader = none → s.delivered = []

theorem Inv.init (stream : Stream) : (Delivery.init stream).Inv where
  ring := ⟨[], RingInv.withCapacity _ _⟩
  reader := fun u hu => by cases hu
  rising := List.Pairwise.nil
  last := fun u a hu => by cases hu
  none := fun _ => rfl

/-- Appending a span that starts beyond the last delivered number. -/
theorem Inv.rising_append {s : Delivery} (hi : s.Inv) {u : Subscriber} (hu : s.reader = some u)
    {lo hi' : ℕ} (hlo : u.reader.cursor ≤ lo) :
    (s.delivered ++ span lo hi').Pairwise (· < ·) := by
  rw [List.pairwise_append]
  refine ⟨hi.rising, span_pairwise lo hi', fun a ha b hb => ?_⟩
  obtain ⟨l, z, hz⟩ := (List.eq_nil_or_concat' s.delivered).resolve_left (List.ne_nil_of_mem ha)
  have hcur := hi.last u z hu (by rw [hz, List.getLast?_concat])
  have hb' := (mem_span.mp hb).1
  have hle : a ≤ z := by
    have hp := hi.rising
    rw [hz] at ha hp
    rcases List.mem_append.mp ha with ha | ha
    · exact Nat.le_of_lt ((List.pairwise_append.mp hp).2.2 a ha z (List.mem_singleton_self z))
    · rw [List.mem_singleton.mp ha]
  omega

/-- The batch of a receiving step comes from the reader as it is, or with its
watch version moved up. -/
theorem received_eq_some {s : Delivery} {l : DeliveryStep} {batch : List StoredFrame}
    {r : DispatchReader} (h : s.received l = some (batch, r)) :
    ∃ u w, s.reader = some u ∧ (l = .recv ∨ l = .wake) ∧
      (u.reader.seen w).recvBatch s.hub = (batch, r) := by
  cases l with
  | publish f => cases h
  | subscribe policy => cases h
  | recv =>
    obtain ⟨u, hu, h⟩ := Option.bind_eq_some_iff.mp h
    rw [Option.ite_none_right_eq_some] at h
    exact ⟨u, u.reader.wake, hu, .inl rfl, Option.some.inj h.2⟩
  | wake =>
    obtain ⟨u, hu, h⟩ := Option.bind_eq_some_iff.mp h
    rw [Option.ite_none_right_eq_some] at h
    exact ⟨u, s.hub.seqTx, hu, .inr rfl, Option.some.inj h.2⟩

/-- Taking an empty batch from a reader that stays where it is. -/
theorem Inv.take_nil {s : Delivery} (hi : s.Inv) {u : Subscriber} (hu : s.reader = some u)
    (w : ℕ) : (s.take [] (u.reader.seen w)).Inv := by
  refine ⟨hi.ring, fun v hv => ?_, by simpa [take, seqsOf] using hi.rising, fun v a hv ha => ?_,
    fun hnone => by cases hnone⟩
  · obtain rfl := Option.some.inj hv
    exact ⟨(hi.reader u hu).1, rfl⟩
  · obtain rfl := Option.some.inj hv
    exact hi.last u a hu (by simpa [take, seqsOf] using ha)

/-- Taking a span from a reader whose cursor is put **behind** it. -/
theorem Inv.take_span {s : Delivery} (hi : s.Inv) {u : Subscriber} (hu : s.reader = some u)
    {batch : List StoredFrame} {lo hi' : ℕ} (hle : lo ≤ hi') (hcur : u.reader.cursor ≤ lo)
    (hseqs : seqsOf batch = span lo hi') {r : DispatchReader}
    (hpolicy : r.policy = u.reader.policy) (hcursor : r.cursor = hi' + 1) :
    (s.take batch r).Inv := by
  refine ⟨hi.ring, fun v hv => ?_, ?_, fun v a hv ha => ?_, fun hnone => by cases hnone⟩
  · obtain rfl := Option.some.inj hv
    have hseq := (hi.reader u hu).1
    rw [← hpolicy] at hseq
    exact ⟨hseq, rfl⟩
  · change (s.delivered ++ seqsOf batch).Pairwise (· < ·)
    rw [hseqs]
    exact hi.rising_append hu hcur
  · obtain rfl := Option.some.inj hv
    change (s.delivered ++ seqsOf batch).getLast? = some a at ha
    rw [hseqs, List.getLast?_append, getLast?_span hle] at ha
    obtain rfl := Option.some.inj ha
    exact hcursor

/-- The range of the next batch, read whole, **goes on** where the delivery stopped. -/
theorem Inv.gapless_range {s : Delivery} (hi : s.Inv) {u : Subscriber} (hu : s.reader = some u)
    {lo : ℕ} (hle : lo ≤ u.reader.batchEnd s.hub) (hfrom : u.reader.WholeFrom s.hub lo)
    (hwhole : s.hub.framesFrom u.reader.cursor (u.reader.batchEnd s.hub) = [] ∨
      ∃ lo, u.reader.WholeFrom s.hub lo ∧ (s.delivered ≠ [] → lo = u.reader.cursor)) :
    Gapless (s.delivered.getLast?.toList ++ span lo (u.reader.batchEnd s.hub)) := by
  rcases hlast : s.delivered.getLast? with _ | a
  · exact gapless_span lo _
  · have hne : s.delivered ≠ [] := by
      rintro hnil
      rw [hnil] at hlast
      cases hlast
    have hlo : lo = u.reader.cursor := by
      rcases hwhole with hnil | ⟨lo', hlo', hcur'⟩
      · have hspan := hfrom.2
        rw [hnil, span_cons hle] at hspan
        cases hspan
      · rw [← hcur' hne]
        exact span_left_injective hle (hfrom.2.symm.trans hlo'.2)
    have hcur := hi.last u a hu hlast
    rw [hlo, hcur] at hle ⊢
    exact gapless_cons_span hle

/-- A receiving step under the condition: its batch is **announced**, and taking
it keeps the invariant. -/
theorem Inv.received {s : Delivery} (hi : s.Inv) {l : DeliveryStep} (hg : s.RangeWhole l)
    {batch : List StoredFrame} {r : DispatchReader} (h : s.received l = some (batch, r)) :
    ((s.delivered ++ seqsOf batch).Pairwise (· < ·) ∧
      (¬ Gapless (s.delivered.getLast?.toList ++ seqsOf batch) → r.takeMuxerResync.1 = true)) ∧
      (s.take batch r).Inv := by
  obtain ⟨fs, hfs⟩ := hi.ring
  obtain ⟨u, w, hu, hl, hrecv⟩ := received_eq_some h
  have hwhole : s.hub.framesFrom u.reader.cursor (u.reader.batchEnd s.hub) = [] ∨
      ∃ lo, u.reader.WholeFrom s.hub lo ∧ (s.delivered ≠ [] → lo = u.reader.cursor) := by
    rcases hl with rfl | rfl
    · exact hg u hu
    · exact hg u hu
  -- the watch version plays no part in what is read
  have hcases := DispatchReader.recvBatch_cases (r := u.reader.seen w) hfs (hi.reader u hu).1
    (hwhole.imp_right fun ⟨lo, hlo, _⟩ => ⟨lo, hlo⟩)
  rw [hrecv] at hcases
  obtain heq | ⟨lo, hi', hle, hcur, hseqs, hreader⟩ := hcases
  · -- nothing is delivered, and the reader stays where it is
    obtain ⟨rfl, rfl⟩ := Prod.mk.inj heq
    refine ⟨⟨by simpa [seqsOf] using hi.rising, fun hgap => absurd ?_ hgap⟩, hi.take_nil hu w⟩
    rcases s.delivered.getLast? with _ | a
    · exact List.IsChain.nil
    · exact List.IsChain.singleton a
  · -- a span is delivered, and the cursor is put behind it
    change seqsOf batch = span lo hi' at hseqs
    rw [hseqs]
    rcases hreader with ⟨rfl, hfrom, hr⟩ | hr
    · change r = _ at hr
      subst hr
      have hgapless := hi.gapless_range hu hle hfrom hwhole
      exact ⟨⟨hi.rising_append hu hcur, fun hgap => absurd hgapless hgap⟩,
        hi.take_span hu hle hcur hseqs rfl rfl⟩
    · change r = _ at hr
      subst hr
      exact ⟨⟨hi.rising_append hu hcur, fun _ => rfl⟩, hi.take_span hu hle hcur hseqs rfl rfl⟩

/-- **Every step** that meets the condition keeps the invariant. -/
theorem Inv.step {s s' : Delivery} {l : DeliveryStep} (hi : s.Inv) (hg : s.RangeWhole l)
    (h : s.step l = some s') : s'.Inv := by
  cases l with
  | publish f =>
    obtain ⟨hub, hpub, rfl⟩ := Option.map_eq_some_iff.mp h
    obtain ⟨ring, hring, rfl⟩ := StreamHub.publish_eq_some.mp hpub
    obtain ⟨fs, hfs⟩ := hi.ring
    exact ⟨⟨fs ++ [f], hfs.push hring⟩, hi.reader, hi.rising, hi.last, hi.none⟩
  | subscribe policy =>
    rw [Delivery.step, Option.ite_none_right_eq_some, Bool.and_eq_true] at h
    obtain ⟨⟨hnone, hpol⟩, h⟩ := h
    obtain rfl := Option.some.inj h
    have hdel := hi.none (Option.isNone_iff_eq_none.mp hnone)
    refine ⟨hi.ring, fun u hu => ?_, hi.rising, fun u a hu ha => ?_, fun hn => by cases hn⟩
    · obtain rfl := Option.some.inj hu
      exact ⟨hpol, rfl⟩
    · change s.delivered.getLast? = some a at ha
      rw [hdel] at ha
      cases ha
  | recv =>
    obtain ⟨u, hu, rfl⟩ := Option.map_eq_some_iff.mp h
    rcases hrec : s.received .recv with _ | ⟨batch, r⟩
    · -- the reader is left waiting
      refine ⟨hi.ring, fun v hv => ?_, hi.rising, fun v a hv ha => ?_, fun hn => by cases hn⟩
      · obtain rfl := Option.some.inj hv
        exact hi.reader u hu
      · obtain rfl := Option.some.inj hv
        exact hi.last u a hu ha
    · exact (hi.received hg hrec).2
  | wake =>
    obtain ⟨⟨batch, r⟩, hrec, rfl⟩ := Option.map_eq_some_iff.mp h
    exact (hi.received hg hrec).2

/-! ## A GOP that is evicted -/

/-- A publish on a ring that takes the frame. -/
theorem step_publish {s : Delivery} {f : MediaFrame} {ring : FrameRing}
    (h : s.hub.ring.push f = some ring) :
    s.step (.publish f) =
      some { s with hub := { s.hub with ring, seqTx := s.hub.seqTx + 1 } } := by
  simp [Delivery.step, StreamHub.publish, h]

/-- An audio frame of one byte. -/
def audioFrame : MediaFrame := MediaFrame.new "live" 1 0 [0] false .aac

/-- Publishes are **pushes** on the ring, as long as these return. -/
theorem exec_publish {s : Delivery} {frames : List MediaFrame} {ring : FrameRing}
    (h : exec FrameRing.push s.hub.ring frames = some ring) :
    exec Delivery.step s (frames.map .publish) =
      some { s with hub := { s.hub with ring, seqTx := s.hub.seqTx + frames.length } } := by
  induction frames generalizing s with
  | nil =>
    obtain rfl := Option.some.inj h
    rfl
  | cons f frames ih =>
    obtain ⟨next, hnext, hrest⟩ := exec_cons_eq_some.mp h
    rw [List.map_cons, exec_cons_of_step (step_publish hnext), ih hrest, List.length_cons,
      Nat.add_assoc, Nat.add_comm 1]

/-- A ring with a number of audio frames behind what it had. -/
structure AudioBehind (r : FrameRing) (n : ℕ) (r' : FrameRing) : Prop where
  capacityFrames : r'.capacityFrames = r.capacityFrames
  capacityBytes : r'.capacityBytes = r.capacityBytes
  slots : ∃ new, r'.slots = r.slots ++ new ∧ new.length = n
  gopStarts : r'.gopStarts = r.gopStarts
  writeSeq : r'.writeSeq = r.writeSeq + n
  bytesUsed : r'.bytesUsed = r.bytesUsed + n

/-- Audio that the ring has room for is appended. -/
theorem exec_push_audio {r : FrameRing} {n : ℕ} (hframes : r.slots.length + n ≤ r.capacityFrames)
    (hbytes : r.bytesUsed + n ≤ r.capacityBytes) :
    ∃ r', exec FrameRing.push r (List.replicate n audioFrame) = some r' ∧ AudioBehind r n r' := by
  induction n generalizing r with
  | zero => exact ⟨r, rfl, rfl, rfl, ⟨[], (List.append_nil _).symm, rfl⟩, rfl, rfl, rfl⟩
  | succ n ih =>
    have hlen : (r.append audioFrame).slots.length = r.slots.length + 1 := List.length_append
    have hpush : r.push audioFrame = some (r.append audioFrame) :=
      push_of_room (by omega) (show r.bytesUsed + 1 ≤ r.capacityBytes by omega)
    obtain ⟨r', hexec, hr'⟩ := @ih (r.append audioFrame)
      (show (r.append audioFrame).slots.length + n ≤ r.capacityFrames by omega)
      (show r.bytesUsed + 1 + n ≤ r.capacityBytes by omega)
    obtain ⟨new, hslots, hnew⟩ := hr'.slots
    refine ⟨r', ?_, hr'.capacityFrames, hr'.capacityBytes, ?_, hr'.gopStarts, ?_, ?_⟩
    · rw [List.replicate_succ, exec_cons_of_step hpush, hexec]
    · refine ⟨StoredFrame.ofMediaFrame r.writeSeq audioFrame :: new,
        ?_, by rw [List.length_cons, hnew]⟩
      rw [hslots, List.append_cons]
      rfl
    · rw [hr'.writeSeq, Nat.add_comm n, ← Nat.add_assoc]
      rfl
    · rw [hr'.bytesUsed, Nat.add_comm n, ← Nat.add_assoc]
      rfl

/-- The key frame in front, which is read at once. -/
def readFirst : List DeliveryStep :=
  [.subscribe .sequentialFromIdr, .publish (testFrame true), .recv]

theorem exec_readFirst :
    ∃ s u, exec Delivery.step (Delivery.init (StreamHub.new "live").stream) readFirst = some s ∧
      s.hub.ring = FrameRing.new.append (testFrame true) ∧ s.reader = some u ∧ u.reader.cursor = 1 ∧
      u.reader.policy = .sequentialFromIdr := ⟨_, _, rfl, rfl, rfl, rfl, rfl⟩

/-- Audio of that GOP, and a GOP that pushes it out with its last frame. -/
def evictingFrames : List MediaFrame :=
  List.replicate 100 audioFrame ++ testFrame true :: (List.replicate 410 audioFrame ++ [audioFrame])

/-- A frame of audio too many pushes the first of two GOPs out, and **all** of it. -/
theorem exists_push_evicts {r : FrameRing} {stop : ℕ} {g : StoredFrame} {rest : List StoredFrame}
    (hgops : r.gopStarts = [g.seq, stop]) (hslots : r.slots = g :: rest) (hstop : g.seq < stop)
    (hfull : r.slots.length = r.capacityFrames) (hbytes : r.bytesUsed < r.capacityBytes) :
    ∃ r', r.push audioFrame = some r' ∧ ∀ f ∈ r'.slots, ¬(g.seq ≤ f.seq ∧ f.seq < stop) := by
  let a := r.append audioFrame
  let evicted : StoredFrame → Bool := fun f => decide (g.seq ≤ f.seq) && decide (f.seq < stop)
  have hstarts : a.gopStarts = [g.seq, stop] := hgops
  have hlen : a.slots.length = r.capacityFrames + 1 := by
    rw [← hfull]
    exact List.length_append
  have hslots' : a.evictOldestGop.slots = a.slots.filter fun f => !evicted f := by
    rw [FrameRing.evictOldestGop, hstarts]
    rfl
  have hless : a.evictOldestGop.slots.length < a.slots.length := by
    rw [hslots', List.length_filter_lt_length_iff_exists]
    refine ⟨g, List.mem_append_left _ (hslots ▸ List.mem_cons_self), ?_⟩
    simp [evicted, hstop]
  have hbytes' : a.evictOldestGop.bytesUsed ≤ r.capacityBytes := by
    rw [FrameRing.evictOldestGop, hstarts]
    change FrameRing.subtractBytes (r.bytesUsed + 1) _ ≤ _
    rw [subtractBytes_eq]
    omega
  have hneeds : a.needsEvict = true := by
    rw [FrameRing.needsEvict, Bool.or_eq_true, decide_eq_true_iff]
    exact .inl (show r.capacityFrames < a.slots.length by omega)
  have hroom : a.evictOldestGop.needsEvict = false := by
    have hcaps : a.evictOldestGop.capacityFrames = r.capacityFrames ∧
        a.evictOldestGop.capacityBytes = r.capacityBytes := by
      rw [FrameRing.evictOldestGop, hstarts]
      exact ⟨rfl, rfl⟩
    rw [FrameRing.needsEvict, Bool.or_eq_false_iff, decide_eq_false_iff_not,
      decide_eq_false_iff_not, hcaps.1, hcaps.2]
    exact ⟨by omega, by omega⟩
  refine ⟨_, push_of_evictOldestGop hneeds (hstarts ▸ Nat.one_lt_succ_succ 0) hroom, ?_⟩
  intro f hf
  rw [hslots'] at hf
  have hkept := (List.mem_filter.mp hf).2
  simp only [evicted, Bool.not_eq_true', Bool.and_eq_false_iff, decide_eq_false_iff_not] at hkept
  rintro ⟨hle, hlt⟩
  exact hkept.elim (absurd hle) (absurd hlt)

/-- Of the first GOP nothing is left. -/
theorem exec_push_evictingFrames :
    ∃ ring, exec FrameRing.push (FrameRing.new.append (testFrame true)) evictingFrames = some ring ∧
      ∀ f ∈ ring.slots, 101 ≤ f.seq := by
  -- the audio of the first GOP
  obtain ⟨ring₁, hexec₁, h₁⟩ := exec_push_audio (r := FrameRing.new.append (testFrame true))
    (n := 100) (by decide) (by decide)
  obtain ⟨first, hslots₁, hfirst⟩ := h₁.slots
  have hlen₁ : ring₁.slots.length = 101 := by
    rw [hslots₁, List.length_append, hfirst]
    rfl
  have hcap₁ : ring₁.capacityFrames = 512 := h₁.capacityFrames
  have hcapBytes₁ : ring₁.capacityBytes = 33554432 := h₁.capacityBytes
  have hbytes₁ : ring₁.bytesUsed = 105 := h₁.bytesUsed
  -- the second GOP, up to the last frame that there is room for
  let ring₂ := ring₁.append (testFrame true)
  have hkey : ring₁.push (testFrame true) = some ring₂ :=
    push_of_room (by omega) (show ring₁.bytesUsed + 5 ≤ ring₁.capacityBytes by omega)
  have hlen₂ : ring₂.slots.length = ring₁.slots.length + 1 := List.length_append
  obtain ⟨ring₃, hexec₃, h₃⟩ := exec_push_audio (r := ring₂) (n := 410)
    (show ring₂.slots.length + 410 ≤ ring₁.capacityFrames by omega)
    (show ring₁.bytesUsed + 5 + 410 ≤ ring₁.capacityBytes by omega)
  obtain ⟨second, hslots₃, hsecond⟩ := h₃.slots
  have hlen₃ : ring₃.slots.length = ring₂.slots.length + 410 := by
    rw [hslots₃, List.length_append, hsecond]
  have hcap₃ : ring₃.capacityFrames = ring₁.capacityFrames := h₃.capacityFrames
  have hcapBytes₃ : ring₃.capacityBytes = ring₁.capacityBytes := h₃.capacityBytes
  have hbytes₃ : ring₃.bytesUsed = ring₁.bytesUsed + 5 + 410 := h₃.bytesUsed
  have hgops : ring₃.gopStarts = [0, 101] := by
    rw [h₃.gopStarts, show ring₂.gopStarts = ring₁.gopStarts ++ [ring₁.writeSeq] from rfl,
      h₁.gopStarts, h₁.writeSeq]
    rfl
  have hslots : ring₃.slots = StoredFrame.ofMediaFrame 0 (testFrame true) ::
      (first ++ [StoredFrame.ofMediaFrame ring₁.writeSeq (testFrame true)] ++ second) := by
    rw [hslots₃, show ring₂.slots = ring₁.slots ++ _ from rfl, hslots₁]
    rfl
  -- the frame that is too many
  obtain ⟨ring₄, hpush₄, hevicted⟩ :=
    exists_push_evicts hgops hslots (by decide) (by omega) (by omega)
  refine ⟨ring₄, ?_, fun f hf => Nat.le_of_not_lt fun hlt => hevicted f hf ⟨Nat.zero_le _, hlt⟩⟩
  rw [evictingFrames, exec_append, hexec₁, Option.bind_some, exec_cons_of_step hkey, exec_append,
    hexec₃, Option.bind_some, exec_cons_of_step hpush₄]
  rfl

/-- In every run in which eviction has taken all of the range of a receive or
nothing of it, every batch is in order and **announces** what was left out. -/
theorem delivery_announced (stream : Stream) (ls : List DeliveryStep)
    (h : Always Delivery.step RangeWhole (Delivery.init stream) ls) :
    Always Delivery.step Announced (Delivery.init stream) ls :=
  always_of_inv (fun _ _ hi hg _ _ hrec => (hi.received hg hrec).1)
    (fun _ _ _ hi hg hs => hi.step hg hs) (Inv.init stream) h

/-- The key frame in front is read at once, and then **all** of the range is evicted. -/
theorem delivery_announced_evicted :
    Always Delivery.step Announced (Delivery.init (StreamHub.new "live").stream)
      (readFirst ++ evictingFrames.map .publish ++ [.recv]) := by
  apply delivery_announced _ _
  rw [List.append_assoc]
  refine always_append.mpr
    ⟨?_, fun s hs => always_append.mpr ⟨?_, fun s' hs' => ⟨?_, fun _ _ => trivial⟩⟩⟩
  · -- nothing is evicted yet
    apply always_cons_of_step trivial rfl
    apply always_cons_of_step trivial rfl
    refine always_cons_of_step (fun u hu => ?_) rfl trivial
    obtain rfl := Option.some.inj hu
    exact .inr ⟨0, ⟨by decide, by decide⟩, by decide⟩
  · apply always_of_forall
    intro l hl s
    obtain ⟨f, -, rfl⟩ := List.mem_map.mp hl
    trivial
  · -- the numbers from 1 to 96 are gone
    obtain ⟨ring, hpush, hevicted⟩ := exec_push_evictingFrames
    obtain ⟨first, u, hfirst, hring, hreader, hcursor, hpolicy⟩ := exec_readFirst
    obtain rfl : first = s := Option.some.inj (hfirst.symm.trans hs)
    rw [← hring] at hpush
    obtain rfl := Option.some.inj ((exec_publish hpush).symm.trans hs')
    intro v hv
    obtain rfl : u = v := Option.some.inj (hreader.symm.trans hv)
    refine .inl (List.filter_eq_nil_iff.mpr fun f hf => ?_)
    have hseq := hevicted f hf
    have hend : ∀ hub, u.reader.batchEnd hub ≤ 96 := by
      intro hub
      rw [DispatchReader.batchEnd, hpolicy, hcursor]
      exact Nat.min_le_right _ _
    rw [Bool.and_eq_true, decide_eq_true_iff, decide_eq_true_iff]
    rintro ⟨-, hle⟩
    exact absurd (hseq.trans (hle.trans (hend _))) (by decide)

/-! ## A range that is partly evicted -/

/-- A key frame with the given payload. -/
def keyFrame (data : List UInt8) : MediaFrame := MediaFrame.new "live" 0 0 data true .h264

/-- A reader has read the first of two GOPs but for its last frame when the third
one pushes the first out: what it gets next begins with the second GOP, and the
flag is down. -/
theorem received_partly_evicted {data : List UInt8} (hdata : data.length = 12582912) :
    ∃ s batch r, exec Delivery.step (Delivery.init (StreamHub.new "live").stream)
      [.subscribe .sequentialFromIdr, .publish (keyFrame data), .recv, .publish audioFrame,
        .publish (keyFrame data), .publish (keyFrame data)] = some s ∧
      s.received .recv = some (batch, r) ∧ s.delivered = [0] ∧ seqsOf batch = [2, 3] ∧
      r.takeMuxerResync.1 = false := by
  have hlen : (keyFrame data).data.length = 12582912 := hdata
  let ring₁ := FrameRing.new.append (keyFrame data)
  let ring₂ := ring₁.append audioFrame
  let ring₃ := ring₂.append (keyFrame data)
  have hbytes₁ : ring₁.bytesUsed = 0 + (keyFrame data).data.length := rfl
  have hbytes₂ : ring₂.bytesUsed = ring₁.bytesUsed + 1 := rfl
  have hbytes₃ : ring₃.bytesUsed = ring₂.bytesUsed + (keyFrame data).data.length := rfl
  have hpush₁ : FrameRing.new.push (keyFrame data) = some ring₁ :=
    push_of_room (show 0 < 512 by omega)
      (show 0 + (keyFrame data).data.length ≤ 33554432 by omega)
  have hpush₂ : ring₁.push audioFrame = some ring₂ :=
    push_of_room (show 1 < 512 by omega) (show ring₁.bytesUsed + 1 ≤ 33554432 by omega)
  have hpush₃ : ring₂.push (keyFrame data) = some ring₃ :=
    push_of_room (show 2 < 512 by omega)
      (show ring₂.bytesUsed + (keyFrame data).data.length ≤ 33554432 by omega)
  have hpush₄ : ring₃.push (keyFrame data) =
      some (ring₃.append (keyFrame data)).evictOldestGop := by
    refine push_of_evictOldestGop ?_ (Nat.one_lt_succ_succ _) ?_
    · rw [FrameRing.needsEvict, Bool.or_eq_true, decide_eq_true_iff, decide_eq_true_iff]
      exact .inr (show 33554432 < ring₃.bytesUsed + (keyFrame data).data.length by omega)
    · rw [FrameRing.needsEvict, Bool.or_eq_false_iff, decide_eq_false_iff_not,
        decide_eq_false_iff_not]
      refine ⟨Nat.not_lt.mpr (show 2 ≤ 512 by omega), Nat.not_lt.mpr ?_⟩
      change ring₃.bytesUsed + (keyFrame data).data.length - (keyFrame data).data.length - 1 ≤
        33554432
      omega
  exact ⟨_, _, _,
    (exec_cons_of_step rfl _).trans <| (exec_cons_of_step (step_publish hpush₁) _).trans <|
      (exec_cons_of_step rfl _).trans <| (exec_cons_of_step (step_publish hpush₂) _).trans <|
      (exec_cons_of_step (step_publish hpush₃) _).trans <|
      exec_cons_of_step (step_publish hpush₄) _, rfl, rfl, rfl, rfl⟩

/-- Eviction takes a **part** of the range of a receive, and the batch leaves out
a number without the flag. -/
theorem not_announced_partly_evicted :
    ¬ Always Delivery.step Announced (Delivery.init (StreamHub.new "live").stream)
      [.subscribe .sequentialFromIdr, .publish (keyFrame (List.replicate 12582912 0)), .recv,
        .publish audioFrame, .publish (keyFrame (List.replicate 12582912 0)),
        .publish (keyFrame (List.replicate 12582912 0)), .recv] := by
  intro h
  obtain ⟨s, batch, r, hs, hrec, hdel, hseqs, hflag⟩ :=
    received_partly_evicted (List.length_replicate (n := 12582912) (a := (0 : UInt8)))
  obtain ⟨-, hann⟩ := always_iff.mp h _ .recv ⟨[], rfl⟩ s hs batch r hrec
  rw [hdel, hseqs, hflag] at hann
  exact absurd (hann (by decide)) (by decide)

end Delivery

end VcpMediaServer
