import Mathlib.Data.Finset.Lattice.Fold
import Mathlib.Order.Lattice.Nat
import VcpMediaServer.FlvPlayTimeline

/-!
# The clocks of live playback

A viewer's timestamps follow the clock of the wall, not that of the publisher. Instants are
nanoseconds.

* `WallclockMsTimeline.mapMs` — the time of an FLV tag or an RTMP message: the milliseconds since
  the first one, but **later than the one before**.
* `WallclockMsTimeline.emitted_eq` — that time in closed form: a burst runs ahead of the clock by a
  millisecond a tag.
* `PlayRtpTimeline.mapWallclock` — the time of an RTP packet, in ticks of the clock of the codec.
* `PlayRtpTimeline.reading` — what such a timeline reads at an instant.
-/

namespace VcpMediaServer

/-- The nanoseconds since an instant: none if it is still to come. -/
def elapsedNanos (anchor now : ℕ) : ℕ := now - anchor

/-! ## FLV and RTMP -/

/-- `WallclockMsTimeline`. -/
structure WallclockMsTimeline where
  /-- The instant of the first tag. -/
  anchor : Option ℕ
  /-- The time of the last tag. -/
  lastEmitMs : UInt64
  deriving DecidableEq

namespace WallclockMsTimeline

/-- `WallclockMsTimeline::default`. -/
def new : WallclockMsTimeline := { anchor := none, lastEmitMs := 0 }

/-- `WallclockMsTimeline::map_ms`. The clock is read at `first` if this is the first tag, and then
at `now`. -/
def mapMs (t : WallclockMsTimeline) (first now : ℕ) : WallclockMsTimeline × UInt32 :=
  let anchor := t.anchor.getD first
  let ideal := UInt64.ofNat (elapsedNanos anchor now / 1000000)
  let ts := if t.lastEmitMs < ideal then ideal else saturatingAdd t.lastEmitMs FLV_MUX_MIN_STEP_MS
  ({ anchor := some anchor, lastEmitMs := ts }, (ts &&& 0xFFFFFFFF).toUInt32)

/-- The timeline behind the tags of a run. The clock is read twice for each tag. -/
def after (t : WallclockMsTimeline) (reads : List (ℕ × ℕ)) : WallclockMsTimeline :=
  reads.foldl (fun t read => (t.mapMs read.1 read.2).1) t

/-- The times of the tags of a run. -/
def times : WallclockMsTimeline → List (ℕ × ℕ) → List UInt64
  | _, [] => []
  | t, read :: reads =>
    let t := (t.mapMs read.1 read.2).1
    t.lastEmitMs :: times t reads

variable {t : WallclockMsTimeline}

/-- The time of a tag is that of the clock, or a millisecond behind the last tag: the later one. -/
theorem toNat_lastEmitMs_mapMs (t : WallclockMsTimeline) (first now : ℕ) :
    (t.mapMs first now).1.lastEmitMs.toNat =
      max (elapsedNanos (t.anchor.getD first) now / 1000000 % 2 ^ 64)
          (min (t.lastEmitMs.toNat + 1) (2 ^ 64 - 1)) := by
  have hideal : (UInt64.ofNat (elapsedNanos (t.anchor.getD first) now / 1000000)).toNat =
      elapsedNanos (t.anchor.getD first) now / 1000000 % 2 ^ 64 := UInt64.toNat_ofNat'
  have hlt := (UInt64.ofNat (elapsedNanos (t.anchor.getD first) now / 1000000)).toNat_lt
  rw [mapMs]
  dsimp only
  split
  · next hlater =>
    rw [UInt64.lt_iff_toNat_lt] at hlater
    rw [hideal] at hlater hlt ⊢
    omega
  · next hnot =>
    rw [UInt64.lt_iff_toNat_lt, hideal] at hnot
    rw [toNat_saturatingAdd, FLV_MUX_MIN_STEP_MS]
    omega

/-- A tag is **later** than those before it, until the times are full. -/
theorem lt_lastEmitMs_mapMs {ms : UInt64} (h : ms ≤ t.lastEmitMs) (hfull : ms.toNat < 2 ^ 64 - 1)
    (first now : ℕ) :
    ms < (t.mapMs first now).1.lastEmitMs := by
  rw [UInt64.le_iff_toNat_le] at h
  rw [UInt64.lt_iff_toNat_lt, toNat_lastEmitMs_mapMs]
  omega

theorem le_lastEmitMs_mapMs (t : WallclockMsTimeline) (first now : ℕ) :
    t.lastEmitMs ≤ (t.mapMs first now).1.lastEmitMs := by
  have hlt := t.lastEmitMs.toNat_lt
  rw [UInt64.le_iff_toNat_le, toNat_lastEmitMs_mapMs]
  omega

/-- Times that rise, until they are full. -/
def Rises (times : List UInt64) : Prop :=
  times.Pairwise fun a b => a ≤ b ∧ (a.toNat < 2 ^ 64 - 1 → a < b)

/-! ## Runs -/

/-- The instant from which the times of a run are counted. -/
def anchorOf (t : WallclockMsTimeline) (reads : List (ℕ × ℕ)) : ℕ :=
  t.anchor.getD ((reads.head?.map Prod.fst).getD 0)

/-- The milliseconds on the clock at a tag of a run. -/
def idealMs (t : WallclockMsTimeline) (reads : List (ℕ × ℕ)) (i : ℕ) : ℕ :=
  elapsedNanos (t.anchorOf reads) ((reads[i]?.map Prod.snd).getD 0) / 1000000 % 2 ^ 64

theorem after_concat (reads : List (ℕ × ℕ)) (read : ℕ × ℕ) :
    t.after (reads ++ [read]) = ((t.after reads).mapMs read.1 read.2).1 := by
  rw [after, List.foldl_append]
  rfl

@[simp] theorem length_times (t : WallclockMsTimeline) (reads : List (ℕ × ℕ)) :
    (t.times reads).length = reads.length := by
  induction reads generalizing t with
  | nil => rfl
  | cons read reads ih => exact congrArg Nat.succ (ih _)

/-- The next tag has the time that the timeline **comes to** with it. -/
theorem times_concat (t : WallclockMsTimeline) (reads : List (ℕ × ℕ)) (read : ℕ × ℕ) :
    t.times (reads ++ [read]) =
      t.times reads ++ [((t.after reads).mapMs read.1 read.2).1.lastEmitMs] := by
  induction reads generalizing t with
  | nil => rfl
  | cons r reads ih => exact congrArg (List.cons _) (ih _)

/-- No tag is later than the timeline is at the end. -/
theorem le_lastEmitMs_after (t : WallclockMsTimeline) (reads : List (ℕ × ℕ)) :
    ∀ ms ∈ t.times reads, ms ≤ (t.after reads).lastEmitMs := by
  induction reads using List.reverseRecOn with
  | nil => exact nofun
  | append_singleton reads read ih =>
    rw [times_concat, after_concat]
    have hle := le_lastEmitMs_mapMs (t.after reads) read.1 read.2
    refine List.forall_mem_append.mpr ⟨fun ms hms => UInt64.le_trans (ih ms hms) hle, ?_⟩
    exact List.forall_mem_singleton.mpr (UInt64.le_refl _)

/-- **The times of a run rise.** -/
theorem rises_times (t : WallclockMsTimeline) (reads : List (ℕ × ℕ)) : Rises (t.times reads) := by
  induction reads using List.reverseRecOn with
  | nil => exact .nil
  | append_singleton reads read ih =>
    rw [times_concat]
    refine List.pairwise_append.mpr ⟨ih, List.pairwise_singleton _ _, fun ms hms ms' hms' => ?_⟩
    obtain rfl := List.mem_singleton.mp hms'
    have hbefore := le_lastEmitMs_after t reads ms hms
    exact ⟨UInt64.le_trans hbefore (le_lastEmitMs_mapMs _ _ _),
      fun hfull => lt_lastEmitMs_mapMs hbefore hfull _ _⟩

/-- The times of some of the tags of a run rise too. -/
theorem Rises.sublist {times times' : List UInt64} (h : Rises times) (hsub : times'.Sublist times) :
    Rises times' := List.Pairwise.sublist hsub h

theorem anchorOf_concat (reads : List (ℕ × ℕ)) (read : ℕ × ℕ) :
    (t.after reads).anchor.getD read.1 = t.anchorOf (reads ++ [read]) := by
  have hanchor : ∀ (reads : List (ℕ × ℕ)) (t : WallclockMsTimeline) (anchor : ℕ), t.anchor =
    some anchor →
      (t.after reads).anchor = some anchor := by
    intro reads
    induction reads with
    | nil => exact fun _ _ h => h
    | cons r reads ih =>
      intro t anchor h
      refine ih (t.mapMs r.1 r.2).1 anchor ?_
      rw [mapMs, h, Option.getD_some]
  cases reads with
  | nil => rfl
  | cons r reads =>
    have hfirst : (t.mapMs r.1 r.2).1.anchor = some (t.anchor.getD r.1) := rfl
    have hlast : (t.after (r :: reads)).anchor = some (t.anchor.getD r.1) :=
      hanchor reads _ _ hfirst
    rw [hlast]
    rfl

theorem idealMs_concat (reads : List (ℕ × ℕ)) (read : ℕ × ℕ) {i : ℕ} (hi : i < reads.length) :
    t.idealMs (reads ++ [read]) i = t.idealMs reads i := by
  obtain ⟨r, reads, rfl⟩ :=
    List.exists_cons_of_ne_nil (List.ne_nil_of_length_pos (Nat.zero_lt_of_lt hi))
  rw [idealMs, idealMs, List.getElem?_append_left hi]
  rfl

/-- A tag more is a millisecond more for all that came before it. -/
theorem sup_succ (a n : ℕ) (f : ℕ → ℕ) :
    max (a + (n + 1)) ((Finset.range n).sup fun i => f i + (n - i)) =
      max (a + n) ((Finset.range n).sup fun i => f i + (n - 1 - i)) + 1 := by
  refine Nat.le_antisymm (Nat.max_le.mpr ⟨by omega, Finset.sup_le fun i hi => ?_⟩) ?_
  · have hle := Finset.le_sup (f := fun i => f i + (n - 1 - i)) hi
    have hlt := Finset.mem_range.mp hi
    omega
  · have hsup : ((Finset.range n).sup fun i => f i + (n - 1 - i)) + 1 ≤
        max (a + (n + 1)) ((Finset.range n).sup fun i => f i + (n - i)) := by
      have hbound : ((Finset.range n).sup fun i => f i + (n - 1 - i)) ≤
          max (a + (n + 1)) ((Finset.range n).sup fun i => f i + (n - i)) - 1 := by
        refine Finset.sup_le fun i hi => ?_
        have hle := Finset.le_sup (f := fun i => f i + (n - i)) hi
        have hlt := Finset.mem_range.mp hi
        omega
      omega
    omega

/-- The smallest step behind a time that stops when it is full. -/
theorem max_min_succ {now : ℕ} (hnow : now < 2 ^ 64) (ms : ℕ) :
    max now (min (min ms (2 ^ 64 - 1) + 1) (2 ^ 64 - 1)) = min (max now (ms + 1)) (2 ^ 64 - 1) := by
  omega

/-- The time of the last tag of a run: a tag is as late as the clock was at some tag before it **and
a millisecond for each tag since**, or as late as the number of tags. The times stop when they are
full. -/
theorem emitted_eq (t : WallclockMsTimeline) (reads : List (ℕ × ℕ)) :
    (t.after reads).lastEmitMs.toNat =
      min (max (t.lastEmitMs.toNat + reads.length)
        ((Finset.range reads.length).sup fun i => t.idealMs reads i + (reads.length - 1 - i)))
            (2 ^ 64 - 1) := by
  induction reads using List.reverseRecOn with
  | nil =>
    have hlt := t.lastEmitMs.toNat_lt
    simp only [List.length_nil, Finset.range_zero, Finset.sup_empty, after, List.foldl_nil]
    simp only [Nat.bot_eq_zero]
    omega
  | append_singleton reads read ih =>
    have hnow : elapsedNanos ((t.after reads).anchor.getD read.1) read.2 / 1000000 % 2 ^ 64 =
        t.idealMs (reads ++ [read]) reads.length := by
      rw [anchorOf_concat, idealMs, List.getElem?_concat_length, Option.map_some, Option.getD_some]
    have hlast : ((Finset.range (reads.length + 1)).sup fun i =>
        t.idealMs (reads ++ [read]) i + (reads.length - i)) =
        max (t.idealMs (reads ++ [read]) reads.length)
          ((Finset.range reads.length).sup fun i => t.idealMs reads i + (reads.length - i)) := by
      rw [Finset.range_add_one, Finset.sup_insert, Nat.sub_self, Nat.add_zero]
      congr 1
      refine Finset.sup_congr rfl fun i hi => ?_
      rw [idealMs_concat reads read (Finset.mem_range.mp hi)]
    have hideal : t.idealMs (reads ++ [read]) reads.length < 2 ^ 64 := Nat.mod_lt _ (by decide)
    have hsucc := sup_succ t.lastEmitMs.toNat reads.length (t.idealMs reads)
    rw [after_concat, toNat_lastEmitMs_mapMs, hnow, ih, max_min_succ hideal, ← hsucc,
      List.length_append, List.length_singleton, Nat.add_sub_cancel, hlast, max_left_comm]

end WallclockMsTimeline

/-! ## RTSP -/

/-- `RTP_CLOCK_HZ`. -/
def RTP_CLOCK_HZ : ℕ := 90000

/-- `AAC_CLOCK_HZ`. -/
def AAC_CLOCK_HZ : ℕ := 44100

/-- `PlayRtpTimeline`. -/
structure PlayRtpTimeline where
  /-- The instant of the first packet. -/
  wallAnchor : Option ℕ
  /-- The ticks in a second. -/
  clockHz : ℕ
  deriving DecidableEq

namespace PlayRtpTimeline

/-- `PlayRtpTimeline::for_codec`. -/
def forCodec (codec : CodecType) : PlayRtpTimeline :=
  { wallAnchor := none, clockHz := match codec with | .aac => AAC_CLOCK_HZ | _ => RTP_CLOCK_HZ }

/-- The ticks of a timeline after so many microseconds. The product saturates. -/
def ticks (clockHz : ℕ) (elapsedUs : ℕ) : ℕ :=
  if clockHz = AAC_CLOCK_HZ then min (elapsedUs * AAC_CLOCK_HZ) (2 ^ 64 - 1) / 1000000
  else min (elapsedUs * 90) (2 ^ 64 - 1) / 1000

/-- `PlayRtpTimeline::map_wallclock`. The clock is read at `first` if this is the first packet, and
then at `now`. -/
def mapWallclock (t : PlayRtpTimeline) (first now : ℕ) : PlayRtpTimeline × UInt32 :=
  let anchor := t.wallAnchor.getD first
  ({ t with wallAnchor := some anchor },
    UInt32.ofNat (ticks t.clockHz (elapsedNanos anchor now / 1000 % 2 ^ 64)))

theorem ticks_mono (clockHz : ℕ) {us us' : ℕ} (h : us ≤ us') :
    ticks clockHz us ≤ ticks clockHz us' := by
  unfold ticks
  split
  · exact Nat.div_le_div_right (min_le_min_right _ (Nat.mul_le_mul_right _ h))
  · exact Nat.div_le_div_right (min_le_min_right _ (Nat.mul_le_mul_right _ h))

/-- What a timeline **reads** at an instant, before it is cut to 32 bits. -/
def reading (t : PlayRtpTimeline) (now : ℕ) : ℕ :=
  ticks t.clockHz (elapsedNanos (t.wallAnchor.getD now) now / 1000)

/-- A timeline reads on. -/
theorem reading_mono (t : PlayRtpTimeline) {now now' : ℕ} (h : now ≤ now') :
    t.reading now ≤ t.reading now' := by
  refine ticks_mono _ (Nat.div_le_div_right ?_)
  cases hanchor : t.wallAnchor with
  | none =>
    rw [Option.getD_none, elapsedNanos, Nat.sub_self]
    exact Nat.zero_le _
  | some anchor => exact Nat.sub_le_sub_right h anchor

/-- A packet has the time that the timeline **then has** reads. -/
theorem mapWallclock_snd (t : PlayRtpTimeline) (first : ℕ) {now : ℕ} (hnow : now < 2 ^ 64 * 1000) :
    (t.mapWallclock first now).2 = UInt32.ofNat ((t.mapWallclock first now).1.reading now) := by
  have hlt : elapsedNanos (t.wallAnchor.getD first) now / 1000 < 2 ^ 64 := by
    refine Nat.div_lt_of_lt_mul (Nat.lt_of_le_of_lt (Nat.sub_le _ _) ?_)
    rw [Nat.mul_comm]
    exact hnow
  rw [mapWallclock, reading, Option.getD_some]
  dsimp only
  rw [Nat.mod_eq_of_lt hlt]

/-- A timeline that has an anchor keeps it. -/
theorem mapWallclock_fst {t : PlayRtpTimeline} {anchor : ℕ} (h : t.wallAnchor = some anchor)
    (first now : ℕ) : (t.mapWallclock first now).1 = t := by
  rw [mapWallclock, h, Option.getD_some]
  dsimp only
  rw [← h]

end PlayRtpTimeline

end VcpMediaServer
