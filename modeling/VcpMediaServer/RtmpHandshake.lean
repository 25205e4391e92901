import VcpMediaServer.Bytes

/-!
# The RTMP handshake

The client sends **C0** (a version byte), **C1** and **C2** (1536 bytes each), and the
server answers **S0**, **S1** and **S2**, which repeats C1. `handle_handshake` has two
phases, and a flag that says whether this is the first call.

* The flag falls after the first call, whether C0 and C1 were there or not: if they were
  not, the answer is **never written**.
* Both phases want 1537 bytes in the buffer, though C2 has only 1536: if a later read ends
  at the end of C2, the handshake waits for one byte **more**.
* `completesOnTime_iff` — these are the only reads under which it goes wrong.
-/

namespace VcpMediaServer

/-! ## The code -/

/-- The size of C1, of C2, of S1 and of S2. -/
def handshakeSize : ℕ := 1536

/-- S0, S1 and S2. -/
def handshakeResponse (c1 : List UInt8) : List UInt8 :=
  0x03 :: (List.replicate handshakeSize 0 ++ c1)

/-- `handle_handshake`: whether the handshake is complete, the buffer afterwards, and what was
written. -/
def handleHandshake (buf : List UInt8) (firstCall : Bool) : Bool × List UInt8 × List UInt8 :=
  if buf.length < handshakeSize + 1 then (false, buf, [])
  else if firstCall ∧ buf.getD 0 0 ≠ 0x03 then (false, [], [])
  else
    let response := if firstCall then handshakeResponse (slice buf 1 handshakeSize) else []
    let buf := if firstCall then buf.drop (handshakeSize + 1) else buf
    if handshakeSize ≤ buf.length then (true, buf.drop handshakeSize, response)
    else (false, buf, response)

/-- What the handshake phase of a connection comes to. -/
structure HandshakeRun where
  /-- What is written, in all. -/
  written : List UInt8
  /-- The number of the read at which the handshake is complete, and what the chunk parser gets:
  what that read leaves in the buffer, and the later reads. -/
  complete : Option (ℕ × List (List UInt8))
  deriving DecidableEq, Repr

/-- The handshake phase of `handle_connection`, from a buffer and a flag on. -/
def handshakeFrom : List UInt8 → Bool → List (List UInt8) → HandshakeRun
  | _, _, [] => { written := [], complete := none }
  | buf, firstCall, read :: reads =>
    match handleHandshake (buf ++ read) firstCall with
    | (true, rest, response) => { written := response, complete := some (1, rest :: reads) }
    | (false, rest, response) =>
      let r := handshakeFrom rest false reads
      { written := response ++ r.written
        complete := r.complete.map fun (n, left) => (n + 1, left) }

/-- The handshake phase of `handle_connection`. A read of nothing closes the connection, and is
none of the reads. -/
def handshake (reads : List (List UInt8)) : HandshakeRun := handshakeFrom [] true reads

/-! ## What it should come to -/

/-- The answer is written once, and what follows the handshake is left to the chunk parser, no
later than the read that delivers the last byte of C2. -/
structure CompletesOnTime (c1 more : List UInt8) (reads : List (List UInt8)) : Prop where
  /-- S0, S1 and S2, and nothing else. -/
  written : (handshake reads).written = handshakeResponse c1
  /-- The reads before the one that completes the handshake do not deliver all of C2, and the
  chunk parser gets exactly the further bytes. -/
  complete : ∃ n left, (handshake reads).complete = some (n + 1, left) ∧
    left.flatten = more ∧ (reads.take n).flatten.length < 2 * handshakeSize + 1

/-! ## The second phase -/

/-- The second phase writes nothing. -/
theorem written_second_phase (buf : List UInt8) (reads : List (List UInt8)) :
    (handshakeFrom buf false reads).written = [] := by
  induction reads generalizing buf with
  | nil => rfl
  | cons read reads ih =>
    unfold handshakeFrom handleHandshake
    simp only [Bool.false_eq_true, false_and, if_false]
    split_ifs
    · exact ih (buf ++ read)
    · rfl
    · exact ih (buf ++ read)

theorem second_phase_short {buf : List UInt8} (h : buf.length < handshakeSize + 1) :
    handleHandshake buf false = (false, buf, []) := by
  rw [handleHandshake, if_pos h]

theorem second_phase_long {buf : List UInt8} (h : handshakeSize < buf.length) :
    handleHandshake buf false = (true, buf.drop handshakeSize, []) := by
  rw [handleHandshake, if_neg (by omega), if_neg (by simp)]
  simp only [Bool.false_eq_true, if_false]
  rw [if_pos (by omega)]

/-- The number of a read. -/
theorem complete_ne_zero (buf : List UInt8) (firstCall : Bool) (reads left : List (List UInt8)) :
    (handshakeFrom buf firstCall reads).complete ≠ some (0, left) := by
  intro h
  cases reads with
  | nil => cases h
  | cons read reads =>
    unfold handshakeFrom at h
    split at h
    · cases h
    · simp at h

/-- The number of a read that is one of the reads after the first. -/
theorem exists_complete_map {o : Option (ℕ × List (List UInt8))}
    (hzero : ∀ left, o ≠ some (0, left)) {P : ℕ → List (List UInt8) → Prop} :
    (∃ n left, (o.map fun (n, left) => (n + 1, left)) = some (n + 1, left) ∧ P n left) ↔
      ∃ n left, o = some (n + 1, left) ∧ P (n + 1) left := by
  rcases o with _ | ⟨_ | n, left⟩
  · simp
  · exact absurd rfl (hzero left)
  · simp

/-- No read ends at a place of the stream: neither the first nor a later one. -/
theorem forall_take_cons {buf read : List UInt8} {reads : List (List UInt8)} {n : ℕ}
    (hbuf : buf.length ≠ n) :
    (∀ i, (buf ++ ((read :: reads).take i).flatten).length ≠ n) ↔
      ∀ i, (buf ++ read ++ (reads.take i).flatten).length ≠ n := by
  constructor
  · intro h i
    simpa using h (i + 1)
  · rintro h (_ | i)
    · simpa using hbuf
    · simpa using h i

/-- A read after which C2 is not complete, or **just** complete. -/
theorem complete_of_short {buf read : List UInt8} (reads : List (List UInt8))
    (h : (buf ++ read).length < handshakeSize + 1) :
    (handshakeFrom buf false (read :: reads)).complete =
      (handshakeFrom (buf ++ read) false reads).complete.map fun (n, left) => (n + 1, left) := by
  rw [handshakeFrom, second_phase_short h]

/-- A read with a byte more than C2. -/
theorem complete_of_long {buf read : List UInt8} (reads : List (List UInt8))
    (h : handshakeSize < (buf ++ read).length) :
    (handshakeFrom buf false (read :: reads)).complete =
      some (1, (buf ++ read).drop handshakeSize :: reads) := by
  rw [handshakeFrom, second_phase_long h]

/-- The second phase completes on time **exactly if** no read ends at the end of C2. -/
theorem second_phase_iff {c2 more : List UInt8} (hc2 : c2.length = handshakeSize)
    (buf : List UInt8) (reads : List (List UInt8)) (hbuf : buf.length < handshakeSize)
    (hbytes : buf ++ reads.flatten = c2 ++ more) :
    (∃ n left, (handshakeFrom buf false reads).complete = some (n + 1, left) ∧
        left.flatten = more ∧ (buf ++ (reads.take n).flatten).length < handshakeSize) ↔
      ∀ i, (buf ++ (reads.take i).flatten).length ≠ handshakeSize := by
  induction reads generalizing buf with
  | nil =>
    have hlen := congrArg List.length hbytes
    simp only [List.flatten_nil, List.append_nil, List.length_append] at hlen
    omega
  | cons read reads ih =>
    rw [List.flatten_cons, ← List.append_assoc] at hbytes
    rw [forall_take_cons (by omega)]
    rcases Nat.lt_trichotomy (buf ++ read).length handshakeSize with hlt | heq | hgt
    · -- C2 is not complete: the reads after this one decide
      rw [complete_of_short reads (by omega), exists_complete_map (complete_ne_zero _ _ _),
        ← ih (buf ++ read) hlt hbytes]
      simp only [List.take_succ_cons, List.flatten_cons, List.append_assoc]
    · -- the read ends at the end of C2, and the handshake waits
      rw [complete_of_short reads (by omega), exists_complete_map (complete_ne_zero _ _ _)]
      refine iff_of_false ?_ fun hnever => hnever 0 (by simpa using heq)
      rintro ⟨n, left, -, -, hbefore⟩
      simp only [List.take_succ_cons, List.flatten_cons, List.length_append] at hbefore heq
      omega
    · -- the read brings a byte more
      rw [complete_of_long reads hgt]
      refine iff_of_true ⟨0, _, rfl, ?_, by simpa using hbuf⟩ fun i => ?_
      · rw [List.flatten_cons, ← List.drop_append_of_le_length (by omega), hbytes,
          List.drop_left' hc2]
      · rw [List.length_append]
        omega

/-! ## Both phases -/

/-- A first read with C0 and C1 in it: the answer is written. -/
theorem first_call_long {c1 rest : List UInt8} (hc1 : c1.length = handshakeSize) :
    handleHandshake (0x03 :: (c1 ++ rest)) true =
      if handshakeSize ≤ rest.length then (true, rest.drop handshakeSize, handshakeResponse c1)
      else (false, rest, handshakeResponse c1) := by
  have hslice : slice (0x03 :: (c1 ++ rest)) 1 handshakeSize = c1 := by
    rw [slice, List.drop_succ_cons, List.drop_zero, List.take_left' hc1]
  have hdrop : (0x03 :: (c1 ++ rest)).drop (handshakeSize + 1) = rest := by
    rw [List.drop_succ_cons, List.drop_left' hc1]
  rw [handleHandshake, if_neg (by simp [hc1]), if_neg (by simp)]
  simp only [if_true, hslice, hdrop]

/-- A first read without all of C1: the answer is never written. -/
theorem written_of_short_first {first : List UInt8} (later : List (List UInt8))
    (h : first.length < handshakeSize + 1) : (handshake (first :: later)).written = [] := by
  rw [handshake, handshakeFrom, List.nil_append, handleHandshake, if_pos h]
  exact written_second_phase first later

/-- A first read with C0 and C1 in it, and not all of C2. -/
theorem handshake_of_first {c1 rest : List UInt8} (later : List (List UInt8))
    (hc1 : c1.length = handshakeSize) (hrest : rest.length < handshakeSize) :
    handshake ((0x03 :: (c1 ++ rest)) :: later) =
      { written := handshakeResponse c1
        complete := (handshakeFrom rest false later).complete.map fun (n, left) =>
            (n + 1, left) } := by
  rw [handshake, handshakeFrom, List.nil_append, first_call_long hc1, if_neg (by omega)]
  dsimp only
  rw [written_second_phase, List.append_nil]

/-- A first read with all of the handshake in it. -/
theorem handshake_of_all {c1 rest : List UInt8} (later : List (List UInt8))
    (hc1 : c1.length = handshakeSize) (hrest : handshakeSize ≤ rest.length) :
    handshake ((0x03 :: (c1 ++ rest)) :: later) =
      { written := handshakeResponse c1
        complete := some (1, rest.drop handshakeSize :: later) } := by
  rw [handshake, handshakeFrom, List.nil_append, first_call_long hc1, if_pos hrest]

/-- The first read brings C0 and C1, and if it does not bring C2 as well, no read ends at the end
of C2. -/
def WellCut (reads : List (List UInt8)) : Prop :=
  handshakeSize + 1 ≤ (reads.headD []).length ∧
    (2 * handshakeSize + 1 ≤ (reads.headD []).length ∨
      ∀ i, (reads.take i).flatten.length ≠ 2 * handshakeSize + 1)

theorem not_completesOnTime_of_short_first {c1 more : List UInt8} {first : List UInt8}
    (later : List (List UInt8)) (h : first.length < handshakeSize + 1) :
    ¬ CompletesOnTime c1 more (first :: later) := by
  intro hc
  have hwritten := hc.written
  rw [written_of_short_first later h] at hwritten
  cases hwritten

/-- A first read that brings C0 and C1 is C0, C1 and some more. -/
theorem first_eq {c1 tail first : List UInt8} {later : List (List UInt8)}
    (hlong : c1.length + 1 ≤ first.length)
    (hbytes : first ++ later.flatten = 0x03 :: (c1 ++ tail)) :
    ∃ rest, first = 0x03 :: (c1 ++ rest) ∧ rest ++ later.flatten = tail := by
  have hprefix : 0x03 :: c1 <+: first ++ later.flatten := by
    rw [hbytes, ← List.cons_append]
    exact List.prefix_append _ _
  obtain ⟨rest, rfl⟩ : 0x03 :: c1 <+: first :=
    List.prefix_of_prefix_length_le hprefix (List.prefix_append _ _) hlong
  exact ⟨rest, rfl, by simpa using hbytes⟩

/-- With C0 and C1 in the first read, and not all of C2, it is up to the second phase. -/
theorem completesOnTime_iff_second_phase {c1 more rest : List UInt8} (later : List (List UInt8))
    (hc1 : c1.length = handshakeSize) (hrest : rest.length < handshakeSize) :
    CompletesOnTime c1 more ((0x03 :: (c1 ++ rest)) :: later) ↔
      ∃ n left, (handshakeFrom rest false later).complete = some (n + 1, left) ∧
        left.flatten = more ∧ (rest ++ (later.take n).flatten).length < handshakeSize := by
  have hrun := handshake_of_first later hc1 hrest
  have hbefore : ∀ n, (((0x03 :: (c1 ++ rest)) :: later).take (n + 1)).flatten.length <
      2 * handshakeSize + 1 ↔ (rest ++ (later.take n).flatten).length < handshakeSize := by
    intro n
    simp only [List.take_succ_cons, List.flatten_cons, List.length_append, List.length_cons, hc1]
    omega
  have hiff := exists_complete_map (complete_ne_zero rest false later) (P := fun n left =>
    left.flatten = more ∧
      (((0x03 :: (c1 ++ rest)) :: later).take n).flatten.length < 2 * handshakeSize + 1)
  simp only [hbefore] at hiff
  rw [← hiff]
  constructor
  · intro hc
    have hcomplete := hc.complete
    rw [hrun] at hcomplete
    exact hcomplete
  · intro hcomplete
    exact ⟨by rw [hrun], by rw [hrun]; exact hcomplete⟩

/-- The handshake completes on time **exactly if** the reads are well cut. -/
theorem completesOnTime_iff {c1 c2 more : List UInt8} {reads : List (List UInt8)}
    (hc1 : c1.length = handshakeSize) (hc2 : c2.length = handshakeSize)
    (hbytes : reads.flatten = 0x03 :: (c1 ++ (c2 ++ more))) :
    CompletesOnTime c1 more reads ↔ WellCut reads := by
  rcases reads with _ | ⟨first, later⟩
  · cases hbytes
  unfold WellCut
  rw [List.headD_cons]
  rcases Nat.lt_or_ge first.length (handshakeSize + 1) with hshort | hlong
  · exact iff_of_false (not_completesOnTime_of_short_first later hshort) fun h => by omega
  obtain ⟨rest, rfl, hrest⟩ := first_eq (by rw [hc1]; exact hlong) hbytes
  have hlen : (0x03 :: (c1 ++ rest)).length = handshakeSize + 1 + rest.length := by
    simp only [List.length_cons, List.length_append, hc1]
    omega
  rcases Nat.lt_or_ge rest.length handshakeSize with hsome | hall
  · -- the second phase decides, and its places are those of the stream behind C0 and C1
    rw [completesOnTime_iff_second_phase later hc1 hsome,
      second_phase_iff hc2 rest later hsome hrest]
    have hends : (∀ i, ([] ++ (((0x03 :: (c1 ++ rest)) :: later).take i).flatten).length ≠
        2 * handshakeSize + 1) ↔
          ∀ i, ([] ++ 0x03 :: (c1 ++ rest) ++ (later.take i).flatten).length ≠
        2 * handshakeSize + 1 := forall_take_cons (Nat.zero_ne_add_one _)
    simp only [List.nil_append] at hends
    rw [hends]
    refine ⟨fun h => ⟨hlong, .inr fun i => ?_⟩, fun h i => ?_⟩
    · have := h i
      simp only [List.length_append, List.length_cons, hc1] at this ⊢
      omega
    · have := h.2.resolve_left (by omega) i
      simp only [List.length_append, List.length_cons, hc1] at this ⊢
      omega
  · refine iff_of_true ⟨?_, ?_⟩ ⟨by omega, .inl (by omega)⟩
    · rw [handshake_of_all later hc1 hall]
    · rw [handshake_of_all later hc1 hall]
      refine ⟨0, _, rfl, ?_, by simp⟩
      rw [List.flatten_cons, ← List.drop_append_of_le_length hall, hrest, List.drop_left' hc2]

/-- C0 and C1 in one read, C2 with a byte of the first chunk in the next. -/
theorem completesOnTime_of_glued :
    CompletesOnTime (List.replicate handshakeSize 0) [0x03]
      [0x03 :: List.replicate handshakeSize 0, List.replicate handshakeSize 0 ++ [0x03]] := by
  refine (completesOnTime_iff List.length_replicate (List.length_replicate (a := 0))
    (by simp)).mpr ⟨by simp, .inr ?_⟩
  rintro (_ | _ | i)
  · exact Nat.zero_ne_add_one _
  · simpa using (by decide : handshakeSize ≠ 2 * handshakeSize)
  · simpa using (by omega : handshakeSize + (handshakeSize + 1) ≠ 2 * handshakeSize)

/-- C0 comes in a read of its own. -/
theorem not_completesOnTime_of_one_byte :
    [[0x03], List.replicate handshakeSize 0 ++ List.replicate handshakeSize 0].flatten =
        0x03 :: (List.replicate handshakeSize 0 ++ (List.replicate handshakeSize 0 ++ [])) ∧
      ¬ CompletesOnTime (List.replicate handshakeSize 0) []
        [[0x03], List.replicate handshakeSize 0 ++ List.replicate handshakeSize 0] :=
  ⟨by simp, not_completesOnTime_of_short_first _ (by decide)⟩

end VcpMediaServer
