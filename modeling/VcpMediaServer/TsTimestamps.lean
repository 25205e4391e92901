import Mathlib.Data.Nat.ModEq
import VcpMediaServer.Mealy
import VcpMediaServer.TsPackets

/-!
# The clock and the timestamps

Before each frame the muxer sets its clock to the time of the frame, in units of 27 MHz. The base of
a PCR counts in units of 90 kHz, as a PTS does, but the clock is written into it **undivided**; and
of a PTS the three highest bits are those one place too high.

* `pcrBase_pesToTsPackets`, `pesPts_buildPes` — what is read back.
* `decodePts_iff` — the field of a PTS gives the time exactly if bits 30 to 33 of it are the same.
* `onTimeline_iff` — the two agree, with what they should be, exactly at times that vanish from
  both.
-/

namespace VcpMediaServer

open Mealy

/-! ## The clock -/

theorem toNat_writePcr (pcr : UInt64) : beNat ((writePcr pcr).take 4) = pcr.toNat / 2 % 2 ^ 32 := by
  have hbyte : ∀ n : UInt64, n.toNat < 64 →
      (pcr >>> n).toUInt8.toNat = pcr.toNat / 2 ^ n.toNat % 256 := by
    intro n hn
    rw [UInt64.toNat_toUInt8, UInt64.toNat_shiftRight, Nat.mod_eq_of_lt hn,
      Nat.shiftRight_eq_div_pow]
  have hbytes : beNat ((writePcr pcr).take 4) = (((0 * 256 + (pcr >>> 25).toUInt8.toNat) * 256 +
      (pcr >>> 17).toUInt8.toNat) * 256 + (pcr >>> 9).toUInt8.toNat) * 256 +
        (pcr >>> 1).toUInt8.toNat := rfl
  rw [hbytes, hbyte 25 (by decide), hbyte 17 (by decide), hbyte 9 (by decide), hbyte 1 (by decide)]
  change ((((0 * 256 + pcr.toNat / 2 ^ 25 % 256) * 256 + pcr.toNat / 2 ^ 17 % 256) * 256 +
    pcr.toNat / 2 ^ 9 % 256) * 256 + pcr.toNat / 2 ^ 1 % 256) = _
  omega

theorem toNat_writePcr_low (pcr : UInt64) :
    ((((pcr &&& 1).toUInt8 <<< 7) ||| 0x7E : UInt8)).toNat / 128 = pcr.toNat % 2 := by
  have hlow : (pcr &&& 1).toNat = pcr.toNat % 2 := by
    rw [UInt64.toNat_and]
    exact Nat.and_one_is_mod _
  have hbit : ∀ b : UInt8, b < 2 → ((b <<< 7) ||| 0x7E).toNat / 128 = b.toNat :=
    forall_byte (by decide +kernel)
  have hbyte : (pcr &&& 1).toUInt8.toNat = pcr.toNat % 2 := by
    rw [UInt64.toNat_toUInt8, hlow]
    omega
  rw [hbit _ (UInt8.lt_iff_toNat_lt.mpr (by rw [hbyte]; exact Nat.mod_lt _ (by decide))), hbyte]

/-- The base is the low part of the clock. -/
theorem pcrBase_prefix (pid : UInt16) (start : Bool) {cc : UInt8} (hcc : cc < 16) (pcr : UInt64)
    (rest : List UInt8) :
    pcrBase (tsHeader pid start true cc ++ (adaptationPrefix pcr ++ rest)) =
        some (pcr.toNat % 2 ^ 33) := by
  have hfield := hasAdaptationField_header pid start true hcc (adaptationPrefix pcr ++ rest)
  have hread : beNat (slice (tsHeader pid start true cc ++ (adaptationPrefix pcr ++ rest)) 6 4) *
    2 +
      ((((pcr &&& 1).toUInt8 <<< 7) ||| 0x7E : UInt8)).toNat / 128 = pcr.toNat % 2 ^ 33 := by
    have hslice : slice (tsHeader pid start true cc ++ (adaptationPrefix pcr ++ rest)) 6 4 =
        (writePcr pcr).take 4 := rfl
    rw [hslice, toNat_writePcr, toNat_writePcr_low]
    omega
  rw [pcrBase, if_pos ⟨hfield, (by decide : (7 : UInt8) ≤ 7), (by decide : AF_PCR &&& 0x10 ≠ 0)⟩]
  exact congrArg some hread

/-- The clock of a frame of video stands in its first packet. -/
theorem pcrBase_pesToTsPackets (pid : UInt16) {cc : UInt8} (hcc : cc < 16) (pcr : UInt64)
    {pes : List UInt8} (hpes : pes ≠ []) :
    (tsPackets (pesToTsPackets pes pid true cc pcr).1).head?.bind pcrBase =
        some (pcr.toNat % 2 ^ 33) := by
  have hsize : TS_PACKET_SIZE = 188 := rfl
  obtain ⟨fuel, hfuel⟩ :=
    Nat.exists_eq_succ_of_ne_zero (Nat.ne_of_gt (List.length_pos_of_ne_nil hpes))
  have hlength :
    (tsHeader pid true true cc ++ adaptationPrefix pcr ++ pes.take (TS_PACKET_SIZE - 12) ++
      List.replicate (TS_PACKET_SIZE - 12 - pes.length) 0xFF).length = TS_PACKET_SIZE := by
    rw [List.length_append, List.length_append, List.length_take, List.length_replicate]
    change 12 + _ + _ = _
    omega
  rw [pesToTsPackets, hfuel, pesLoop, if_neg hpes, pesPacket, if_pos (by simp)]
  dsimp only
  rw [tsPackets_cons hlength, List.head?_cons, Option.bind_some, List.append_assoc,
    List.append_assoc]
  exact pcrBase_prefix pid true hcc pcr _

/-! ## Timestamps -/

/-- What is read of a PTS: its bits from 31 on are taken for those from 30 on. -/
def readPts (pts : ℕ) : ℕ := pts / 2 ^ 31 % 8 * 2 ^ 30 + pts % 2 ^ 30

theorem pesLength_eq (data : List UInt8) : ∃ a b, pesLength data = [a, b] := by
  rw [pesLength]
  split
  · exact ⟨_, _, rfl⟩
  · exact ⟨_, _, rfl⟩

/-- The three parts of the value, between their marker bits. -/
theorem readPts_eq (pts : ℕ) :
    (0x20 ||| 0x01 ||| (UInt8.ofNat (pts / 2 ^ 30) &&& 0x0E)).toNat / 2 % 8 * 2 ^ 30 +
        ((0 * 256 + (UInt8.ofNat (pts / 2 ^ 22)).toNat) * 256 +
          (0x01 ||| (UInt8.ofNat (pts / 2 ^ 14) &&& 0xFE)).toNat) / 2 * 2 ^ 15 +
        ((0 * 256 + (UInt8.ofNat (pts / 2 ^ 7)).toNat) * 256 +
          (0x01 ||| (UInt8.ofNat (pts * 2) &&& 0xFE)).toNat) / 2 = readPts pts := by
  have hhigh : ∀ b : UInt8, (0x20 ||| 0x01 ||| (b &&& 0x0E)).toNat / 2 % 8 = b.toNat / 2 % 8 :=
    forall_byte (by decide +kernel)
  have hlow : ∀ b : UInt8, (0x01 ||| (b &&& 0xFE)).toNat / 2 = b.toNat / 2 :=
    forall_byte (by decide +kernel)
  have hbyte : ∀ n, (UInt8.ofNat n).toNat = n % 256 := fun n => UInt8.toNat_ofNat'
  have hhalf : ∀ (a : ℕ) (b : UInt8), (a * 256 + b.toNat) / 2 = a * 128 + b.toNat / 2 := by omega
  have htop : pts / 2 ^ 30 % 256 / 2 % 8 = pts / 2 ^ 31 % 8 := by omega
  have hmiddle : pts / 2 ^ 22 % 256 * 128 + pts / 2 ^ 14 % 256 / 2 =
    pts / 2 ^ 15 % 2 ^ 15 := by omega
  have hbottom : pts / 2 ^ 7 % 256 * 128 + pts * 2 % 256 / 2 = pts % 2 ^ 15 := by omega
  have hthirty : pts % 2 ^ 30 = pts / 2 ^ 15 % 2 ^ 15 * 2 ^ 15 + pts % 2 ^ 15 := by omega
  rw [hhigh, hhalf, hhalf, hlow, hlow, hbyte, hbyte, hbyte, hbyte, hbyte, Nat.zero_mul,
    Nat.zero_add, Nat.zero_add, htop, hmiddle, hbottom, readPts, hthirty, Nat.add_assoc]

theorem pesPts_buildPes (timestamp : UInt64) (data rest : List UInt8) (isVideo : Bool) :
    pesPts (buildPes timestamp data isVideo ++ rest) = some (readPts (ptsValue timestamp)) := by
  obtain ⟨a, b, hlength⟩ := pesLength_eq data
  rw [pesPts, buildPes, hlength, if_pos ⟨rfl, (by decide : (0x80 : UInt8) &&& 0x80 ≠ 0)⟩]
  exact congrArg some (readPts_eq (ptsValue timestamp))

/-- The field of a PTS by ISO 13818-1: three bits and twice fifteen, with a marker bit behind each.
-/
def decodePts : List UInt8 → Option ℕ
  | [a, b, c, d, e] =>
    if a &&& 0xF1 = 0x21 ∧ c &&& 0x01 = 0x01 ∧ e &&& 0x01 = 0x01 then
      some (a.toNat / 2 % 8 * 2 ^ 30 + beNat [b, c] / 2 * 2 ^ 15 + beNat [d, e] / 2)
    else none
  | _ => none

/-- The field is well formed, whatever is read from it. -/
theorem decodePts_writePesTimestamp (timestamp : UInt64) :
    decodePts (writePesTimestamp 0x20 timestamp) = some (readPts (ptsValue timestamp)) := by
  have hfront : ∀ b : UInt8, (0x20 ||| 0x01 ||| (b &&& 0x0E)) &&& 0xF1 = 0x21 :=
    forall_byte (by decide +kernel)
  have hmarker : ∀ b : UInt8, (0x01 ||| (b &&& 0xFE)) &&& 0x01 = 0x01 :=
    forall_byte (by decide +kernel)
  rw [writePesTimestamp, decodePts, if_pos ⟨hfront _, hmarker _, hmarker _⟩]
  exact congrArg some (readPts_eq (ptsValue timestamp))

/-- The highest bits are read right if they are all the same. -/
theorem readPts_eq_mod_iff (pts : ℕ) :
    readPts pts = pts % 2 ^ 33 ↔ pts / 2 ^ 30 % 16 = 0 ∨ pts / 2 ^ 30 % 16 = 15 := by
  have hbits : ∀ bits < 16, bits / 2 = bits % 8 ↔ bits = 0 ∨ bits = 15 := by decide
  have hshift : pts / 2 ^ 31 % 8 = pts / 2 ^ 30 % 16 / 2 := by omega
  have hsame : pts % 2 ^ 33 = pts / 2 ^ 30 % 16 % 8 * 2 ^ 30 + pts % 2 ^ 30 := by omega
  rw [← hbits _ (Nat.mod_lt _ (by decide)), readPts, hshift, hsame, Nat.add_right_cancel_iff]
  exact Nat.mul_left_inj (by decide)

/-- What is read is the time in units of 90 kHz **exactly if bits 30 to 33 of it are the same**. -/
theorem decodePts_iff {timestamp : UInt64} (h : timestamp.toNat < 2 ^ 57) :
    decodePts (writePesTimestamp 0x20 timestamp) = some (timestamp.toNat * 90 % 2 ^ 33) ↔
      timestamp.toNat * 90 / 2 ^ 30 % 16 = 0 ∨ timestamp.toNat * 90 / 2 ^ 30 % 16 = 15 := by
  have hvalue : ptsValue timestamp = timestamp.toNat * 90 := by
    rw [ptsValue]
    omega
  rw [decodePts_writePesTimestamp, Option.some_inj, hvalue, readPts_eq_mod_iff]

theorem decodePts_second :
    ((1000 : UInt64).toNat < 2 ^ 57 ∧
      decodePts (writePesTimestamp 0x20 1000) = some ((1000 : UInt64).toNat * 90 % 2 ^ 33)) := by
  have hlt : (1000 : UInt64).toNat < 2 ^ 57 := by decide
  exact ⟨hlt, (decodePts_iff hlt).mpr (by decide)⟩

/-- At **three hours and 18 minutes** the bits above bit 29 are lost. -/
theorem decodePts_hours : ¬ ∀ timestamp : UInt64, timestamp.toNat < 2 ^ 57 →
    decodePts (writePesTimestamp 0x20 timestamp) = some (timestamp.toNat * 90 % 2 ^ 33) := by
  intro h
  have hread : decodePts (writePesTimestamp 0x20 11930465) = some 26 := by
    rw [decodePts_writePesTimestamp]
    decide
  have hwrong := hread.symm.trans (h 11930465 (by decide))
  exact absurd hwrong (by decide)

/-! ## Frames -/

/-- The calls that `HlsSession` and the recorder make for a frame. -/
def TsMuxer.muxFrame (mux : TsMuxer) (frame : MediaFrame) : TsMuxer × List UInt8 :=
  (mux.updatePcr frame.timestamp).frameToTs frame

theorem TsMuxer.ccVideo_muxFrame_lt {mux : TsMuxer} (hcc : mux.ccVideo < 16) (frame : MediaFrame) :
    (mux.muxFrame frame).1.ccVideo < 16 := by
  by_cases hpayload : framePayload frame = []
  · rw [muxFrame, frameToTs_of_eq_nil hpayload]
    dsimp only
    rw [updatePcr_ccVideo]
    exact hcc
  · rw [muxFrame, frameToTs_of_ne_nil hpayload, frameCc]
    cases frame.codec.isVideo with
    | false =>
      simp only [Bool.false_eq_true, if_false, updatePcr_ccVideo]
      exact hcc
    | true =>
      simp only [if_true, updatePcr_ccVideo]
      exact (packets_pesToTsPackets (framePid_lt _) true hcc _ (framePes_ne_nil frame)).cc_lt hcc

/-- The clock in the first packet and the timestamp of the PES packet are the time of the frame. -/
structure OnTimeline (timestamp : UInt64) (output : List UInt8) : Prop where
  pcr : (tsPackets output).head?.bind pcrBase = some (timestamp.toNat * 90 % 2 ^ 33)
  pts : pesPts ((tsPackets output).flatMap tsPayload) = some (timestamp.toNat * 90 % 2 ^ 33)

/-- The times that vanish from both, and at which the product does not saturate. -/
def Vanishes (timestamp : UInt64) : Prop :=
  timestamp.toNat % 2 ^ 33 = 0 ∧ timestamp.toNat * 90 < 2 ^ 64

instance (timestamp : UInt64) : Decidable (Vanishes timestamp) :=
  inferInstanceAs (Decidable (_ ∧ _))

/-- The clocks agree where the time vanishes up to its lowest 32 bits. -/
theorem clock_iff (t : ℕ) : t * 27000 % 2 ^ 64 % 2 ^ 33 = t * 90 % 2 ^ 33 ↔ 2 ^ 32 ∣ t := by
  have hdvd : (2 : ℕ) ^ 33 ∣ 2 ^ 64 := pow_dvd_pow 2 (by decide)
  have hle : t * 90 ≤ t * 27000 := Nat.mul_le_mul_left t (by decide)
  have hsub : t * 27000 - t * 90 = 2 * (t * 13455) := by omega
  have hcoprime : Nat.Coprime (2 ^ 32) 13455 := by decide
  rw [Nat.mod_mod_of_dvd _ hdvd, eq_comm]
  change t * 90 ≡ t * 27000 [MOD 2 ^ 33] ↔ _
  rw [Nat.modEq_iff_dvd' hle, hsub, pow_succ', Nat.mul_dvd_mul_iff_left Nat.two_pos,
    hcoprime.dvd_mul_right]

/-- Of a time whose lowest 33 bits vanish, bit 33 is read as bit 32. -/
theorem readPts_mul (k : ℕ) : readPts (2 ^ 33 * k) = k % 2 * 2 ^ 32 := by
  have hhigh : 2 ^ 33 * k / 2 ^ 31 % 8 = k % 2 * 4 := by omega
  have hlow : 2 ^ 33 * k % 2 ^ 30 = 0 := by omega
  rw [readPts, hhigh, hlow]
  omega

/-- At these times the PTS is right if bit 33 of the product is not set. -/
theorem readPts_iff (k : ℕ) :
    readPts (min (2 ^ 32 * k * 90) (2 ^ 64 - 1)) = 2 ^ 32 * k * 90 % 2 ^ 33 ↔
      2 ^ 32 * k % 2 ^ 33 = 0 ∧ 2 ^ 32 * k * 90 < 2 ^ 64 := by
  have hproduct : 2 ^ 32 * k * 90 = 2 ^ 33 * (45 * k) := by omega
  have hright : 2 ^ 33 * (45 * k) % 2 ^ 33 = 0 := Nat.mul_mod_right _ _
  have hparity : 2 ^ 32 * k % 2 ^ 33 = 0 ↔ 45 * k % 2 = 0 := by omega
  rw [hproduct, hright, hparity]
  by_cases hlt : 2 ^ 33 * (45 * k) < 2 ^ 64
  · rw [min_eq_left (Nat.le_sub_one_of_lt hlt), readPts_mul, and_iff_left hlt]
    omega
  · -- the product saturates
    have hmax : readPts (2 ^ 64 - 1) ≠ 0 := by decide
    rw [min_eq_right (by omega)]
    exact iff_of_false hmax fun h => hlt h.2

/-- What is written at a time against what should be. -/
theorem vanishes_iff (timestamp : UInt64) :
    (timestamp * 27000).toNat % 2 ^ 33 = timestamp.toNat * 90 % 2 ^ 33 ∧
      readPts (ptsValue timestamp) = timestamp.toNat * 90 % 2 ^ 33 ↔ Vanishes timestamp := by
  have hclock : (timestamp * 27000).toNat = timestamp.toNat * 27000 % 2 ^ 64 := by
    rw [UInt64.toNat_mul]
    rfl
  rw [hclock, clock_iff, ptsValue, Vanishes]
  constructor
  · rintro ⟨⟨k, hk⟩, hpts⟩
    rw [hk] at hpts ⊢
    exact (readPts_iff k).mp hpts
  · rintro ⟨hzero, hlt⟩
    obtain ⟨k, hk⟩ : 2 ^ 32 ∣ timestamp.toNat :=
      dvd_trans (pow_dvd_pow 2 (by decide)) (Nat.dvd_of_mod_eq_zero hzero)
    rw [hk] at hzero hlt ⊢
    exact ⟨dvd_mul_right _ _, (readPts_iff k).mpr ⟨hzero, hlt⟩⟩

/-- One frame. -/
theorem onTimeline_muxFrame_iff {mux : TsMuxer} (hcc : mux.ccVideo < 16) {frame : MediaFrame}
    (hvideo : frame.codec.isVideo) (hdata : frame.data ≠ []) :
    OnTimeline frame.timestamp (mux.muxFrame frame).2 ↔ Vanishes frame.timestamp := by
  have hpayload := (not_congr (TsMuxer.framePayload_eq_nil_iff hvideo)).mpr hdata
  have hpid := TsMuxer.framePid_lt frame.codec
  have hpes := TsMuxer.framePes_ne_nil frame
  have hout : (mux.muxFrame frame).2 = (pesToTsPackets (TsMuxer.framePes frame)
      (TsMuxer.framePid frame.codec) true mux.ccVideo (frame.timestamp * 27000)).1 := by
    rw [TsMuxer.muxFrame, TsMuxer.frameToTs_of_ne_nil hpayload, TsMuxer.frameCc, hvideo]
    simp only [if_true, TsMuxer.updatePcr_ccVideo, TsMuxer.updatePcr_pcrClock]
  have hpcr := pcrBase_pesToTsPackets (TsMuxer.framePid frame.codec) hcc (frame.timestamp * 27000)
    hpes
  have hpts : pesPts ((tsPackets (mux.muxFrame frame).2).flatMap tsPayload) =
      some (readPts (ptsValue frame.timestamp)) := by
    rw [hout, (packets_pesToTsPackets hpid true hcc _ hpes).payload_eq]
    exact pesPts_buildPes frame.timestamp _ _ _
  rw [← hout] at hpcr
  rw [← vanishes_iff]
  constructor
  · intro h
    exact ⟨Option.some_inj.mp (hpcr.symm.trans h.pcr), Option.some_inj.mp (hpts.symm.trans h.pts)⟩
  · rintro ⟨hclock, htime⟩
    exact ⟨hpcr.trans (congrArg some hclock), hpts.trans (congrArg some htime)⟩

/-- In every sequence of frames the clock and the timestamp of each frame of video are its time **if
and only if** all these times vanish from both. -/
theorem onTimeline_iff {mux : TsMuxer} (hcc : mux.ccVideo < 16) (frames : List MediaFrame) :
    (∀ x ∈ frames.zip (trace TsMuxer.muxFrame mux frames), x.1.codec.isVideo → x.1.data ≠ [] →
      OnTimeline x.1.timestamp x.2) ↔
      ∀ frame ∈ frames, frame.codec.isVideo → frame.data ≠ [] → Vanishes frame.timestamp := by
  induction frames generalizing mux with
  | nil => simp
  | cons frame frames ih =>
    rw [trace_cons, List.zip_cons_cons, List.forall_mem_cons, List.forall_mem_cons,
      ih (TsMuxer.ccVideo_muxFrame_lt hcc frame)]
    refine and_congr_left fun _ => ?_
    exact forall_congr' fun hvideo => forall_congr' fun hdata =>
      onTimeline_muxFrame_iff hcc hvideo hdata

/-- A frame of video at one second. -/
def frameAtSecond : MediaFrame :=
  .new "live/cam" 0 1000 [0x00, 0x00, 0x00, 0x01, 0x65, 0x88] true .h264

theorem onTimeline_second :
    TsMuxer.new.ccVideo < 16 ∧
      ((∀ x ∈ [frameAtSecond].zip (trace TsMuxer.muxFrame .new [frameAtSecond]), x.1.codec.isVideo →
        x.1.data ≠ [] → OnTimeline x.1.timestamp x.2) ↔
        ∀ frame ∈ [frameAtSecond], frame.codec.isVideo → frame.data ≠ [] →
            Vanishes frame.timestamp) :=
  ⟨by decide, onTimeline_iff (by decide) [frameAtSecond]⟩

/-- One second is 90000 as a PTS, and 27000000 as the base of the clock. -/
theorem not_onTimeline_second :
    ¬∀ (mux : TsMuxer) (frames : List MediaFrame), mux.ccVideo < 16 →
      ∀ x ∈ frames.zip (trace TsMuxer.muxFrame mux frames), x.1.codec.isVideo → x.1.data ≠ [] →
        OnTimeline x.1.timestamp x.2 := by
  intro hall
  have htimeline := hall .new [frameAtSecond] (by decide)
    (frameAtSecond, (TsMuxer.new.muxFrame frameAtSecond).2)
    (List.mem_singleton_self _) rfl (by decide)
  have hpcr := htimeline.pcr
  revert hpcr
  decide +kernel

end VcpMediaServer
