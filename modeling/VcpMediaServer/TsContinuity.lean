import Mathlib.Data.List.Iterate
import VcpMediaServer.Mealy
import VcpMediaServer.TsPackets

/-!
# Continuity counters

Each packet of a PID has the counter after that of the packet before it, through all calls of the
muxer: the counters are those of the PIDs, except that a frame of an **unknown** codec has the PID
of video and the counter of audio.

* `Advances` — what a call leaves: each PID counts on from its counter.
* `advances_call` — every call does that, if no frame of an unknown codec is muxed.
* `continuous_run` — and so does every run.
-/

namespace VcpMediaServer

open Mealy

/-! ## The counters of an output -/

/-- The counters of the packets of a PID. -/
def ccsOf (pid : ℕ) (output : List UInt8) : List UInt8 :=
  ((tsPackets output).filter fun packet => tsPid packet = pid).map tsCc

/-- In the packets of a PID each counter is one more than that before it, modulo 16. -/
def Continuous (pid : ℕ) (output : List UInt8) : Prop :=
  (ccsOf pid output).IsChain fun cc next => next.toNat = (cc.toNat + 1) % 16

theorem toNat_nextCc (cc : UInt8) : (nextCc cc).toNat = (cc.toNat + 1) % 16 := by
  have hall : ∀ b : UInt8, ((b + 1) &&& 0x0F).toNat = (b.toNat + 1) % 16 :=
    forall_byte (by decide +kernel)
  exact hall cc

theorem isChain_iterate (cc : UInt8) (n : ℕ) :
    (List.iterate nextCc cc n).IsChain fun cc next => next.toNat = (cc.toNat + 1) % 16 := by
  induction n generalizing cc with
  | zero => exact .nil
  | succ n ih =>
    cases n with
    | zero => exact .singleton cc
    | succ n => exact .cons_cons (toNat_nextCc cc) (ih (nextCc cc))

theorem tsPackets_append {output : List UInt8} (h : TS_PACKET_SIZE ∣ output.length)
    (rest : List UInt8) :
    tsPackets (output ++ rest) = tsPackets output ++ tsPackets rest := by
  obtain ⟨n, hn⟩ := h
  induction n generalizing output with
  | zero =>
    obtain rfl := List.length_eq_zero_iff.mp hn
    rw [List.nil_append, tsPackets, tsPackets, pieces_nil, List.nil_append]
  | succ n ih =>
    have hlen : (output.take TS_PACKET_SIZE).length = TS_PACKET_SIZE := by
      rw [List.length_take, hn]
      exact min_eq_left (Nat.le_mul_of_pos_right _ n.succ_pos)
    have hdrop : (output.drop TS_PACKET_SIZE).length = TS_PACKET_SIZE * n := by
      rw [List.length_drop, hn, Nat.mul_succ, Nat.add_sub_cancel]
    rw [← List.take_append_drop TS_PACKET_SIZE output, List.append_assoc, tsPackets_cons hlen,
      tsPackets_cons hlen, ih hdrop, List.cons_append]

namespace Packets

variable {pid : UInt16} {start : Bool} {cc cc' : UInt8} {payload output : List UInt8}

/-- The packets count from the first counter on, up to the next. -/
theorem cc_eq (h : Packets pid start cc payload output cc') :
    ∃ n, ccsOf pid.toNat output = List.iterate nextCc cc n ∧ cc' = nextCc^[n] cc := by
  induction h with
  | nil => exact ⟨0, by simp [ccsOf, tsPackets], rfl⟩
  | cons head tail ih =>
    obtain ⟨n, hcc, hnext⟩ := ih
    refine ⟨n + 1, ?_, hnext⟩
    rw [ccsOf, tsPackets_cons head.length, List.filter_cons_of_pos (by simp [head.pid]),
      List.map_cons, head.cc]
    exact congrArg _ hcc

theorem ccsOf_other (h : Packets pid start cc payload output cc') {p : ℕ} (hp : p ≠ pid.toNat) :
    ccsOf p output = [] := by
  rw [ccsOf, List.filter_eq_nil_iff.mpr, List.map_nil]
  intro packet hpacket
  rw [(h.pid_eq packet hpacket).2]
  simpa using hp.symm

end Packets

/-! ## Tables -/

/-- The packets of a table. -/
theorem packets_tableLoop {pid : UInt16} (hpid : pid < 0x2000) (start discontinuity : Bool)
    {cc : UInt8} (hcc : cc < 16) {fuel : ℕ} {payload : List UInt8} (hfuel : payload.length ≤ fuel) :
    Packets pid start cc payload (tableLoop pid fuel start discontinuity cc payload).1
      (tableLoop pid fuel start discontinuity cc payload).2 := by
  have hsize : TS_PACKET_SIZE = 188 := rfl
  induction fuel generalizing start discontinuity cc payload with
  | zero =>
    obtain rfl := List.length_eq_zero_iff.mp (Nat.le_zero.mp hfuel)
    exact .nil start cc
  | succ fuel ih =>
    rw [tableLoop]
    by_cases hne : payload = []
    · rw [if_pos hne, hne]
      exact .nil start cc
    have hpos := List.length_pos_of_ne_nil hne
    -- `n` bytes are taken in front of the rest
    have hturn : ∀ {n packet}, 0 < n → IsPacket pid start cc (payload.take n) packet →
        Packets pid start cc payload
          (packet ++ (tableLoop pid fuel false false (nextCc cc) (payload.drop n)).1)
          (tableLoop pid fuel false false (nextCc cc) (payload.drop n)).2 := by
      intro n packet hn hpacket
      have hfuel' : (payload.drop n).length ≤ fuel := by
        rw [List.length_drop]
        omega
      have hrest := Packets.cons hpacket (ih false false (nextCc_lt cc) hfuel')
      rwa [List.take_append_drop] at hrest
    rw [if_neg hne, tablePacket]
    dsimp only
    by_cases hfield : payload.length < TS_PACKET_SIZE - 4 ∨ discontinuity
    · rw [if_pos hfield]
      generalize hstuffing : (if discontinuity ∧ TS_PACKET_SIZE - 4 - payload.length < 2 then 2
        else TS_PACKET_SIZE - 4 - payload.length) = stuffing
      have hbounds : 0 < stuffing ∧ stuffing < TS_PACKET_SIZE - 4 ∧
          TS_PACKET_SIZE - 4 - payload.length ≤ stuffing := by
        rcases hfield with hshort | hdiscontinuity
        · split at hstuffing <;> omega
        · rw [hdiscontinuity] at hstuffing
          simp only [true_and] at hstuffing
          split at hstuffing <;> omega
      exact hturn
        (by omega) (isPacket_stuffed hpid hcc _ hbounds.1 (by rw [List.length_take]; omega))
    · rw [if_neg hfield]
      exact hturn (by omega) (isPacket_plain hpid hcc (by rw [List.length_take]; omega))

theorem packets_tsPacket {pid : UInt16} (hpid : pid < 0x2000) (start discontinuity : Bool)
    {cc : UInt8} (hcc : cc < 16) {payload : List UInt8} (hpayload : payload ≠ []) :
    Packets pid start cc payload (tsPacket pid start payload cc discontinuity).1
      (tsPacket pid start payload cc discontinuity).2 := by
  rw [tsPacket, if_neg hpayload]
  exact packets_tableLoop hpid start discontinuity hcc le_rfl

/-! ## Calls -/

/-- The calls of a `TsMuxer` but `hard_reset`. -/
inductive TsCall where
  | generatePat
  | generatePmt (hasVideo hasAudio : Bool)
  | generatePatPmt (hasVideo hasAudio : Bool)
  | frameToTs (frame : MediaFrame)
  | updatePcr (timestamp : UInt64)
  | markSegmentDiscontinuity
  | resetForNewSegment

namespace TsMuxer

/-- A call, and what it emits. -/
def call (mux : TsMuxer) : TsCall → TsMuxer × List UInt8
  | .generatePat => mux.generatePat
  | .generatePmt hasVideo hasAudio => mux.generatePmt hasVideo hasAudio
  | .generatePatPmt hasVideo hasAudio => mux.generatePatPmt hasVideo hasAudio
  | .frameToTs frame => mux.frameToTs frame
  | .updatePcr timestamp => (mux.updatePcr timestamp, [])
  | .markSegmentDiscontinuity => (mux.markSegmentDiscontinuity, [])
  | .resetForNewSegment => (mux.resetForNewSegment, [])

/-- The counter of a PID. -/
def counter (mux : TsMuxer) (pid : ℕ) : UInt8 :=
  if pid = PAT_PID.toNat then mux.ccPat
  else if pid = PMT_PID.toNat then mux.ccPmt
  else if pid = VIDEO_PID.toNat then mux.ccVideo
  else if pid = AUDIO_PID.toNat then mux.ccAudio
  else 0

theorem counter_updatePcr (mux : TsMuxer) (timestamp : UInt64) :
    (mux.updatePcr timestamp).counter = mux.counter := by
  funext pid
  rw [counter, counter, updatePcr]

/-- The calls that the counters of the PIDs count: no frame of an unknown codec is muxed. -/
def Counted : TsCall → Prop
  | .frameToTs frame => frame.codec = .unknown → frame.data = []
  | _ => True

end TsMuxer

/-- What leads from a muxer to another: whole packets, and each PID counts on from its counter. -/
structure Advances (mux mux' : TsMuxer) (output : List UInt8) : Prop where
  whole : TS_PACKET_SIZE ∣ output.length
  counts : ∀ pid, ∃ n, ccsOf pid output = List.iterate nextCc (mux.counter pid) n ∧
    mux'.counter pid = nextCc^[n] (mux.counter pid)

namespace Advances

variable {mux mux' mux'' : TsMuxer} {output output' : List UInt8}

/-- Nothing is emitted, and no counter changes. -/
theorem nothing (h : mux'.counter = mux.counter) : Advances mux mux' [] where
  whole := Nat.dvd_zero _
  counts pid := ⟨0, by simp [ccsOf, tsPackets], congrFun h pid⟩

/-- One call after another. -/
theorem trans (h : Advances mux mux' output) (h' : Advances mux' mux'' output') :
    Advances mux mux'' (output ++ output') where
  whole := by
    rw [List.length_append]
    exact Nat.dvd_add h.whole h'.whole
  counts pid := by
    obtain ⟨n, hcc, hnext⟩ := h.counts pid
    obtain ⟨n', hcc', hnext'⟩ := h'.counts pid
    refine ⟨n + n', ?_, ?_⟩
    · rw [List.iterate_add, ← hnext, ← hcc, ← hcc', ccsOf, tsPackets_append h.whole,
        List.filter_append, List.map_append]
      rfl
    · rw [hnext', hnext, Nat.add_comm, Function.iterate_add_apply]

/-- Packets of one PID, and nothing but its counter changes. -/
theorem of_packets {pid : UInt16} {start : Bool} {cc : UInt8} {payload : List UInt8}
    (h : Packets pid start (mux.counter pid.toNat) payload output cc)
    (hcounter : mux'.counter = Function.update mux.counter pid.toNat cc) :
    Advances mux mux' output where
  whole := h.dvd_length
  counts p := by
    by_cases hp : p = pid.toNat
    · obtain ⟨n, hcc, hnext⟩ := h.cc_eq
      rw [hcounter, hp, Function.update_self]
      exact ⟨n, hcc, hnext⟩
    · rw [hcounter, Function.update_of_ne hp]
      exact ⟨0, h.ccsOf_other hp, rfl⟩

/-- The counters keep to four bits. -/
theorem counter_lt (h : Advances mux mux' output) (hmux : ∀ pid, mux.counter pid < 16) (pid : ℕ) :
    mux'.counter pid < 16 := by
  obtain ⟨n, -, hnext⟩ := h.counts pid
  rw [hnext]
  cases n with
  | zero => exact hmux pid
  | succ n =>
    rw [Function.iterate_succ_apply']
    exact nextCc_lt _

/-- What is emitted is continuous. -/
theorem continuous (h : Advances mux mux' output) (pid : ℕ) : Continuous pid output := by
  obtain ⟨n, hcc, -⟩ := h.counts pid
  rw [Continuous, hcc]
  exact isChain_iterate _ n

end Advances

namespace TsMuxer

variable {mux : TsMuxer}

theorem counter_video (mux : TsMuxer) (cc : UInt8) :
    counter { mux with ccVideo := cc } = Function.update mux.counter VIDEO_PID.toNat cc := by
  funext pid
  by_cases h : pid = VIDEO_PID.toNat
  · rw [h, Function.update_self]
    rfl
  · rw [Function.update_of_ne h, counter, counter, if_neg h, if_neg h]

theorem counter_audio (mux : TsMuxer) (cc : UInt8) :
    counter { mux with ccAudio := cc } = Function.update mux.counter AUDIO_PID.toNat cc := by
  funext pid
  by_cases h : pid = AUDIO_PID.toNat
  · rw [h, Function.update_self]
    rfl
  · rw [Function.update_of_ne h, counter, counter, if_neg h, if_neg h]

theorem counter_pat (mux : TsMuxer) (cc : UInt8) (discontinuity : Bool) :
    counter { mux with ccPat := cc, segmentDiscontinuity := discontinuity } =
      Function.update mux.counter PAT_PID.toNat cc := by
  funext pid
  by_cases h : pid = PAT_PID.toNat
  · rw [h, Function.update_self]
    rfl
  · rw [Function.update_of_ne h, counter, counter, if_neg h, if_neg h]

theorem counter_pmt (mux : TsMuxer) (cc : UInt8) :
    counter { mux with ccPmt := cc } = Function.update mux.counter PMT_PID.toNat cc := by
  funext pid
  by_cases h : pid = PMT_PID.toNat
  · rw [h, Function.update_self]
    rfl
  · rw [Function.update_of_ne h, counter, counter, if_neg h, if_neg h]

theorem advances_generatePat (hmux : ∀ pid, mux.counter pid < 16) :
    Advances mux mux.generatePat.1 mux.generatePat.2 := by
  have hcc : mux.ccPat < 16 := hmux PAT_PID.toNat
  have hpid : PAT_PID < 0x2000 := by decide
  have hpackets := packets_tsPacket hpid true mux.segmentDiscontinuity hcc patPayload_ne_nil
  rw [generatePat_eq]
  exact Advances.of_packets hpackets (counter_pat mux _ false)

theorem advances_generatePmt (hmux : ∀ pid, mux.counter pid < 16) (hasVideo hasAudio : Bool) :
    Advances mux (mux.generatePmt hasVideo hasAudio).1 (mux.generatePmt hasVideo hasAudio).2 := by
  have hcc : mux.ccPmt < 16 := hmux PMT_PID.toNat
  have hpid : PMT_PID < 0x2000 := by decide
  have hpackets := packets_tsPacket hpid true false hcc (pmtPayload_ne_nil hasVideo hasAudio)
  rw [generatePmt_eq]
  exact Advances.of_packets hpackets (counter_pmt mux _)

theorem advances_generatePatPmt (hmux : ∀ pid, mux.counter pid < 16) (hasVideo hasAudio : Bool) :
    Advances mux (mux.generatePatPmt hasVideo hasAudio).1
        (mux.generatePatPmt hasVideo hasAudio).2 := by
  have hpat := advances_generatePat hmux
  rw [generatePatPmt_eq]
  exact hpat.trans (advances_generatePmt (hpat.counter_lt hmux) hasVideo hasAudio)

/-- A frame of a codec that is known has the PID and the counter of the same kind. -/
theorem frameCc_eq (mux : TsMuxer) {frame : MediaFrame} (hcodec : frame.codec ≠ .unknown) :
    mux.frameCc frame = mux.counter (framePid frame.codec).toNat := by
  rw [frameCc]
  cases hframe : frame.codec with
  | unknown => exact absurd hframe hcodec
  | _ => rfl

theorem advances_frameToTs (hmux : ∀ pid, mux.counter pid < 16) {frame : MediaFrame}
    (hframe : frame.codec = .unknown → frame.data = []) :
    Advances mux (mux.frameToTs frame).1 (mux.frameToTs frame).2 := by
  by_cases hpayload : framePayload frame = []
  · rw [frameToTs_of_eq_nil hpayload]
    exact .nothing rfl
  have hcodec : frame.codec ≠ .unknown := by
    intro h
    apply hpayload
    rw [framePayload, h, if_neg (by decide), if_neg (by decide)]
    exact hframe h
  have hcc := frameCc_eq mux hcodec
  have hlt : mux.frameCc frame < 16 := by
    rw [hcc]
    exact hmux _
  have hpackets :=
    packets_pesToTsPackets (framePid_lt frame.codec) frame.codec.isVideo hlt mux.pcrClock
    (framePes_ne_nil frame)
  rw [frameToTs_of_ne_nil hpayload]
  generalize pesToTsPackets (framePes frame) (framePid frame.codec) frame.codec.isVideo
    (mux.frameCc frame) mux.pcrClock = packets at hpackets
  rw [hcc] at hpackets
  apply Advances.of_packets hpackets
  cases hkind : frame.codec with
  | h264 => exact counter_video mux packets.2
  | h265 => exact counter_video mux packets.2
  | aac => exact counter_audio mux packets.2
  | opus => exact counter_audio mux packets.2
  | g711 => exact counter_audio mux packets.2
  | unknown => exact absurd hkind hcodec

/-- One call. -/
theorem advances_call (hmux : ∀ pid, mux.counter pid < 16) {c : TsCall} (hc : Counted c) :
    Advances mux (mux.call c).1 (mux.call c).2 := by
  cases c with
  | generatePat => exact advances_generatePat hmux
  | generatePmt hasVideo hasAudio => exact advances_generatePmt hmux hasVideo hasAudio
  | generatePatPmt hasVideo hasAudio => exact advances_generatePatPmt hmux hasVideo hasAudio
  | frameToTs frame => exact advances_frameToTs hmux hc
  | updatePcr timestamp => exact .nothing (counter_updatePcr mux timestamp)
  | markSegmentDiscontinuity => exact .nothing rfl
  | resetForNewSegment => exact .nothing rfl

/-- A run of calls. -/
theorem advances_run (hmux : ∀ pid, mux.counter pid < 16) {calls : List TsCall}
    (hcalls : ∀ c ∈ calls, Counted c) :
    Advances mux (final call mux calls) (trace call mux calls).flatten := by
  induction calls generalizing mux with
  | nil => exact .nothing rfl
  | cons c calls ih =>
    obtain ⟨hc, hcalls⟩ := List.forall_mem_cons.mp hcalls
    have hcall := advances_call hmux hc
    exact hcall.trans (ih (hcall.counter_lt hmux) hcalls)

theorem counter_new (pid : ℕ) : new.counter pid = 0 := by
  unfold counter
  split_ifs <;> rfl

end TsMuxer

/-- In every run without a frame of an unknown codec the counters of every PID are continuous. -/
theorem continuous_run {calls : List TsCall} (hcalls : ∀ c ∈ calls, TsMuxer.Counted c) (pid : ℕ) :
    Continuous pid (trace TsMuxer.call .new calls).flatten :=
  (TsMuxer.advances_run (fun pid => by rw [TsMuxer.counter_new]; decide) hcalls).continuous pid

/-- The tables, video over several packets, audio, and video again. -/
def threeFrames : List TsCall :=
  [.generatePatPmt true true,
    .frameToTs (.new "live/cam" 0 0 ([0, 0, 0, 1, 0x65] ++ List.replicate 300 0x88) true .h264),
    .frameToTs (.new "live/cam" 1 0 [0x21, 0x10] false .aac),
    .frameToTs (.new "live/cam" 0 3600 [0x00, 0x00, 0x00, 0x01, 0x41, 0x9A] false .h264)]

theorem continuous_threeFrames :
    (∀ c ∈ threeFrames, TsMuxer.Counted c) ∧
      Continuous 0x100 (trace TsMuxer.call .new threeFrames).flatten := by
  have hcounted : ∀ c ∈ threeFrames, TsMuxer.Counted c := by
    simp [threeFrames, TsMuxer.Counted, MediaFrame.new, -List.reduceReplicate]
  exact ⟨hcounted, continuous_run hcounted 0x100⟩

/-- Frames of an unknown codec and of video: both have the PID of video and the counter 0. -/
theorem not_continuous_unknown :
    ¬∀ (calls : List TsCall) (pid : ℕ), Continuous pid (trace TsMuxer.call .new calls).flatten := by
  intro hall
  have hcontinuous := hall
    [.frameToTs (.new "live/cam" 2 0 [0x01] false .unknown),
      .frameToTs (.new "live/cam" 0 0 [0x00, 0x00, 0x00, 0x01, 0x65, 0x88] true .h264)] 0x100
  revert hcontinuous
  rw [Continuous]
  decide +kernel

end VcpMediaServer
