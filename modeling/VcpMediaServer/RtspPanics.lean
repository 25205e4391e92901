import VcpMediaServer.Lts
import VcpMediaServer.RtspReplyPath

/-!
# Panics of an RTSP connection

`read_loop` in a build with **overflow checks**, with everything that is done to the bytes of a
peer. The length of a body comes from the peer, and the framing makes a sum with it.

* `Checked.nextItem_of_fits`, `Checked.nextItem_of_not_fits` — the framing.
* `RtspConn` — a connection, turn by turn.
* `RtspConn.survives_iff_fits` — along every run nothing panics **exactly if** the sum fits.
-/

namespace VcpMediaServer

open Lts

/-- The length of the request in front of the buffer is a number. -/
def FrameFits (buf : List UInt8) : Prop :=
  buf.head? ≠ some 0x24 →
    ∀ pos, position CRLF_CRLF buf = some pos → pos + 4 + parseContentLength buf pos < USIZE_VALUES

namespace Checked

/-- `split_to`. -/
def splitTo (buf : List UInt8) (n : ℕ) : Option (List UInt8 × List UInt8) :=
  if n ≤ buf.length then some (buf.take n, buf.drop n) else none

/-- One turn of the inner loop up to the item. `none` is a panic, `some none` an incomplete front.
-/
def nextItem (buf : List UInt8) : Option (Option (RtspItem × List UInt8)) :=
  match buf with
  | [] => some none
  | first :: _ =>
    if first = 0x24 then
      if 4 ≤ buf.length then do
        let channel ← index buf 1
        let length ← be16 buf 2
        let packetLength ← addUsize 4 length
        if packetLength ≤ buf.length then do
          let (packet, rest) ← splitTo buf packetLength
          return some (.interleaved channel packet, rest)
        else return none
      else return none
    else
      match position CRLF_CRLF buf with
      | none => return none
      | some pos => do
        let _header ← range buf 0 pos
        let headerLength ← addUsize pos 4
        let totalLength ← addUsize headerLength (parseContentLength buf pos)
        if totalLength ≤ buf.length then do
          let (data, rest) ← splitTo buf totalLength
          return some (.request data, rest)
        else return none

theorem splitTo_of_le {buf : List UInt8} {n : ℕ} (h : n ≤ buf.length) :
    splitTo buf n = some (buf.take n, buf.drop n) := if_pos h

/-- The length of a packet has two bytes. -/
theorem beNat_slice_lt (buf : List UInt8) (offset : ℕ) : beNat (slice buf offset 2) < 2 ^ 16 := by
  have hlen : (slice buf offset 2).length ≤ 2 := List.length_take_le 2 _
  exact (beNat_lt _).trans_le (Nat.pow_le_pow_right (by omega) hlen)

/-- The header is inside of the buffer. -/
theorem range_header {buf : List UInt8} {pos : ℕ} (h : position CRLF_CRLF buf = some pos) :
    range buf 0 pos = some (slice buf 0 pos) := by
  have hle := (position_append h []).2
  have hrange : range buf 0 (0 + pos) = some (slice buf 0 pos) := range_of_le (by omega)
  rwa [Nat.zero_add] at hrange

/-- Where the length is a number, the framing does what it does without the checks. -/
theorem nextItem_of_fits {buf : List UInt8} (h : FrameFits buf) :
    nextItem buf = some (VcpMediaServer.nextItem buf) := by
  rcases buf with _ | ⟨first, tail⟩
  · rfl
  have hhead : (first :: tail).head? = some first := rfl
  rw [nextItem, VcpMediaServer.nextItem]
  rw [FrameFits, hhead] at h
  generalize first :: tail = buf at h ⊢
  by_cases hdollar : first = 0x24
  · rw [if_pos hdollar, if_pos hdollar]
    by_cases hframe : 4 ≤ buf.length
    · rw [if_pos hframe, if_pos hframe, index_of_lt (by omega), be16_of_le hframe]
      have hlen := beNat_slice_lt buf 2
      simp only [Option.bind_eq_bind, Option.bind_some]
      rw [addUsize_of_lt (by omega)]
      simp only [Option.bind_some]
      split
      · next hle => rw [splitTo_of_le hle]; rfl
      · rfl
    · rw [if_neg hframe, if_neg hframe]
      rfl
  · rw [if_neg hdollar, if_neg hdollar]
    cases hpos : position CRLF_CRLF buf with
    | none => rfl
    | some pos =>
      have hfits := h (by simpa using hdollar) pos hpos
      simp only [range_header hpos, Option.bind_eq_bind, Option.bind_some]
      rw [addUsize_of_lt (by rw [USIZE_VALUES] at hfits; omega)]
      simp only [Option.bind_some]
      rw [addUsize_of_lt hfits, Nat.mod_eq_of_lt hfits]
      simp only [Option.bind_some]
      split
      · next hle => rw [splitTo_of_le hle]; rfl
      · rfl

/-- Where it is not, the framing panics. -/
theorem nextItem_of_not_fits {buf : List UInt8} (h : ¬ FrameFits buf) : nextItem buf = none := by
  simp only [FrameFits, not_forall] at h
  obtain ⟨hhead, pos, hpos, hsum⟩ := h
  rcases buf with _ | ⟨first, tail⟩
  · cases hpos
  have hdollar : first ≠ 0x24 := by simpa using hhead
  rw [nextItem]
  generalize first :: tail = buf at hpos hsum ⊢
  rw [if_neg hdollar, hpos]
  simp only [range_header hpos, Option.bind_eq_bind, Option.bind_some]
  by_cases hheader : pos + 4 < 2 ^ 64
  · rw [addUsize_of_lt hheader, Option.bind_some, addUsize_of_not_lt hsum]
    rfl
  · rw [addUsize_of_not_lt hheader]
    rfl

end Checked

/-! ## A connection -/

/-- What `read_loop` works on: the streams, the session, and the buffer. -/
structure RtspConn where
  /-- The streams. -/
  manager : StreamManager
  /-- The session. -/
  ss : RtspServerSession
  /-- The buffer. -/
  buffer : List UInt8

/-- What happens at a connection. -/
inductive RtspConnEvent where
  /-- A read, when there is nothing complete in the buffer. -/
  | read (bytes : List UInt8)
  /-- A turn of the inner loop. -/
  | turn (env : RequestEnv)
  /-- The other connections, and what they make of the streams. -/
  | others (manager : StreamManager)

namespace RtspConn

/-- One event. A turn that panics leads nowhere. -/
def step (s : RtspConn) : RtspConnEvent → Option RtspConn
  | .read bytes =>
    if Checked.nextItem s.buffer = some none then some { s with buffer := s.buffer ++ bytes }
      else none
  | .turn env => do
    let item ← Checked.nextItem s.buffer
    match item with
    | none => none
    | some (.interleaved channel packet, buffer) => do
      let (manager, ss) ← RtspServerSession.handleRtpData s.manager s.ss packet channel
      return { manager, ss, buffer }
    | some (.request data, buffer) => do
      let (manager, ss, _) ← Checked.processRequest env s.manager s.ss data
      return { manager, ss, buffer }
  | .others manager => some { s with manager }

/-- The request that is complete at the front of the buffer. -/
def request (s : RtspConn) : Option (List UInt8) :=
  match nextItem s.buffer with
  | some (.request data, _) => some data
  | _ => none

/-- A turn does not panic: not in the framing, nor where a request is handled, from its bytes to the
reply that is sent. -/
def Survives (s : RtspConn) : RtspConnEvent → Prop
  | .turn env =>
    (Checked.nextItem s.buffer).isSome ∧
      ∀ data ∈ s.request, (Checked.processRequest env s.manager s.ss data).isSome
  | _ => True

/-- The length of the request is a number. -/
def Fits (s : RtspConn) : RtspConnEvent → Prop
  | .turn _ => FrameFits s.buffer
  | _ => True

/-- What a turn takes from outside: the libraries do what they are for, and a text has less than
`USIZE_VALUES` bytes. -/
def Libraries (s : RtspConn) : RtspConnEvent → Prop
  | .turn env =>
    env.Sound ∧ ∀ data ∈ s.request, ∀ result ∈ Checked.buildResponse env s.manager s.ss data,
      Text.byteLen (result.2.2.written env.built) < USIZE_VALUES
  | _ => True

/-- A request is handled **whatever it says**, as one that was read, and its reply is sent. -/
theorem exists_processRequest {env : RequestEnv} {m : StreamManager} {ss : RtspServerSession}
    {data : List UInt8} (henv : env.Sound) (hnamed : ss.session.Named)
    (hfit : ∀ result ∈ Checked.buildResponse env m ss data,
      Text.byteLen (result.2.2.written env.built) < USIZE_VALUES) :
    ∃ req sent,
      Checked.processRequest env m ss data =
          some ((ss.processRequest m req env.peerAddr env.newId).1,
            (ss.processRequest m req env.peerAddr env.newId).2.1, sent) ∧
        (ss.processRequest m req env.peerAddr env.newId).2.1.session.Named := by
  obtain ⟨req, r, hbuild, hnamed', hclean⟩ := Checked.exists_buildResponse henv hnamed m data
  obtain ⟨r', -, -, hsent⟩ := Checked.processRequest_eq hbuild hclean (hfit _ hbuild)
  exact ⟨req, _, hsent, hnamed'⟩

/-- One event. -/
theorem survives_iff {s : RtspConn} {e : RtspConnEvent} (hnamed : s.ss.session.Named)
    (hlib : s.Libraries e) :
    s.Survives e ↔ s.Fits e := by
  cases e with
  | read bytes => exact Iff.rfl
  | others manager => exact Iff.rfl
  | turn env =>
    have hrequest :
        ∀ data ∈ s.request, (Checked.processRequest env s.manager s.ss data).isSome := by
      intro data hdata
      obtain ⟨req, sent, hsent, -⟩ := exists_processRequest hlib.1 hnamed (hlib.2 data hdata)
      rw [hsent]
      rfl
    by_cases hfits : FrameFits s.buffer
    · simpa [Survives, Fits, Checked.nextItem_of_fits hfits, hfits] using hrequest
    · simp [Survives, Fits, Checked.nextItem_of_not_fits hfits, hfits]

/-- A turn leaves names without whitespace. -/
theorem named_step {s s' : RtspConn} {e : RtspConnEvent} (hnamed : s.ss.session.Named)
    (hlib : s.Libraries e) (hfits : s.Fits e) (h : s.step e = some s') : s'.ss.session.Named := by
  cases e with
  | read bytes =>
    obtain ⟨-, h⟩ := Option.ite_none_right_eq_some.mp h
    obtain rfl := Option.some.inj h
    exact hnamed
  | others manager =>
    obtain rfl := Option.some.inj h
    exact hnamed
  | turn env =>
    have hnext : Checked.nextItem s.buffer = some (nextItem s.buffer) :=
      Checked.nextItem_of_fits hfits
    simp only [step, hnext, Option.bind_eq_bind, Option.bind_some] at h
    split at h
    · cases h
    · -- a packet leaves the session alone
      obtain ⟨⟨manager, ss⟩, hpacket, h⟩ := Option.bind_eq_some_iff.mp h
      obtain rfl := Option.some.inj h
      rw [(RtspServerSession.handleRtpData_spec hpacket).1]
      exact hnamed
    · next data buffer hitem =>
      have hdata : data ∈ s.request := by simp [request, hitem]
      obtain ⟨req, sent, hsent, hnamed'⟩ := exists_processRequest hlib.1 hnamed (hlib.2 data hdata)
      rw [hsent] at h
      obtain rfl := Option.some.inj h
      exact hnamed'

/-- Along every run of a connection, from every state that has no whitespace in the names of its
session, nothing panics **exactly if** at every turn the length of the request is a number. -/
theorem survives_iff_fits {s : RtspConn} (hnamed : s.ss.session.Named) {events : List RtspConnEvent}
    (hlib : Always step Libraries s events) :
    Always step Survives s events ↔ Always step Fits s events :=
  always_iff_of_always (I := fun s => s.ss.session.Named) (fun _ _ hI hH => survives_iff hI hH)
    (fun _ _ _ hI hH hG hs => named_step hI hH hG hs) hnamed hlib

/-- A body of one byte that is not UTF-8. The character that stands for it is longer than the body.
-/
def notUtf8 : List UInt8 :=
  "ANNOUNCE * RTSP/1.0\r\nContent-Length: 1\r\n\r\n".toUTF8.toList ++ [0xC3]

/-- A new connection survives it. -/
theorem survives_notUtf8 :
    Always step Survives ⟨.new, .new, []⟩ [.read notUtf8, .turn asciiEnv] := by
  have hread : step ⟨.new, .new, []⟩ (.read notUtf8) = some ⟨.new, .new, notUtf8⟩ := rfl
  have hlib : Always step Libraries ⟨.new, .new, []⟩ [.read notUtf8, .turn asciiEnv] := by
    refine ⟨trivial, fun s' hs' => ?_⟩
    obtain rfl := Option.some.inj (hread.symm.trans hs')
    exact ⟨⟨sound_asciiEnv, by decide +kernel⟩, fun _ _ => trivial⟩
  have hfits : Always step Fits ⟨.new, .new, []⟩ [.read notUtf8, .turn asciiEnv] := by
    refine ⟨trivial, fun s' hs' => ?_⟩
    obtain rfl := Option.some.inj (hread.symm.trans hs')
    have hsum : ∀ pos ∈ position CRLF_CRLF notUtf8,
        pos + 4 + parseContentLength notUtf8 pos < USIZE_VALUES := by decide +kernel
    exact ⟨fun _ pos hpos => hsum pos hpos, fun _ _ => trivial⟩
  exact (survives_iff_fits RtspSession.named_new hlib).mpr hfits

/-- A length that is the greatest number there is. -/
def hugeLength : List UInt8 :=
  "OPTIONS * RTSP/1.0\r\nContent-Length: 18446744073709551615\r\n\r\n".toUTF8.toList

/-- A new connection does not survive it. -/
theorem not_survives_hostile :
    ¬ Always step Survives ⟨.new, .new, []⟩ [.read hugeLength, .turn asciiEnv] := by
  intro h
  have hturn := (h.2 ⟨.new, .new, hugeLength⟩ rfl).1
  exact absurd hturn.1 (by decide +kernel)

end RtspConn

end VcpMediaServer
