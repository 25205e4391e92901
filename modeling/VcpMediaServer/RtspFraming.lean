import Mathlib.Data.List.GetD
import VcpMediaServer.Bytes
import VcpMediaServer.Incremental
import VcpMediaServer.Text

/-!
# The framing of RTSP

On one TCP connection a client sends requests and, between them, interleaved packets. What comes
next is told by the first byte: a packet begins with a dollar and has its length in front, a request
ends with its header, or with the body whose length the header names.

* `nextItem` — what is at the front of the buffer, if it is complete.
* `nextItem_append` — bytes behind it do not change it.
* `readLoop` — the loop, on the reads of the connection.
* `readLoop_reads` — the loop does not see how the stream was cut into reads.
-/

namespace VcpMediaServer

open Incremental

/-! ## One item -/

/-- What the loop takes off the buffer. -/
inductive RtspItem where
  /-- A packet, with its four bytes of framing. -/
  | interleaved (channel : UInt8) (packet : List UInt8)
  /-- A request: its header, and its body. -/
  | request (data : List UInt8)
  deriving DecidableEq, Repr

/-- The bytes of an item. -/
def RtspItem.bytes : RtspItem → List UInt8
  | .interleaved _ packet => packet
  | .request data => data

/-- `windows(..).position(..)`: where the pattern is found first. -/
def position (pattern : List UInt8) : List UInt8 → Option ℕ
  | [] => none
  | b :: rest => if pattern.isPrefixOf (b :: rest) then some 0
    else (position pattern rest).map (· + 1)

/-- The end of a header. -/
def CRLF_CRLF : List UInt8 := [0x0D, 0x0A, 0x0D, 0x0A]

/-- The number of values of a `usize`. -/
def USIZE_VALUES : ℕ := 2 ^ 64

/-- `parse_content_length`. A line is lowered in ASCII: no other letter is lowered to one of the
name. -/
def parseContentLength (buf : List UInt8) (headerEnd : ℕ) : ℕ :=
  let header := lossyChars 0 (buf.take headerEnd)
  match (Text.lines header).find? fun l =>
    "content-length:".toList.isPrefixOf (l.map Char.toLower) with
  | none => 0
  | some l =>
    match (l.splitOn ':')[1]? with
    | none => 0
    | some value => (Text.parseUnsigned USIZE_VALUES (Text.trim value)).getD 0

/-- The front of the buffer, and what is behind it. The length of a request is a `usize`, which
**wraps**. -/
def nextItem (buf : List UInt8) : Option (RtspItem × List UInt8) :=
  match buf with
  | [] => none
  | first :: _ =>
    if first = 0x24 then
      if 4 ≤ buf.length then
        let packetLength := 4 + beNat (slice buf 2 2)
        if packetLength ≤ buf.length then
          some (.interleaved (buf.getD 1 0) (buf.take packetLength), buf.drop packetLength)
        else none
      else none
    else
      match position CRLF_CRLF buf with
      | none => none
      | some pos =>
        let totalLength := (pos + 4 + parseContentLength buf pos) % USIZE_VALUES
        if totalLength ≤ buf.length then some
          (.request (buf.take totalLength), buf.drop totalLength) else none

example : nextItem ("A\r\nContent-Length: 2\r\n\r\n$\n$".toUTF8.toList) =
    some (.request "A\r\nContent-Length: 2\r\n\r\n$\n".toUTF8.toList, [0x24]) := by decide +kernel

/-- Where a pattern is found first, it is found first in a longer buffer. -/
theorem position_append {pattern buf : List UInt8} {n : ℕ} (h : position pattern buf = some n)
    (more : List UInt8) : position pattern (buf ++ more) = some n ∧
        n + pattern.length ≤ buf.length := by
  induction buf generalizing n with
  | nil => cases h
  | cons b rest ih =>
    rw [position] at h
    rw [List.cons_append, position]
    have hlonger : b :: rest <+: b :: (rest ++ more) := ⟨more, rfl⟩
    split at h
    · next hfound =>
      obtain rfl := Option.some.inj h
      have hfront := List.isPrefixOf_iff_prefix.mp hfound
      rw [if_pos (List.isPrefixOf_iff_prefix.mpr (hfront.trans hlonger)), Nat.zero_add]
      exact ⟨rfl, hfront.length_le⟩
    · next hnot =>
      obtain ⟨m, hm, rfl⟩ := Option.map_eq_some_iff.mp h
      obtain ⟨hrest, hle⟩ := ih hm
      -- there is room for the pattern further on
      have hnot' := Text.not_isPrefixOf_append hnot (by rw [List.length_cons]; omega) more
      rw [List.cons_append] at hnot'
      rw [if_neg hnot', hrest, List.length_cons]
      exact ⟨rfl, by omega⟩

/-- The length of the body is told by the header. -/
theorem parseContentLength_append {buf : List UInt8} {headerEnd : ℕ} (h : headerEnd ≤ buf.length)
    (more : List UInt8) : parseContentLength (buf ++ more) headerEnd =
        parseContentLength buf headerEnd := by
  rw [parseContentLength, parseContentLength, List.take_append_of_le_length h]

/-- Bytes behind the front **do not change it**. -/
theorem nextItem_append {buf rest : List UInt8} {item : RtspItem}
    (h : nextItem buf = some (item, rest)) (more : List UInt8) :
    nextItem (buf ++ more) = some (item, rest ++ more) := by
  rcases buf with _ | ⟨first, tail⟩
  · cases h
  have hmore : (first :: tail) ++ more = first :: (tail ++ more) := rfl
  have hlen : ((first :: tail) ++ more).length = (first :: tail).length + more.length :=
    List.length_append
  rw [nextItem] at h
  rw [hmore, nextItem, ← hmore]
  generalize first :: tail = buf at h hlen ⊢
  split at h
  · next hdollar =>
    rw [if_pos hdollar]
    split at h
    · next hframe =>
      have hslice : slice (buf ++ more) 2 2 = slice buf 2 2 := slice_append hframe more
      rw [if_pos (by omega), hslice]
      dsimp only at h ⊢
      split at h
      · next hpacket =>
        obtain ⟨rfl, rfl⟩ := Prod.mk.inj (Option.some.inj h)
        rw [if_pos (by omega), List.take_append_of_le_length hpacket,
          List.drop_append_of_le_length hpacket, List.getD_append _ _ _ _ (by omega)]
      · cases h
    · cases h
  · next hdollar =>
    rw [if_neg hdollar]
    cases hpos : position CRLF_CRLF buf with
    | none =>
      rw [hpos] at h
      cases h
    | some pos =>
      obtain ⟨hfound, hle⟩ := position_append hpos more
      rw [hpos] at h
      rw [hfound]
      dsimp only at h ⊢
      rw [parseContentLength_append (Nat.le_of_add_right_le hle)]
      split at h
      · next htotal =>
        obtain ⟨rfl, rfl⟩ := Prod.mk.inj (Option.some.inj h)
        rw [if_pos (by omega), List.take_append_of_le_length htotal,
          List.drop_append_of_le_length htotal]
      · cases h

/-- An item is what is taken off the front. -/
theorem bytes_nextItem {buf rest : List UInt8} {item : RtspItem}
    (h : nextItem buf = some (item, rest)) :
    item.bytes ++ rest = buf := by
  rcases buf with _ | ⟨first, tail⟩
  · cases h
  rw [nextItem] at h
  generalize first :: tail = buf at h ⊢
  split at h
  · split at h
    · dsimp only at h
      split at h
      · obtain ⟨rfl, rfl⟩ := Prod.mk.inj (Option.some.inj h)
        exact List.take_append_drop _ _
      · cases h
    · cases h
  · split at h
    · cases h
    · dsimp only at h
      split at h
      · obtain ⟨rfl, rfl⟩ := Prod.mk.inj (Option.some.inj h)
        exact List.take_append_drop _ _
      · cases h

/-! ## The loop -/

section Loop

variable {σ : Type}

/-- One turn of the inner loop: an item is taken and processed; `process` gives no state where it
returns an error, which ends the loop. -/
def readStep (process : σ → RtspItem → Option σ) :
    Option σ → List UInt8 → Option (Option σ × List UInt8 × List RtspItem)
  | none, _ => none
  | some s, buf => (nextItem buf).map fun (item, rest) => (process s item, rest, [item])

/-- `read_loop`: its first `n` items, and the state after them. A read of no bytes is the end of the
connection. -/
def readLoop (process : σ → RtspItem → Option σ) (n : ℕ) (s : σ) (reads : List (List UInt8)) :
    List RtspItem × Option σ :=
  runUpTo (readStep process) n (some s) [] (reads.takeWhile (· ≠ []))

/-- The stream that arrives before the end of the connection. -/
def received (reads : List (List UInt8)) : List UInt8 := (reads.takeWhile (· ≠ [])).flatten

theorem readStep_extends (process : σ → RtspItem → Option σ) : Extends (readStep process) := by
  intro s buf s' rest out h more
  cases s with
  | none => cases h
  | some s =>
    obtain ⟨⟨item, rest'⟩, hitem, heq⟩ := Option.map_eq_some_iff.mp h
    obtain ⟨rfl, rfl, rfl⟩ : process s item = s' ∧ rest' = rest ∧ [item] = out := by simpa using heq
    rw [readStep, nextItem_append hitem, Option.map_some]

theorem bytes_readStep (process : σ → RtspItem → Option σ) {s s' : Option σ} {buf rest : List UInt8}
    {out : List RtspItem} (h : readStep process s buf = some (s', rest, out)) :
    out.flatMap RtspItem.bytes ++ rest = buf := by
  cases s with
  | none => cases h
  | some s =>
    obtain ⟨⟨item, rest'⟩, hitem, heq⟩ := Option.map_eq_some_iff.mp h
    obtain ⟨-, rfl, rfl⟩ : process s item = s' ∧ rest' = rest ∧ [item] = out := by simpa using heq
    rw [List.flatMap_singleton]
    exact bytes_nextItem hitem

/-- The items are those of the stream. -/
theorem readLoop_eq (process : σ → RtspItem → Option σ) (n : ℕ) (s : σ)
    (reads : List (List UInt8)) :
    readLoop process n s reads =
      ((drainUpTo (readStep process) n (some s) (received reads)).1.1,
        (drainUpTo (readStep process) n (some s) (received reads)).1.2.1) :=
  runUpTo_flatten (readStep_extends process) (.inr rfl) _

theorem received_singleton (reads : List (List UInt8)) :
    received [received reads] = received reads := by
  by_cases h : received reads = []
  · rw [h]
    rfl
  · rw [received, List.takeWhile_cons_of_pos (by simpa using h)]
    exact List.append_nil _

/-- The loop takes what it would take of the whole stream in **one read**, whatever is done with the
items, and their bytes in order are the beginning of the stream. -/
theorem readLoop_reads (process : σ → RtspItem → Option σ) (n : ℕ) (s : σ)
    (reads : List (List UInt8)) :
    readLoop process n s reads = readLoop process n s [received reads] ∧
      (readLoop process n s reads).1.flatMap RtspItem.bytes <+: received reads := by
  refine ⟨?_, ?_⟩
  · rw [readLoop_eq, readLoop_eq, received_singleton]
  · rw [readLoop_eq]
    exact ⟨_, drainUpTo_bytes (fun _ _ _ _ _ => bytes_readStep process) n (some s) (received reads)⟩

end Loop

end VcpMediaServer
