import VcpMediaServer.Bytes

/-!
# FLV files

The grammar: a header of nine bytes and the size of no tag, then tags, each with its size behind it.
A timestamp has 32 bits, **the highest of which stand last**.

* `Tag.bytes`, `header` — a file, piece by piece.
* `parseFile` — the reader, which takes a file to its end or not at all.
* `parseFile_bytes` — what is written is read.
-/

namespace Flv

open VcpMediaServer (beNat toBe beNat_toBe_of_lt length_toBe toBe_add)

/-- A tag: its type, its time and its payload. -/
structure Tag where
  /-- Audio, video or script data. -/
  tagType : UInt8
  /-- The time. -/
  timestamp : UInt32
  /-- What it carries. -/
  payload : List UInt8
  deriving DecidableEq

/-- The types of tags: audio, video and script data. -/
def tagTypes : List UInt8 := [0x08, 0x09, 0x12]

/-- The tags that can be written. -/
structure Tag.Valid (tag : Tag) : Prop where
  tagType : tag.tagType ∈ tagTypes
  size : tag.payload.length < 2 ^ 24

/-- A tag with its size behind it. -/
def Tag.bytes (tag : Tag) : List UInt8 :=
  tag.tagType :: (toBe 3 tag.payload.length ++ (toBe 3 tag.timestamp.toNat ++
    (toBe 1 (tag.timestamp.toNat / 256 ^ 3) ++ ([0x00, 0x00, 0x00] ++
      (tag.payload ++ toBe 4 (11 + tag.payload.length))))))

/-- The header of a file, with the size of no tag behind it. -/
def header (flags : UInt8) : List UInt8 :=
  [0x46, 0x4C, 0x56, 0x01, flags, 0x00, 0x00, 0x00, 0x09, 0x00, 0x00, 0x00, 0x00]

/-- The tag at the front, and what is behind it. -/
def parseTag : List UInt8 → Option (Tag × List UInt8)
  | tagType :: s₁ :: s₂ :: s₃ :: t₁ :: t₂ :: t₃ :: t₄ :: i₁ :: i₂ :: i₃ :: rest =>
    let size := beNat [s₁, s₂, s₃]
    if tagType ∈ tagTypes ∧ [i₁, i₂, i₃] = [0x00, 0x00, 0x00] ∧ (rest.take size).length = size ∧
        (rest.drop size).take 4 = toBe 4 (11 + size) then
      some ({ tagType, timestamp := UInt32.ofNat (beNat [t₄, t₁, t₂, t₃])
              payload := rest.take size }, rest.drop (size + 4))
    else none
  | _ => none

/-- The tags up to the end. A tag has a byte or more, so the length is fuel enough. -/
def parseTags : ℕ → List UInt8 → Option (List Tag)
  | _, [] => some []
  | 0, _ :: _ => none
  | fuel + 1, b :: data => (parseTag (b :: data)).bind fun (tag, rest) =>
    (parseTags fuel rest).map (tag :: ·)

/-- A file: its flags and its tags. The flags are those for audio and video. -/
def parseFile (data : List UInt8) : Option (UInt8 × List Tag) :=
  match data[4]? with
  | some flags =>
    if data.take 13 = header flags ∧ flags &&& 0xFA = 0 then
      (parseTags data.length (data.drop 13)).map fun tags => (flags, tags)
    else none
  | none => none

/-- A tag is read, whatever is behind it. -/
theorem parseTag_bytes {tag : Tag} (h : tag.Valid) (rest : List UInt8) :
    parseTag (tag.bytes ++ rest) = some (tag, rest) := by
  obtain ⟨tagType, timestamp, payload⟩ := tag
  have hsize : beNat (toBe 3 payload.length) = payload.length := beNat_toBe_of_lt h.size
  have htime : UInt32.ofNat (beNat (toBe 1 (timestamp.toNat / 256 ^ 3) ++ toBe 3 timestamp.toNat)) =
      timestamp := by
    rw [← toBe_add, beNat_toBe_of_lt timestamp.toNat_lt, UInt32.ofNat_toNat]
  obtain ⟨s₁, s₂, s₃, hs⟩ : ∃ a b c, toBe 3 payload.length = [a, b, c] := ⟨_, _, _, rfl⟩
  obtain ⟨t₁, t₂, t₃, ht⟩ : ∃ a b c, toBe 3 timestamp.toNat = [a, b, c] := ⟨_, _, _, rfl⟩
  obtain ⟨t₄, ht'⟩ : ∃ a, toBe 1 (timestamp.toNat / 256 ^ 3) = [a] := ⟨_, rfl⟩
  rw [hs] at hsize
  rw [ht, ht'] at htime
  have hpayload : (payload ++ (toBe 4 (11 + payload.length) ++ rest)).take payload.length =
      payload :=
    List.take_left' rfl
  have hbehind : (payload ++ (toBe 4 (11 + payload.length) ++ rest)).drop payload.length =
      toBe 4 (11 + payload.length) ++ rest := List.drop_left' rfl
  have hprevious : (toBe 4 (11 + payload.length) ++ rest).take 4 = toBe 4 (11 + payload.length) :=
    List.take_left' (length_toBe 4 _)
  have hrest : (payload ++ (toBe 4 (11 + payload.length) ++ rest)).drop (payload.length + 4) =
      rest := by
    rw [← List.drop_drop, hbehind, List.drop_left' (length_toBe 4 _)]
  simp only [Tag.bytes, hs, ht, ht', List.cons_append, List.nil_append, List.append_assoc, parseTag,
    hsize, hpayload, hbehind, hprevious, hrest]
  rw [if_pos ⟨h.tagType, trivial, trivial, trivial⟩]
  exact congrArg (fun t => some (({ tagType, timestamp := t, payload } : Tag), rest)) htime

theorem parseTags_bytes {tags : List Tag} (h : ∀ tag ∈ tags, tag.Valid) {fuel : ℕ}
    (hfuel : tags.length ≤ fuel) :
    parseTags fuel (tags.flatMap Tag.bytes) = some tags := by
  induction tags generalizing fuel with
  | nil => cases fuel <;> rfl
  | cons tag tags ih =>
    obtain ⟨htag, htags⟩ := List.forall_mem_cons.mp h
    obtain _ | fuel := fuel
    · cases hfuel
    · have hparse := parseTag_bytes htag (tags.flatMap Tag.bytes)
      have hrest := ih htags (Nat.le_of_succ_le_succ hfuel)
      rw [List.flatMap_cons]
      obtain ⟨b, bytes, hbytes⟩ : ∃ b bytes, tag.bytes = b :: bytes := ⟨_, _, rfl⟩
      rw [hbytes] at hparse ⊢
      rw [List.cons_append, parseTags, ← List.cons_append, hparse, Option.bind_some]
      dsimp only
      rw [hrest, Option.map_some]

theorem length_le_bytes (tags : List Tag) : tags.length ≤ (tags.flatMap Tag.bytes).length := by
  induction tags with
  | nil => exact Nat.le_refl 0
  | cons tag tags ih =>
    rw [List.length_cons, List.flatMap_cons, List.length_append, Tag.bytes, List.length_cons]
    omega

/-- A file is read as the tags that it was written from. -/
theorem parseFile_bytes {flags : UInt8} (hflags : flags &&& 0xFA = 0) {tags : List Tag}
    (h : ∀ tag ∈ tags, tag.Valid) : parseFile (header flags ++ tags.flatMap Tag.bytes) =
        some (flags, tags) := by
  have hflag : (header flags ++ tags.flatMap Tag.bytes)[4]? = some flags := rfl
  have hlen : tags.length ≤ (header flags ++ tags.flatMap Tag.bytes).length := by
    rw [List.length_append]
    exact Nat.le_trans (length_le_bytes tags) (Nat.le_add_left _ _)
  have hheader : (header flags).length = 13 := rfl
  rw [parseFile, hflag]
  dsimp only
  rw [List.take_left' hheader, List.drop_left' hheader, if_pos ⟨rfl, hflags⟩,
    parseTags_bytes h hlen, Option.map_some]

/-- A file begins with its signature. -/
theorem parseFile_of_ne {b : UInt8} (h : b ≠ 0x46) (rest : List UInt8) :
    parseFile (b :: rest) = none := by
  rw [parseFile]
  split
  · refine if_neg fun hboth => h ?_
    exact (List.cons.inj hboth.1).1
  · rfl

end Flv
