import VcpMediaServer.Amf0
import VcpMediaServer.Utf8
import Mathlib.Data.List.TakeWhile

/-!
# Round trips of AMF0

What `decode` makes of the bytes of `encode`. Both the loop of `decode` and that of an object
look for the three bytes `00 00 09` before they read on. In an object a **name** comes next, and
no name that is not empty begins with two zero bytes. At the top level a **value** comes next,
and a number begins with `00` and its own bytes: a number whose first bytes are `00 09` is taken
for the end.

* `Amf0Value.Sound` — a value that the encoder does not cut.
* `decodeValue_encodeValue` — a value is read back wherever it stands.
* `decode_encode_iff` — a list is read back **exactly if** none of its values looks like an end.
-/

namespace VcpMediaServer

/-! ## Values that are not cut -/

mutual

/-- A value with lengths that fit into two bytes, and with objects that have no name twice and no
empty one. -/
def Amf0Value.Sound : Amf0Value → Prop
  | .number _ => True
  | .boolean _ => True
  | .string s => s.toByteArray.size < 65536
  | .object props => Amf0Value.SoundProps props
  | .null => True
  | .undefined => False
  | .ecmaArray props => Amf0Value.SoundProps props

/-- The properties of a sound object. -/
def Amf0Value.SoundProps : List (String × Amf0Value) → Prop
  | [] => True
  | prop :: props =>
    prop.1 ∉ props.map Prod.fst ∧ Amf0Value.SoundProp prop ∧ Amf0Value.SoundProps props

/-- A property of a sound object. -/
def Amf0Value.SoundProp : String × Amf0Value → Prop
  | (key, val) => 0 < key.toByteArray.size ∧ key.toByteArray.size < 65536 ∧ val.Sound

end

/-- A number that begins with the bytes of an end, behind its marker. -/
def Amf0Value.looksLikeEnd : Amf0Value → Bool
  | .number n => n.toNat / 2 ^ 48 == 9
  | _ => false

namespace Amf0

variable {data rest : List UInt8} {offset : ℕ}

/-! ## Names and strings -/

/-- The bytes of a string that is not too long. -/
theorem encodeString_length (s : String) :
    (encodeString s).length = 2 + s.toByteArray.size := by
  rw [encodeString, List.length_append, length_toBe]
  rfl

/-- A string is read back. -/
theorem decodeString_encodeString {s : String} (hs : s.toByteArray.size < 65536)
    (h : data.drop offset = encodeString s ++ rest) :
    decodeString data offset = (.ok s, offset + (encodeString s).length) := by
  have hlen : data.length = offset + (encodeString s ++ rest).length := by
    apply length_of_drop h
    rw [encodeString]
    simp [toBe]
  rw [List.length_append, encodeString_length] at hlen
  rw [encodeString, List.append_assoc] at h
  have hsize := slice_eq_of_drop h
  have htext := slice_eq_of_drop (drop_of_drop h)
  rw [length_toBe] at hsize htext
  have hbytes : s.toByteArray.data.toList.length = s.toByteArray.size := rfl
  rw [decodeString, if_neg (by omega), hsize, beNat_toBe_of_lt (by rw [hbytes]; exact hs)]
  dsimp only
  rw [if_neg (by omega), htext, fromUtf8Lossy_toByteArray, encodeString_length, hbytes,
    Nat.add_assoc]

/-! ## Ends -/

/-- An end is where its three bytes are. -/
theorem atObjectEnd_iff :
    atObjectEnd data offset = true ↔ ∃ rest, data.drop offset = [0x00, 0x00, 0x09] ++ rest := by
  rw [atObjectEnd, slice, beq_iff_eq]
  constructor
  · intro h
    exact ⟨(data.drop offset).drop 3, by rw [← h, List.take_append_drop]⟩
  · rintro ⟨rest, h⟩
    rw [h]
    rfl

/-- A name that is not empty is not the end of its object. -/
theorem not_atObjectEnd_of_key {key : String} (hpos : 0 < key.toByteArray.size)
    (hlt : key.toByteArray.size < 65536) (h : data.drop offset = encodeString key ++ rest) :
    atObjectEnd data offset = false := by
  rw [Bool.eq_false_iff, Ne, atObjectEnd_iff]
  rintro ⟨rest', h'⟩
  rw [h, encodeString] at h'
  have hbytes : (key.toByteArray.data.toList).length = key.toByteArray.size := rfl
  rw [hbytes, List.append_assoc] at h'
  have hzero := congrArg (fun l => beNat (l.take 2)) h'
  simp only [List.take_left' (length_toBe 2 _), beNat_toBe_of_lt (show _ < 256 ^ 2 from hlt)]
    at hzero
  have : beNat [0x00, 0x00] = 0 := rfl
  change _ = beNat [0x00, 0x00] at hzero
  omega

/-- A marker that is not zero begins no end. -/
theorem atObjectEnd_of_marker {b : UInt8} (h : data.drop offset = b :: rest) (hb : b ≠ 0) :
    atObjectEnd data offset = false := by
  rw [Bool.eq_false_iff, Ne, atObjectEnd_iff]
  rintro ⟨rest', h'⟩
  rw [h] at h'
  exact hb (List.cons.inj h').1

/-- At the start of a value there is an end **exactly if** the value looks like one. -/
theorem atObjectEnd_encodeValue {v : Amf0Value} (h : data.drop offset = encodeValue v ++ rest) :
    atObjectEnd data offset = v.looksLikeEnd := by
  cases v with
  | number n =>
    have hhigh : n.toNat / 2 ^ 48 < 256 ^ 2 := by
      have := n.toNat_lt
      omega
    rw [Bool.eq_iff_iff, atObjectEnd_iff, h, Amf0Value.looksLikeEnd, beq_iff_eq, encodeValue,
      show (8 : ℕ) = 2 + 6 from rfl, toBe_add, show (256 : ℕ) ^ 6 = 2 ^ 48 from rfl]
    constructor
    · rintro ⟨rest', h'⟩
      have hbytes := congrArg (fun l => beNat ((l.drop 1).take 2)) h'
      simp only [List.cons_append, List.drop_succ_cons, List.drop_zero, List.append_assoc,
        List.take_left' (length_toBe 2 _), beNat_toBe_of_lt hhigh] at hbytes
      exact hbytes
    · intro h9
      rw [h9]
      exact ⟨toBe 6 n.toNat ++ rest, rfl⟩
  | boolean b => exact atObjectEnd_of_marker h (by decide)
  | string s => exact atObjectEnd_of_marker h (by decide)
  | object props => exact atObjectEnd_of_marker h (by decide)
  | null => exact atObjectEnd_of_marker h (by decide)
  | undefined => exact atObjectEnd_of_marker h (by decide)
  | ecmaArray props => exact atObjectEnd_of_marker h (by decide)

/-! ## Values -/

theorem insertProp_of_not_mem {key : String} {val : Amf0Value} {props : List (String × Amf0Value)}
    (h : key ∉ props.map Prod.fst) : insertProp key val props = props ++ [(key, val)] := by
  induction props with
  | nil => rfl
  | cons prop props ih =>
    obtain ⟨k, v⟩ := prop
    rw [List.map_cons, List.mem_cons, not_or] at h
    rw [insertProp, if_neg fun heq => h.1 heq.symm, ih h.2, List.cons_append]

theorem encodeValue_length_pos (v : Amf0Value) : 0 < (encodeValue v).length := by
  cases v <;> rw [encodeValue] <;> exact Nat.succ_pos _

mutual

/-- A sound value is read back **wherever it stands**. -/
theorem decodeValue_encodeValue {v : Amf0Value} (hv : v.Sound) (fuel : ℕ) {data rest : List UInt8}
    {offset : ℕ} (hfuel : (encodeValue v).length ≤ fuel)
    (h : data.drop offset = encodeValue v ++ rest) :
    decodeValue fuel data offset = (.ok v, offset + (encodeValue v).length) := by
  obtain _ | fuel := fuel
  · have := encodeValue_length_pos v
    omega
  have hlen : data.length = offset + (encodeValue v ++ rest).length := by
    apply length_of_drop h
    have := encodeValue_length_pos v
    exact List.ne_nil_of_length_pos (by rw [List.length_append]; omega)
  rw [List.length_append] at hlen
  cases v with
  | number n =>
    rw [encodeValue, List.cons_append] at h
    have hnumber := slice_eq_of_drop (drop_succ_of_drop h)
    rw [length_toBe] at hnumber
    simp only [encodeValue, List.length_cons, length_toBe] at hlen ⊢
    simp only [decodeValue, getElem?_of_drop h]
    rw [if_neg (by omega), hnumber, beNat_toBe_of_lt n.toNat_lt, UInt64.ofNat_toNat]
  | boolean b =>
    rw [encodeValue, List.cons_append] at h
    have hbyte := getElem?_of_drop (drop_succ_of_drop h)
    simp only [decodeValue, getElem?_of_drop h, hbyte]
    cases b <;> rfl
  | string s =>
    rw [encodeValue, List.cons_append] at h
    have htext := decodeString_encodeString hv (drop_succ_of_drop h)
    simp only [decodeValue, getElem?_of_drop h, htext, encodeValue, List.length_cons]
    rw [Nat.add_assoc, Nat.add_comm 1]
  | object props =>
    rw [encodeValue, List.cons_append, List.append_assoc] at h
    simp only [encodeValue, List.length_cons, List.length_append, List.length_nil] at hfuel
    have hprops := decodeObjectInner_encodeObjectProperties hv [] (by simp) fuel false (by omega)
      (drop_succ_of_drop h)
    simp only [decodeValue, getElem?_of_drop h, hprops, encodeValue, List.length_cons,
      List.length_append, List.length_nil]
    simp only [Bool.false_eq_true, if_false, List.nil_append]
    rw [Nat.add_assoc, Nat.add_comm 1]
  | null =>
    rw [encodeValue, List.cons_append] at h
    simp only [decodeValue, getElem?_of_drop h]
    rfl
  | undefined => exact hv.elim
  | ecmaArray props =>
    rw [encodeValue, List.cons_append, List.append_assoc, List.append_assoc] at h
    simp only [encodeValue, List.length_cons, List.length_append, List.length_nil, length_toBe]
      at hfuel hlen
    have hcount := drop_of_drop (drop_succ_of_drop h)
    have hprops := decodeObjectInner_encodeObjectProperties hv [] (by simp) fuel true (by omega)
      hcount
    rw [length_toBe] at hprops
    simp only [decodeValue, getElem?_of_drop h]
    rw [if_neg (by omega), hprops]
    simp only [encodeValue, List.length_cons, List.length_append, List.length_nil, length_toBe,
      if_true, List.nil_append]
    congr 1
    omega

/-- The properties of an object are read back, and put behind those read before. -/
theorem decodeObjectInner_encodeObjectProperties {props : List (String × Amf0Value)}
    (hprops : Amf0Value.SoundProps props) (before : List (String × Amf0Value))
    (hnew : ∀ key ∈ props.map Prod.fst, key ∉ before.map Prod.fst) (fuel : ℕ) (isEcma : Bool)
    {data rest : List UInt8} {offset : ℕ}
    (hfuel : (encodeObjectProperties props).length + 3 ≤ fuel)
    (h : data.drop offset = encodeObjectProperties props ++ ([0x00, 0x00, 0x09] ++ rest)) :
    decodeObjectInner fuel data offset isEcma before =
      (.ok (if isEcma then .ecmaArray (before ++ props) else .object (before ++ props)),
        offset + ((encodeObjectProperties props).length + 3)) := by
  obtain _ | fuel := fuel
  · omega
  cases props with
  | nil =>
    rw [encodeObjectProperties, List.nil_append] at h
    have hend : atObjectEnd data offset = true := atObjectEnd_iff.mpr ⟨rest, h⟩
    simp only [decodeObjectInner, hend, if_true, List.append_nil, encodeObjectProperties,
      List.length_nil, Nat.zero_add]
  | cons prop props =>
    obtain ⟨key, val⟩ := prop
    obtain ⟨hnotin, ⟨hpos, hlt, hval⟩, htail⟩ := hprops
    rw [encodeObjectProperties, encodeProperty, List.append_assoc, List.append_assoc] at h
    simp only [encodeObjectProperties, encodeProperty, List.length_append, encodeString_length]
      at hfuel
    have hlen := length_of_drop h (by
      rw [encodeString]
      simp [toBe])
    simp only [List.length_append, encodeString_length] at hlen
    have hvalue := drop_of_drop h
    have hread := decodeValue_encodeValue hval fuel (by omega) hvalue
    have hrest := decodeObjectInner_encodeObjectProperties htail (insertProp key val before) (by
        rw [insertProp_of_not_mem (hnew key (by simp))]
        intro k hk hmem
        rw [List.map_append, List.mem_append] at hmem
        obtain hmem | hmem := hmem
        · exact hnew k (List.mem_cons_of_mem _ hk) hmem
        · rw [List.map_singleton, List.mem_singleton] at hmem
          exact hnotin (hmem ▸ hk)) fuel isEcma (by omega) (drop_of_drop hvalue)
    have hnoend := not_atObjectEnd_of_key hpos hlt h
    rw [encodeString, List.append_assoc] at h
    have hsize := slice_eq_of_drop h
    have htext := slice_eq_of_drop (drop_of_drop h)
    rw [length_toBe] at hsize htext
    have hbytes : key.toByteArray.data.toList.length = key.toByteArray.size := rfl
    rw [hbytes] at hsize htext
    rw [encodeString_length, ← Nat.add_assoc] at hread hrest
    simp only [decodeObjectInner, hnoend, hsize, beNat_toBe_of_lt (show _ < 256 ^ 2 from hlt)]
    rw [if_neg (by simp), if_neg (by omega), if_neg (by omega), if_neg (by omega), htext,
      fromUtf8Lossy_toByteArray, hread]
    simp only [hrest]
    rw [insertProp_of_not_mem (hnew key (by simp)), List.append_assoc, List.singleton_append]
    simp only [encodeObjectProperties, encodeProperty, List.length_append, encodeString_length]
    congr 1
    omega

end

/-! ## Lists of values -/

/-- The values in front of the first that looks like an end. -/
def readable (vs : List Amf0Value) : List Amf0Value := vs.takeWhile fun v => !v.looksLikeEnd

theorem readable_eq_self_iff {vs : List Amf0Value} :
    readable vs = vs ↔ ∀ v ∈ vs, v.looksLikeEnd = false := by
  rw [readable, List.takeWhile_eq_self_iff]
  simp

/-- The loop reads up to the first value that looks like an end, and **skips** three bytes of
that. -/
theorem decodeLoop_encode {vs : List Amf0Value} (hvs : ∀ v ∈ vs, v.Sound) (fuel : ℕ) (offset : ℕ)
    (before : List Amf0Value) (hfuel : vs.length < fuel) (h : data.drop offset = encode vs) :
    decodeLoop fuel data offset before =
      .ok (before ++ readable vs,
        offset + (encode (readable vs)).length + if vs.any Amf0Value.looksLikeEnd then 3
            else 0) := by
  induction vs generalizing fuel offset before with
  | nil =>
    obtain _ | fuel := fuel
    · cases hfuel
    have hle : data.length ≤ offset := List.drop_eq_nil_iff.mp h
    rw [decodeLoop, if_pos hle]
    simp [readable, encode]
  | cons v vs ih =>
    obtain _ | fuel := fuel
    · cases hfuel
    rw [encode, List.flatMap_cons] at h
    have hpos := encodeValue_length_pos v
    have hlen := length_of_drop h (List.ne_nil_of_length_pos (by rw [List.length_append]; omega))
    rw [List.length_append] at hlen
    rw [decodeLoop, if_neg (by omega), atObjectEnd_encodeValue h]
    cases hend : v.looksLikeEnd with
    | true => simp [readable, hend, encode]
    | false =>
      have hv := hvs v List.mem_cons_self
      rw [if_neg (by simp), decodeValue_encodeValue hv _ (by omega) h]
      have hcons : readable (v :: vs) = v :: readable vs := by simp [readable, hend]
      rw [hcons]
      refine (ih (fun w hw => hvs w (List.mem_cons_of_mem v hw)) fuel _ _
        (Nat.lt_of_succ_lt_succ hfuel) (drop_of_drop h)).trans ?_
      simp only [encode, List.append_assoc, List.singleton_append, List.flatMap_cons,
        List.length_append, List.any_cons, hend, Bool.false_or, Nat.add_assoc]

theorem length_le_encode (vs : List Amf0Value) : vs.length ≤ (encode vs).length := by
  induction vs with
  | nil => exact Nat.le_refl _
  | cons v vs ih =>
    have := encodeValue_length_pos v
    rw [encode] at ih
    rw [encode, List.flatMap_cons, List.length_append, List.length_cons]
    omega

/-- What `decode` makes of the bytes of a list. -/
theorem decode_encode {vs : List Amf0Value} (hvs : ∀ v ∈ vs, v.Sound) :
    decode (encode vs) =
      .ok (readable vs, (encode (readable vs)).length + if vs.any Amf0Value.looksLikeEnd then 3
          else 0) := by
  have hloop := decodeLoop_encode hvs ((encode vs).length + 1) 0 []
    (Nat.lt_succ_of_le (length_le_encode vs)) rfl
  rwa [List.nil_append, Nat.zero_add] at hloop

/-- A list is read back **exactly if** no value of it looks like an end. -/
theorem decode_encode_iff {vs : List Amf0Value} (hvs : ∀ v ∈ vs, v.Sound) :
    decode (encode vs) = .ok (vs, (encode vs).length) ↔ ∀ v ∈ vs, v.looksLikeEnd = false := by
  rw [decode_encode hvs, ← readable_eq_self_iff]
  constructor
  · intro h
    injection h with h
    exact (Prod.mk.inj h).1
  · intro h
    have hnone : vs.any Amf0Value.looksLikeEnd = false := by
      simpa using readable_eq_self_iff.mp h
    rw [h, hnone, if_neg Bool.false_ne_true, Nat.add_zero]

theorem decode_encode_of_connect :
    (∀ v ∈ [Amf0Value.string "connect", .object [("app", .ecmaArray [("a", .number 9)])]],
      v.Sound) ∧
    (decode (encode [.string "connect", .object [("app", .ecmaArray [("a", .number 9)])]]) =
        .ok ([.string "connect", .object [("app", .ecmaArray [("a", .number 9)])]],
          (encode [.string "connect", .object [("app", .ecmaArray [("a", .number 9)])]]).length) ↔
      ∀ v ∈ [Amf0Value.string "connect", .object [("app", .ecmaArray [("a", .number 9)])]],
        v.looksLikeEnd = false) := by
  have hvs : ∀ v ∈ [Amf0Value.string "connect", .object [("app", .ecmaArray [("a", .number 9)])]],
      v.Sound := by
    intro v hv
    simp only [List.mem_cons, List.not_mem_nil, or_false] at hv
    obtain rfl | rfl := hv
    · exact show "connect".toByteArray.size < 65536 by decide
    · simp only [Amf0Value.Sound, Amf0Value.SoundProps, Amf0Value.SoundProp, List.map_nil,
        List.not_mem_nil, not_false_eq_true, and_true, true_and]
      decide
  exact ⟨hvs, decode_encode_iff hvs⟩

/-- The double with the bytes `00 09 00 00 00 00 00 00` is lost, and the rest of it is left. -/
theorem decode_encode_ne_of_number :
    (∀ v ∈ [Amf0Value.number 0x0009000000000000], v.Sound) ∧
      decode (encode [.number 0x0009000000000000]) = .ok ([], 3) ∧
      (encode [.number 0x0009000000000000]).length = 9 ∧
      decode (encode [.number 0x0009000000000000]) ≠
        .ok ([.number 0x0009000000000000], (encode [.number 0x0009000000000000]).length) := by
  refine ⟨fun v hv => List.mem_singleton.mp hv ▸ trivial, rfl, rfl, ?_⟩
  intro h
  have hread : Except.ok ([], 3) = Except.ok _ := (rfl : _ = decode _).trans h
  injection hread with hread
  cases (Prod.mk.inj hread).1

end Amf0

end VcpMediaServer
