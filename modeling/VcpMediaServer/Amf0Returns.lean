import VcpMediaServer.Outcome
import VcpMediaServer.RtmpPanics

/-!
# The AMF0 decoder returns

The decoder once more, with the recursion of `decode_value` and `decode_object_inner` on fuel, and
with **running out** told apart from every result. What moves the offset on is a value, a key, or
what ends an object; all of them move it forward and none moves it behind the end.

* `Fueled.decode` — the decoder; a call runs out of fuel, panics or returns.
* `MovesOn` — a result whose offset is further on, and not behind the end.
* `Amf0.movesOn_of_fuel`, `Amf0.movesOn_readName` — values, keys and ends move it on.
* `Amf0.fueled_eq` — more fuel than bytes left is enough, and no access panics.
* `amf0_decode_robust` — of all bytes.
-/

namespace VcpMediaServer

open Outcome

/-! ## The decoder -/

/-- A turn of the loop of `decode_object_inner`, as far as the value: the key of a property, or
nothing at the end of the object. -/
def Checked.readName (data : List UInt8) (offset : ℕ) :
    Option (Except String (Option String) × ℕ) := do
  if ← Checked.atObjectEnd data offset then return (.ok none, offset + 3)
  else if offset + 2 > data.length then return (.error "Not enough data for property name", offset)
  else do
    let keyLen ← Checked.be16 data offset
    let offset := offset + 2
    if keyLen = 0 then
      if offset < data.length then do
        let b ← Checked.index data offset
        return (.ok none, if b = 0x09 then offset + 1 else offset)
      else return (.ok none, offset)
    else if offset + keyLen > data.length then
      return (.error "Not enough data for property name", offset)
    else do
      let text ← Checked.range data offset (offset + keyLen)
      return (.ok (some (fromUtf8Lossy text)), offset + keyLen)

namespace Fueled

mutual

/-- `decode_value`. -/
def decodeValue : ℕ → List UInt8 → ℕ → Outcome (Except String Amf0Value × ℕ)
  | 0, _, _ => .outOfFuel
  | fuel + 1, data, offset =>
    if offset ≥ data.length then return (.error "Not enough data for AMF0 marker", offset)
    else do
      let marker ← access (Checked.index data offset)
      let offset := offset + 1
      match marker with
      | 0x00 =>
        if offset + 8 > data.length then return (.error "Not enough data for Number", offset)
        else do
          let bytes ← access (Checked.range data offset (offset + 8))
          return (.ok (.number (UInt64.ofNat (beNat bytes))), offset + 8)
      | 0x01 =>
        if offset + 1 > data.length then return (.error "Not enough data for Boolean", offset)
        else do
          let b ← access (Checked.index data offset)
          return (.ok (.boolean (b != 0)), offset + 1)
      | 0x02 => do
        match ← access (Checked.decodeString data offset) with
        | (.ok s, offset) => return (.ok (.string s), offset)
        | (.error e, offset) => return (.error e, offset)
      | 0x03 => decodeObjectInner fuel data offset false []
      | 0x05 => return (.ok .null, offset)
      | 0x06 => return (.ok .null, offset)
      | 0x08 =>
        if offset + 4 > data.length then
          return (.error "Not enough data for ECMA array count", offset)
        else decodeObjectInner fuel data (offset + 4) true []
      | _ =>
        return (.error ("Unsupported AMF0 type: 0x" ++ Amf0.hexByte marker ++ " at offset " ++
          toString (offset - 1)), offset)

/-- `decode_object_inner`, with the properties read so far. -/
def decodeObjectInner :
    ℕ → List UInt8 → ℕ → Bool → List (String × Amf0Value) → Outcome (Except String Amf0Value × ℕ)
  | 0, _, _, _, _ => .outOfFuel
  | fuel + 1, data, offset, isEcma, props => do
    let finished : Amf0Value := if isEcma then .ecmaArray props else .object props
    match ← access (Checked.readName data offset) with
    | (.error e, offset) => return (.error e, offset)
    | (.ok none, offset) => return (.ok finished, offset)
    | (.ok (some key), offset) =>
      match ← decodeValue fuel data offset with
      | (.ok val, offset) =>
        decodeObjectInner fuel data offset isEcma (Amf0.insertProp key val props)
      | (.error _, offset) => return (.ok finished, offset)

end

/-- The loop of `decode`, with the values read so far. -/
def decodeLoop (valueFuel : ℕ) : ℕ → List UInt8 → ℕ → List Amf0Value →
    Outcome (Except String (List Amf0Value × ℕ))
  | 0, _, _, _ => .outOfFuel
  | fuel + 1, data, offset, values =>
    if offset < data.length then do
      if ← access (Checked.atObjectEnd data offset) then return .ok (values, offset + 3)
      else
        match ← decodeValue valueFuel data offset with
        | (.ok val, offset) => decodeLoop valueFuel fuel data offset (values ++ [val])
        | (.error e, offset) => return if values.isEmpty then .error e else .ok (values, offset)
    else return .ok (values, offset)

/-- `decode`. -/
def decode (fuel : ℕ) (data : List UInt8) : Outcome (Except String (List Amf0Value × ℕ)) :=
  decodeLoop fuel fuel data 0 []

end Fueled

/-! ## The offset -/

/-- The offset of a result is not in front of where it was, nor behind the end, and it is further on
where something was read. -/
structure MovesOn {α : Type} (data : List UInt8) (offset : ℕ) (r : Except String α × ℕ) : Prop where
  le : offset ≤ r.2
  le_length : r.2 ≤ data.length
  lt : ∀ a, r.1 = .ok a → offset < r.2

variable {data : List UInt8} {offset : ℕ}

theorem MovesOn.ok {α : Type} {a : α} {offset' : ℕ} (hlt : offset < offset')
    (hle : offset' ≤ data.length) :
    MovesOn data offset ((.ok a, offset') : Except String α × ℕ) :=
  ⟨hlt.le, hle, fun _ _ => hlt⟩

theorem MovesOn.error {α : Type} {e : String} {offset' : ℕ} (hle : offset ≤ offset')
    (hle' : offset' ≤ data.length) :
    MovesOn data offset ((.error e, offset') : Except String α × ℕ) :=
  ⟨hle, hle', fun _ h => by cases h⟩

/-- What moves on from further on moves on. -/
theorem MovesOn.of_lt {α : Type} {offset' : ℕ} {r : Except String α × ℕ}
    (h : MovesOn data offset' r) (hlt : offset < offset') : MovesOn data offset r :=
  ⟨hlt.le.trans h.le, h.le_length, fun _ _ => hlt.trans_le h.le⟩

namespace Amf0

/-- `readName`, without its accesses. -/
def readName (data : List UInt8) (offset : ℕ) : Except String (Option String) × ℕ :=
  if atObjectEnd data offset then (.ok none, offset + 3)
  else if offset + 2 > data.length then (.error "Not enough data for property name", offset)
  else
    let keyLen := beNat (slice data offset 2)
    let offset := offset + 2
    if keyLen = 0 then (.ok none, if data[offset]? = some 0x09 then offset + 1 else offset)
    else if offset + keyLen > data.length then (.error "Not enough data for property name", offset)
    else (.ok (some (fromUtf8Lossy (slice data offset keyLen))), offset + keyLen)

/-- Reading a key, or the end of an object, stays inside the buffer. -/
theorem checkedReadName_eq (data : List UInt8) (offset : ℕ) :
    Checked.readName data offset = some (readName data offset) := by
  rw [Checked.readName, readName, Checked.atObjectEnd_eq]
  simp only [Option.bind_eq_bind, Option.bind_some]
  split
  · rfl
  · split
    · rfl
    · rw [Checked.be16_of_le (by omega)]
      simp only [Option.bind_some]
      split
      · split
        · rw [Checked.index, List.getElem?_eq_getElem (by omega)]
          simp
        · rw [List.getElem?_eq_none (by omega)]
          rfl
      · split
        · rfl
        · rw [Checked.range_of_le (by omega)]
          rfl

/-- A turn of the loop of an object. -/
theorem decodeObjectInner_eq (fuel : ℕ) (data : List UInt8) (offset : ℕ) (isEcma : Bool)
    (props : List (String × Amf0Value)) :
    decodeObjectInner (fuel + 1) data offset isEcma props =
      match readName data offset with
      | (.error e, offset) => (.error e, offset)
      | (.ok none, offset) => (.ok (if isEcma then .ecmaArray props else .object props), offset)
      | (.ok (some key), offset) =>
        match decodeValue fuel data offset with
        | (.ok val, offset) => decodeObjectInner fuel data offset isEcma (insertProp key val props)
        | (.error _, offset) =>
            (.ok (if isEcma then .ecmaArray props else .object props), offset) := by
  rw [decodeObjectInner, readName]
  split
  · rfl
  · split
    · rfl
    · dsimp only
      split
      · rfl
      · split
        · rfl
        · rfl

/-- A key, or the end of an object, moves the offset on. -/
theorem movesOn_readName (h : offset ≤ data.length) :
    MovesOn data offset (readName data offset) := by
  rw [readName]
  split
  · next hend => exact MovesOn.ok (by omega) (le_length_of_atObjectEnd hend)
  · split
    · exact MovesOn.error le_rfl h
    · dsimp only
      split
      · split
        · next hbyte =>
          obtain ⟨hlt, -⟩ := List.getElem?_eq_some_iff.mp hbyte
          exact MovesOn.ok (by omega) (by omega)
        · exact MovesOn.ok (by omega) (by omega)
      · split
        · exact MovesOn.error (by omega) (by omega)
        · exact MovesOn.ok (by omega) (by omega)

theorem movesOn_decodeString (h : offset ≤ data.length) :
    MovesOn data offset (decodeString data offset) := by
  rw [decodeString]
  split
  · exact MovesOn.error le_rfl h
  · dsimp only
    split
    · exact MovesOn.error (by omega) (by omega)
    · exact MovesOn.ok (by omega) (by omega)

/-- A value moves the offset on, if the objects do. -/
theorem movesOn_decodeValue_succ {fuel : ℕ}
    (ih : ∀ offset ≤ data.length, ∀ isEcma props,
      MovesOn data offset (decodeObjectInner fuel data offset isEcma props))
    (h : offset ≤ data.length) : MovesOn data offset (decodeValue (fuel + 1) data offset) := by
  rw [decodeValue]
  rcases hmarker : data[offset]? with _ | marker
  · exact MovesOn.error le_rfl h
  · obtain ⟨hlt, -⟩ := List.getElem?_eq_some_iff.mp hmarker
    dsimp only
    split
    · split
      · exact MovesOn.error (by omega) (by omega)
      · exact MovesOn.ok (by omega) (by omega)
    · split
      · exact MovesOn.error (by omega) (by omega)
      · next hbyte =>
        obtain ⟨hlt', -⟩ := List.getElem?_eq_some_iff.mp hbyte
        exact MovesOn.ok (by omega) (by omega)
    · have hstring : MovesOn data offset (decodeString data (offset + 1)) :=
        (movesOn_decodeString hlt).of_lt (Nat.lt_succ_self offset)
      split
      · next hs =>
        rw [hs] at hstring
        exact MovesOn.ok (hstring.lt _ rfl) hstring.le_length
      · next hs =>
        rw [hs] at hstring
        exact MovesOn.error hstring.le hstring.le_length
    · exact (ih (offset + 1) hlt false []).of_lt (Nat.lt_succ_self offset)
    · exact MovesOn.ok (by omega) hlt
    · exact MovesOn.ok (by omega) hlt
    · split
      · exact MovesOn.error (by omega) hlt
      · exact (ih (offset + 1 + 4) (by omega) true []).of_lt (by omega)
    · exact MovesOn.error (by omega) hlt

/-- An object moves the offset on, if what is in it does. -/
theorem movesOn_decodeObjectInner_succ {fuel : ℕ}
    (hvalue : ∀ offset ≤ data.length, MovesOn data offset (decodeValue fuel data offset))
    (hobject : ∀ offset ≤ data.length, ∀ isEcma props,
      MovesOn data offset (decodeObjectInner fuel data offset isEcma props))
    (h : offset ≤ data.length) (isEcma : Bool) (props : List (String × Amf0Value)) :
    MovesOn data offset (decodeObjectInner (fuel + 1) data offset isEcma props) := by
  have hname := movesOn_readName h
  rw [decodeObjectInner_eq]
  split
  · next hread =>
    rw [hread] at hname
    exact MovesOn.error hname.le hname.le_length
  · next hread =>
    rw [hread] at hname
    exact MovesOn.ok (hname.lt _ rfl) hname.le_length
  · next offset' hread =>
    rw [hread] at hname
    have hlt : offset < offset' := hname.lt _ rfl
    have hval := hvalue offset' hname.le_length
    split
    · next hdecode =>
      rw [hdecode] at hval
      exact (hobject _ hval.le_length isEcma _).of_lt (hlt.trans_le hval.le)
    · next hdecode =>
      rw [hdecode] at hval
      exact MovesOn.ok (hlt.trans_le hval.le) hval.le_length

/-- Values and objects move the offset on, **however deep** they are. -/
theorem movesOn_of_fuel (data : List UInt8) (fuel : ℕ) :
    (∀ offset ≤ data.length, MovesOn data offset (decodeValue fuel data offset)) ∧
      ∀ offset ≤ data.length, ∀ isEcma props,
        MovesOn data offset (decodeObjectInner fuel data offset isEcma props) := by
  induction fuel with
  | zero => exact ⟨fun _ h => MovesOn.error le_rfl h, fun _ h _ _ => MovesOn.error le_rfl h⟩
  | succ fuel ih =>
    obtain ⟨hvalue, hobject⟩ := ih
    exact ⟨fun _ h => movesOn_decodeValue_succ hobject h,
      fun _ h isEcma props => movesOn_decodeObjectInner_succ hvalue hobject h isEcma props⟩

/-! ## Enough fuel -/

/-- `decode_value` returns, with fuel for the bytes left, if the objects in it do. -/
theorem fueledDecodeValue_succ {fuel fuel' : ℕ}
    (ih : ∀ offset ≤ data.length, data.length - offset < fuel → data.length - offset < fuel' →
      ∀ isEcma props, Fueled.decodeObjectInner fuel data offset isEcma props =
        .returns (decodeObjectInner fuel' data offset isEcma props))
    (hfuel : data.length - offset < fuel + 1) (hfuel' : data.length - offset < fuel' + 1) :
    Fueled.decodeValue (fuel + 1) data offset = .returns (decodeValue (fuel' + 1) data offset) := by
  rw [Fueled.decodeValue, decodeValue]
  split
  · next h =>
    rw [List.getElem?_eq_none h]
    rfl
  · next h =>
    have hlt : offset < data.length := by omega
    rw [Checked.index, List.getElem?_eq_getElem hlt, access_some, returns_bind]
    dsimp only
    generalize data[offset] = marker
    split
    · split
      · rfl
      · rw [Checked.range_of_le (by omega)]
        rfl
    · split
      · next h =>
        rw [List.getElem?_eq_none (by omega)]
        rfl
      · rw [Checked.index, List.getElem?_eq_getElem (by omega)]
        rfl
    · rw [Checked.decodeString_eq]
      rcases decodeString data (offset + 1) with ⟨_ | s, offset'⟩ <;> rfl
    · exact ih (offset + 1) hlt (by omega) (by omega) false []
    · rfl
    · rfl
    · split
      · rfl
      · exact ih (offset + 1 + 4) (by omega) (by omega) (by omega) true []
    · -- the marker is none of those above, in the other function as well
      simp [*]

/-- `decode_object_inner` returns, with fuel for the bytes left, if what is in the object does: the
key moves the offset on, and so does the value, so that there is fuel for both. -/
theorem fueledDecodeObjectInner_succ {fuel fuel' : ℕ}
    (hvalue : ∀ offset ≤ data.length, data.length - offset < fuel → data.length - offset < fuel' →
      Fueled.decodeValue fuel data offset = .returns (decodeValue fuel' data offset))
    (hobject : ∀ offset ≤ data.length, data.length - offset < fuel → data.length - offset < fuel' →
      ∀ isEcma props, Fueled.decodeObjectInner fuel data offset isEcma props =
        .returns (decodeObjectInner fuel' data offset isEcma props))
    (h : offset ≤ data.length) (hfuel : data.length - offset < fuel + 1)
    (hfuel' : data.length - offset < fuel' + 1) (isEcma : Bool)
    (props : List (String × Amf0Value)) :
    Fueled.decodeObjectInner (fuel + 1) data offset isEcma props =
      .returns (decodeObjectInner (fuel' + 1) data offset isEcma props) := by
  have hname := movesOn_readName h
  rw [Fueled.decodeObjectInner, decodeObjectInner_eq, checkedReadName_eq, access_some]
  simp only [returns_bind]
  rcases hread : readName data offset with ⟨e | _ | key, offset'⟩
  · rfl
  · rfl
  · -- the key has moved the offset on, so that there is fuel for the value
    rw [hread] at hname
    have hlt : offset < offset' := hname.lt _ rfl
    have hle : offset' ≤ data.length := hname.le_length
    have hval := (movesOn_of_fuel data fuel').1 offset' hle
    dsimp only
    rw [hvalue offset' hle (by omega) (by omega), returns_bind]
    rcases hdecode : decodeValue fuel' data offset' with ⟨e | val, offset''⟩
    · rfl
    · -- and the value for the properties behind it
      rw [hdecode] at hval
      have hlt' : offset' < offset'' := hval.lt _ rfl
      have hle' : offset'' ≤ data.length := hval.le_length
      exact hobject offset'' hle' (by omega) (by omega) isEcma _

/-- Values and objects return, and how much fuel there is above the bytes left does not matter. -/
theorem fueled_eq (data : List UInt8) (fuel fuel' : ℕ) :
    (∀ offset ≤ data.length, data.length - offset < fuel → data.length - offset < fuel' →
      Fueled.decodeValue fuel data offset = .returns (decodeValue fuel' data offset)) ∧
    ∀ offset ≤ data.length, data.length - offset < fuel → data.length - offset < fuel' →
      ∀ isEcma props, Fueled.decodeObjectInner fuel data offset isEcma props =
        .returns (decodeObjectInner fuel' data offset isEcma props) := by
  induction fuel generalizing fuel' with
  | zero =>
    exact ⟨fun _ _ h => absurd h (Nat.not_lt_zero _), fun _ _ h => absurd h (Nat.not_lt_zero _)⟩
  | succ fuel ih =>
    cases fuel' with
    | zero => exact ⟨fun _ _ _ h => absurd h (Nat.not_lt_zero _),
      fun _ _ _ h => absurd h (Nat.not_lt_zero _)⟩
    | succ fuel' =>
      obtain ⟨hvalue, hobject⟩ := ih fuel'
      exact ⟨fun _ _ h h' => fueledDecodeValue_succ hobject h h',
        fun _ hle h h' isEcma props =>
          fueledDecodeObjectInner_succ hvalue hobject hle h h' isEcma props⟩

/-! ## The loop -/

/-- The loop returns. -/
theorem fueledDecodeLoop_eq {valueFuel : ℕ} (hvalue : data.length < valueFuel) (fuel fuel' : ℕ)
    (h : offset ≤ data.length) (hfuel : data.length - offset < fuel)
    (hfuel' : data.length - offset < fuel') (values : List Amf0Value) :
    Fueled.decodeLoop valueFuel fuel data offset values =
        .returns (decodeLoop fuel' data offset values) := by
  induction fuel generalizing fuel' offset values with
  | zero => exact absurd hfuel (Nat.not_lt_zero _)
  | succ fuel ih =>
    obtain ⟨fuel', rfl⟩ := Nat.exists_eq_add_one_of_ne_zero (Nat.ne_zero_of_lt hfuel')
    rw [Fueled.decodeLoop, decodeLoop]
    by_cases hlt : offset < data.length
    · rw [if_pos hlt, if_neg (Nat.not_le.mpr hlt), Checked.atObjectEnd_eq, access_some,
        returns_bind]
      split
      · rfl
      · have hval := (movesOn_of_fuel data (data.length + 1)).1 offset h
        rw [(fueled_eq data valueFuel (data.length + 1)).1 offset h (by omega) (by omega),
          returns_bind]
        rcases hdecode : decodeValue (data.length + 1) data offset with ⟨e | val, offset'⟩
        · rfl
        · rw [hdecode] at hval
          have hlt' : offset < offset' := hval.lt _ rfl
          have hle' : offset' ≤ data.length := hval.le_length
          exact ih fuel' hle' (by omega) (by omega) _
    · rw [if_neg hlt, if_pos (Nat.not_lt.mp hlt)]
      rfl

/-- What is consumed is not more than there is. -/
theorem le_length_of_decodeLoop {fuel : ℕ} (h : offset ≤ data.length)
    {values values' : List Amf0Value} {consumed : ℕ}
    (hloop : decodeLoop fuel data offset values = .ok (values', consumed)) :
    consumed ≤ data.length := by
  induction fuel generalizing offset values with
  | zero =>
    cases hloop
    exact h
  | succ fuel ih =>
    rw [decodeLoop] at hloop
    split at hloop
    · cases hloop
      exact h
    · split at hloop
      · next hend =>
        cases hloop
        exact le_length_of_atObjectEnd hend
      · have hval := (movesOn_of_fuel data (data.length + 1)).1 offset h
        split at hloop
        · next hdecode =>
          rw [hdecode] at hval
          exact ih hval.le_length hloop
        · next hdecode =>
          rw [hdecode] at hval
          split at hloop
          · cases hloop
          · cases hloop
            exact hval.le_length

/-- Behind a value the loop does not fail. -/
theorem isOk_decodeLoop (fuel : ℕ) (data : List UInt8) (offset : ℕ) {values : List Amf0Value}
    (hne : values ≠ []) :
    ∃ r, decodeLoop fuel data offset values = .ok r := by
  induction fuel generalizing offset values with
  | zero => exact ⟨_, rfl⟩
  | succ fuel ih =>
    rw [decodeLoop]
    split
    · exact ⟨_, rfl⟩
    · split
      · exact ⟨_, rfl⟩
      · split
        · exact ih _ (by simp)
        · rw [if_neg (by simpa using hne)]
          exact ⟨_, rfl⟩

/-- `decode` fails only as its first value does. -/
theorem decodeValue_of_decode_error {e : String} (h : decode data = .error e) :
    (decodeValue (data.length + 1) data 0).1 = .error e := by
  rw [decode, decodeLoop] at h
  split at h
  · cases h
  · split at h
    · cases h
    · split at h
      · -- with one value the loop cannot fail any more
        obtain ⟨r, hr⟩ :=
          isOk_decodeLoop data.length data _
          (List.append_ne_nil_of_right_ne_nil [] (List.cons_ne_nil _ []))
        rw [hr] at h
        cases h
      · next hdecode =>
        rw [List.isEmpty_nil, if_pos rfl] at h
        cases h
        rw [hdecode]

end Amf0

/-- Of all bytes: the decoder returns without a panic as soon as there is more fuel than bytes, and
so does what it calls; a value, a key or the end of an object moves the offset on and not behind the
end; what is consumed is not more than there is; and there is an error only if the first value has
it. -/
theorem amf0_decode_robust (data : List UInt8) :
    (∀ fuel, data.length < fuel → Fueled.decode fuel data = .returns (Amf0.decode data)) ∧
      (∀ values consumed, Amf0.decode data = .ok (values, consumed) → consumed ≤ data.length) ∧
      (∀ e, Amf0.decode data = .error e →
        ∃ offset, ∀ fuel, data.length < fuel →
          Fueled.decodeValue fuel data 0 = .returns (.error e, offset)) ∧
      ∀ offset ≤ data.length,
        (∃ r, (∀ fuel, data.length - offset < fuel →
          Fueled.decodeValue fuel data offset = .returns r) ∧
          MovesOn data offset r) ∧
        (∀ isEcma props, ∃ r,
          (∀ fuel, data.length - offset < fuel →
            Fueled.decodeObjectInner fuel data offset isEcma props = .returns r) ∧
              MovesOn data offset r) ∧
        (∃ r, Checked.readName data offset = some r ∧ MovesOn data offset r) ∧
        (Checked.atObjectEnd data offset = some false ∨
          Checked.atObjectEnd data offset = some true ∧ offset + 3 ≤ data.length) := by
  have henough : ∀ offset, data.length - offset < data.length + 1 := fun offset => by omega
  refine ⟨fun fuel hfuel => ?_, fun values consumed h => ?_, fun e h => ?_,
    fun offset hle => ⟨?_, ?_, ?_, ?_⟩⟩
  · exact Amf0.fueledDecodeLoop_eq hfuel fuel (data.length + 1) (Nat.zero_le _)
      (by omega) (henough 0) []
  · exact Amf0.le_length_of_decodeLoop (Nat.zero_le _) h
  · refine ⟨(Amf0.decodeValue (data.length + 1) data 0).2, fun fuel hfuel => ?_⟩
    rw [(Amf0.fueled_eq data fuel (data.length + 1)).1 0 (Nat.zero_le _) (by omega) (henough 0),
      ← Amf0.decodeValue_of_decode_error h]
  · exact ⟨_, fun fuel hfuel => (Amf0.fueled_eq data fuel (data.length + 1)).1 offset hle hfuel
      (henough offset), (Amf0.movesOn_of_fuel data (data.length + 1)).1 offset hle⟩
  · intro isEcma props
    exact ⟨_, fun fuel hfuel =>
      (Amf0.fueled_eq data fuel (data.length + 1)).2 offset hle hfuel (henough offset) isEcma props,
      (Amf0.movesOn_of_fuel data (data.length + 1)).2 offset hle isEcma props⟩
  · exact ⟨_, Amf0.checkedReadName_eq data offset, Amf0.movesOn_readName hle⟩
  · rw [Checked.atObjectEnd_eq]
    cases hend : Amf0.atObjectEnd data offset with
    | false => exact .inl rfl
    | true => exact .inr ⟨rfl, Amf0.le_length_of_atObjectEnd hend⟩

end VcpMediaServer
