import VcpMediaServer.StreamManager

/-!
# Publish authority

What it means that a publisher changes the media of a stream **by right**, said
of the manager before and after a call, for every protocol server alike.

* `AuthorisedChange` — media changes only where the publisher holds the slot;
  a reset may come with taking or giving back the slot.
* `OnlyAt` — calls that change one stream and no slot, as all ingest does.
* `HoldsNothing` — what the release at the end is for.
* `Spares` — the streams that others hold are left as they are.
* `OwnOrAbsent` — a stream that nobody else can own: the publisher holds its slot
  or there is no such stream. Other parties can only undo it by **making** the
  stream (`OwnOrAbsent.apply`).
-/

namespace VcpMediaServer

open Ownership

namespace StreamManager

/-- The media of a stream after a reset. -/
def noMedia : FrameRing × Option (List UInt8) × Option (List UInt8) := (FrameRing.new, none, none)

/-- Where the media changes, `own` holds the slot before and after; or there is
no media left and `own` holds the slot before or after. -/
def AuthorisedChange (own : String) (m m' : StreamManager) : Prop :=
  ∀ k, m'.media k ≠ m.media k →
    (Holds m.slots k own ∧ Holds m'.slots k own) ∨
      (m'.media k = noMedia ∧ (Holds m.slots k own ∨ Holds m'.slots k own))

/-- The slot of the stream is `own`'s, or there is none. -/
def OwnOrAbsent (own : String) (m : StreamManager) (s : StreamId) : Prop :=
  Holds m.slots s own ∨ m.slots s = none

instance (own : String) (m : StreamManager) (s : StreamId) : Decidable (m.OwnOrAbsent own s) :=
  inferInstanceAs (Decidable (_ ∨ _))

/-- No slot is held under the id `own`. -/
def HoldsNothing (own : String) (m : StreamManager) : Prop := ∀ s, ¬ Holds m.slots s own

/-- A publisher that makes the stream first, if need be, would get its slot. -/
def Accepts (own : String) (m : StreamManager) (s : StreamId) : Prop :=
  Available (create m.slots s) s own

instance (own : String) (m : StreamManager) (s : StreamId) : Decidable (m.Accepts own s) :=
  inferInstanceAs (Decidable (Available _ _ _))

variable {own : String} {m m' : StreamManager} {s k : StreamId}

/-- The manager of a server that was just started has no slots. -/
theorem holdsNothing_new (own : String) : HoldsNothing own .new := by
  intro s h
  cases h

/-- The calls change **one stream** and no slot. -/
structure OnlyAt (s : StreamId) (m m' : StreamManager) : Prop where
  slots : m'.slots = m.slots
  getHub : ∀ k, k ≠ s → m'.getHub k = m.getHub k

/-- A call that leaves all media alone. -/
theorem AuthorisedChange.of_media (h : ∀ k, m'.media k = m.media k) : m.AuthorisedChange own m' :=
  fun k hk => absurd (h k) hk

/-- A call that changes the media of one stream, whose slot is `own`'s. -/
theorem AuthorisedChange.of_holds (hs : m'.slots = m.slots)
    (h : ∀ k, m'.media k ≠ m.media k → Holds m.slots k own) : m.AuthorisedChange own m' := by
  intro k hk
  rw [hs]
  exact .inl ⟨h k hk, h k hk⟩

/-- Without a hub there is no media. -/
theorem media_of_slots_eq_none (h : m.slots s = none) : m.media s = noMedia := by
  rw [slots, Option.map_eq_none_iff] at h
  rw [media, h, noMedia]

/-- A stream that stays without a hub has no media to change. -/
theorem media_congr_of_absent (h : m.slots s = none) (h' : m'.slots s = none) :
    m'.media s = m.media s := by
  rw [media_of_slots_eq_none h', media_of_slots_eq_none h]

/-! ## Calls that change one stream -/

theorem OnlyAt.refl (s : StreamId) (m : StreamManager) : OnlyAt s m m := ⟨rfl, fun _ _ => rfl⟩

theorem OnlyAt.trans {m₁ m₂ m₃ : StreamManager} (h : OnlyAt s m₁ m₂) (h' : OnlyAt s m₂ m₃) :
    OnlyAt s m₁ m₃ :=
  ⟨h'.slots.trans h.slots, fun k hk => (h'.getHub k hk).trans (h.getHub k hk)⟩

/-- The media that changes is that of the one stream, which is **there**. -/
theorem OnlyAt.of_media_ne (h : OnlyAt s m m') (hk : m'.media k ≠ m.media k) :
    k = s ∧ m.slots s ≠ none := by
  by_cases hks : k = s
  · obtain rfl := hks
    refine ⟨rfl, fun hnone => hk (media_congr_of_absent hnone ?_)⟩
    rw [h.slots, hnone]
  · exact absurd (media_congr (h.getHub k hks)) hk

theorem onlyAt_setStreamSpsPps (m : StreamManager) (s : StreamId) (sps pps : List UInt8) :
    OnlyAt s m (m.setStreamSpsPps s sps pps) :=
  ⟨slots_setStreamSpsPps m s sps pps, fun _ => getHub_setStreamSpsPps_of_ne⟩

theorem onlyAt_mergeStreamNaluConfig (m : StreamManager) (s : StreamId) (nalu : List UInt8) :
    OnlyAt s m (m.mergeStreamNaluConfig s nalu) :=
  ⟨slots_mergeStreamNaluConfig m s nalu, fun _ => getHub_mergeStreamNaluConfig_of_ne⟩

theorem onlyAt_publishFrame {f : MediaFrame} (h : m.publishFrame f = some m') :
    OnlyAt f.streamId m m' :=
  ⟨slots_publishFrame h, fun _ => getHub_publishFrame_of_ne h⟩

theorem onlyAt_setStreamTracks (m : StreamManager) (s : StreamId) (tracks : List Track) :
    OnlyAt s m (m.setStreamTracks s tracks) :=
  ⟨slots_setStreamTracks m s tracks, fun _ => getHub_updateHub_of_ne _⟩

theorem onlyAt_setStatus (m : StreamManager) (s : StreamId) (st : StreamStatus) :
    OnlyAt s m (m.setStatus s st).1 :=
  ⟨slots_setStatus m s st, fun _ => getHub_setStatus_of_ne⟩

theorem onlyAt_resetStreamMedia (m : StreamManager) (s : StreamId) :
    OnlyAt s m (m.resetStreamMedia s) :=
  ⟨slots_resetStreamMedia m s, fun _ => getHub_resetStreamMedia_of_ne⟩

/-! ## What others hold -/

/-- The slot is held by somebody who is not `own`. -/
def HeldByOther (own : String → Bool) (m : StreamManager) (s : StreamId) : Prop :=
  ∃ p, Holds m.slots s p ∧ own p = false

instance (own : String → Bool) (m : StreamManager) (s : StreamId) :
    Decidable (m.HeldByOther own s) :=
  match h : m.slots s with
  | some (some p) =>
    decidable_of_iff (own p = false)
      ⟨fun hp => ⟨p, h, hp⟩, fun ⟨_, hq, hn⟩ => Holds.unique hq h ▸ hn⟩
  | some none => .isFalse fun ⟨_, hp, _⟩ => by simp [Holds, h] at hp
  | none => .isFalse fun ⟨_, hp, _⟩ => by simp [Holds, h] at hp

/-- The streams whose slots others hold are left **as they are**. -/
def Spares (own : String → Bool) (m m' : StreamManager) : Prop :=
  ∀ k, m.HeldByOther own k → m'.getHub k = m.getHub k

section Spares

variable {own : String → Bool} {p : String}

theorem slots_congr (h : m'.getHub k = m.getHub k) : m'.slots k = m.slots k := by
  rw [slots, h, slots]

theorem Spares.refl (own : String → Bool) (m : StreamManager) : Spares own m m := fun _ _ => rfl

theorem Spares.trans {m₁ m₂ m₃ : StreamManager} (h : Spares own m₁ m₂) (h' : Spares own m₂ m₃) :
    Spares own m₁ m₃ := by
  intro k hk
  have heq := h k hk
  refine (h' k ?_).trans heq
  obtain ⟨p, hp, hn⟩ := hk
  exact ⟨p, (slots_congr heq).trans hp, hn⟩

/-- Calls that touch one stream, which nobody else holds. -/
theorem Spares.of_ne (hs : ¬ m.HeldByOther own s) (h : ∀ k, k ≠ s → m'.getHub k = m.getHub k) :
    Spares own m m' := by
  intro k hk
  apply h k
  rintro rfl
  exact hs hk

/-- What `own` holds, nobody else holds. -/
theorem not_heldByOther_of_holds (hp : own p = true) (h : Holds m.slots s p) :
    ¬ m.HeldByOther own s := by
  rintro ⟨q, hq, hn⟩
  obtain rfl := hq.unique h
  simp [hp] at hn

theorem not_heldByOther_of_ownOrAbsent (hp : own p = true) (h : m.OwnOrAbsent p s) :
    ¬ m.HeldByOther own s := by
  rcases h with hold | hnone
  · exact not_heldByOther_of_holds hp hold
  · rintro ⟨q, hq, -⟩
    simp [Holds, hnone] at hq

/-- A slot that `own` may take is nobody else's. -/
theorem not_heldByOther_of_available (hp : own p = true) (h : Available m.slots s p) :
    ¬ m.HeldByOther own s := by
  rcases h with hfree | hold
  · rintro ⟨q, hq, -⟩
    simp [Holds, hfree] at hq
  · exact not_heldByOther_of_holds hp hold

/-- A stream that is there is not made again. -/
theorem createStream_of_slots_ne_none {source : StreamSourceMode} {protocol : StreamProtocol}
    {url : Option String} (h : m.slots s ≠ none) :
    (m.createStream s source protocol url).1 = m := by
  rw [slots, ne_eq, Option.map_eq_none_iff] at h
  obtain ⟨hub, hhub⟩ := Option.ne_none_iff_exists'.mp h
  rw [createStream, hhub]

theorem spares_createStream (own : String → Bool) (m : StreamManager) (s : StreamId)
    (source : StreamSourceMode) (protocol : StreamProtocol) (url : Option String) :
    Spares own m (m.createStream s source protocol url).1 := by
  intro k hk
  by_cases hks : k = s
  · obtain rfl := hks
    obtain ⟨q, hq, -⟩ := hk
    rw [createStream_of_slots_ne_none hq.ne_none]
  · exact getHub_createStream_of_ne hks

end Spares

/-! ## Taking and giving back the slot -/

/-- Taking the slot leaves **no media** of the stream. -/
theorem media_acquirePublisher_ne {p : String}
    (h : (m.acquirePublisher s p).1.media k ≠ m.media k) :
    k = s ∧ Available m.slots s p ∧ (m.acquirePublisher s p).1.media k = noMedia := by
  by_cases hav : Available m.slots s p
  · by_cases hk : k = s
    · obtain rfl := hk
      refine ⟨rfl, hav, ?_⟩
      rw [acquirePublisher_of_available hav]
      exact media_resetStreamMedia_self _ _
    · exact absurd (media_congr (getHub_acquirePublisher_of_ne hk)) h
  · obtain ⟨e, he⟩ := acquirePublisher_of_not_available hav
    rw [he] at h
    exact absurd rfl h

/-- Giving the slot back leaves **no media** of the stream. -/
theorem media_releasePublisher_ne {p : String}
    (h : (m.releasePublisher s p).1.media k ≠ m.media k) :
    k = s ∧ Holds m.slots s p ∧ (m.releasePublisher s p).1.media k = noMedia := by
  by_cases hh : Holds m.slots s p
  · by_cases hk : k = s
    · obtain rfl := hk
      refine ⟨rfl, hh, ?_⟩
      rw [releasePublisher_of_holds hh]
      exact media_resetStreamMedia_self _ _
    · exact absurd (media_congr (getHub_releasePublisher_of_ne hk)) h
  · rw [releasePublisher_of_not_holds hh] at h
    exact absurd rfl h

/-- `release_publisher` and, if that gave the slot back, `set_unpublished`: how
the servers end a publication. -/
def unpublish (m : StreamManager) (s : StreamId) (p : String) : StreamManager :=
  match m.releasePublisher s p with
  | (m, true) => (m.setUnpublished s).1
  | (m, false) => m

theorem unpublish_of_holds {p : String} (h : Holds m.slots s p) :
    m.unpublish s p = ((m.releasePublisher s p).1.setUnpublished s).1 := by
  have htrue : (m.releasePublisher s p).2 = true := by rw [releasePublisher_of_holds h]
  rw [unpublish]
  generalize m.releasePublisher s p = r at *
  obtain ⟨m₁, b⟩ := r
  obtain rfl : b = true := htrue
  rfl

theorem unpublish_of_not_holds {p : String} (h : ¬ Holds m.slots s p) : m.unpublish s p = m := by
  rw [unpublish, releasePublisher_of_not_holds h]

@[simp] theorem slots_unpublish (m : StreamManager) (s : StreamId) (p : String) :
    (m.unpublish s p).slots = release m.slots s p := by
  by_cases h : Holds m.slots s p
  · rw [unpublish_of_holds h, setUnpublished, slots_setStatus, slots_releasePublisher]
  · rw [unpublish_of_not_holds h, release_of_not_holds h]

/-- The end of a publication leaves **no media** of the stream. -/
theorem media_unpublish_ne {p : String} (h : (m.unpublish s p).media k ≠ m.media k) :
    k = s ∧ Holds m.slots s p ∧ (m.unpublish s p).media k = noMedia := by
  by_cases hh : Holds m.slots s p
  · rw [unpublish_of_holds hh, setUnpublished, media_setStatus] at h ⊢
    exact media_releasePublisher_ne h
  · rw [unpublish_of_not_holds hh] at h
    exact absurd rfl h

/-- The end of a publication touches no other stream. -/
theorem getHub_unpublish_of_ne {p : String} (h : k ≠ s) :
    (m.unpublish s p).getHub k = m.getHub k := by
  by_cases hh : Holds m.slots s p
  · rw [unpublish_of_holds hh, setUnpublished, getHub_setStatus_of_ne h,
      getHub_releasePublisher_of_ne h]
  · rw [unpublish_of_not_holds hh]

/-- A publisher **may** end its publication. -/
theorem authorisedChange_unpublish (own : String) (m : StreamManager) (s : StreamId) :
    m.AuthorisedChange own (m.unpublish s own) := by
  intro k hk
  obtain ⟨rfl, hh, hm⟩ := media_unpublish_ne hk
  exact .inr ⟨hm, .inl hh⟩

/-- Calls made under other ids respect what one publisher holds. -/
theorem respects_of_apply {op : ManagerOp} (ho : op.publisherId ≠ some own)
    (hop : op.apply m = some m') : Respects (· = own) m.slots m'.slots :=
  ManagerOp.respects_apply (fun _ hp hpo => ho (hpo ▸ hp)) hop

/-- The calls of other parties leave a stream `own`'s or absent, unless they
make it. -/
theorem OwnOrAbsent.apply {op : ManagerOp} (h : m.OwnOrAbsent own s)
    (ho : op.publisherId ≠ some own) (hc : m.slots s = none → op.created ≠ some s)
    (hop : op.apply m = some m') : m'.OwnOrAbsent own s := by
  rcases h with hold | hnone
  · exact (respects_of_apply ho hop s own rfl).2 hold
  · exact .inr (ManagerOp.slots_apply_eq_none (hc hnone) hnone hop)

/-- A stream that is made in vain was there, and somebody else's. -/
theorem OwnOrAbsent.create {name : StreamId} (h : m.OwnOrAbsent own s)
    (taken : ¬ m.Accepts own name) (slots : m'.slots = create m.slots name) :
    m'.OwnOrAbsent own s := by
  rw [OwnOrAbsent, slots, holds_create]
  rcases h with hold | hnone
  · exact .inl hold
  · right
    rw [create_of_ne, hnone]
    rintro rfl
    exact taken (.inl (by rw [create_self, hnone]; rfl))

/-- Other parties give a publisher nothing. -/
theorem HoldsNothing.apply {op : ManagerOp} (h : m.HoldsNothing own)
    (ho : op.publisherId ≠ some own) (hop : op.apply m = some m') : m'.HoldsNothing own :=
  fun s hold => h s ((respects_of_apply ho hop s own rfl).1 hold)

end StreamManager

end VcpMediaServer
